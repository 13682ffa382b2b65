import PageTemplate.Settings.Directive

/-! Entries of a settings text. What a line sets, or what is wrong with it, does not depend on the
settings before it. So a text is loaded as the entries of its good lines, set one after another. -/
namespace PageTemplate.Settings

/-- What a line sets. -/
inductive Entry
  | request (name value : Text)
  | persistent (name value : Text)
  | mimeType (s : Text)
  | encoding (name : Text)
  | status (code : UInt16) (phrase : Option Text)
  | header (on : Bool)
  | cookie (c : Cookie)
deriving DecidableEq

/-- The settings after an entry. A status without a text leaves the text that there is. -/
def Entry.set (s : Settings) : Entry → Settings
  | request name value => { s with request := s.request.insert name value }
  | persistent name value => { s with persistent := s.persistent.insert name value }
  | mimeType mime => { s with mimeType := some mime }
  | encoding name => { s with encoding := some name }
  | status code phrase => { s with statusCode := some code, statusText := phrase.or s.statusText }
  | header on => { s with wantsHeader := on }
  | cookie c => { s with cookies := s.cookies ++ [c] }

def readStatus : List Text → Except DirectiveError Entry
  | [] => .error .missingStatus
  | code :: words =>
    match statusCode? code with
    | none => .error (.badStatus code)
    | some n => .ok (.status n (if words = [] then none else some (joinWords words)))

def readEncoding (name : Text) : Except DirectiveError Entry :=
  if (Encoding.ofName? name).isSome then .ok (.encoding name) else .error (.unknownEncoding name)

/-- The entry of a directive with its arguments. -/
def readEntry (directive : Text) (arguments : List Text) : Except DirectiveError Entry :=
  if directive = "param".toList then
    (singlePair directive arguments).map fun p => .request p.1 p.2
  else if directive = "pparam".toList then
    (singlePair directive arguments).map fun p => .persistent p.1 p.2
  else if directive = "mime".toList then (single directive arguments).map .mimeType
  else if directive = "encoding".toList then (single directive arguments).bind readEncoding
  else if directive = "status".toList then readStatus arguments
  else if directive = "header".toList then
    ((single directive arguments).bind readHeaderWord).map .header
  else if directive = "cookie".toList then (readCookie arguments).map .cookie
  else .error (.unknownDirective directive)

/-- The entry of a line, if it is not idle. -/
def readLine (raw : Text) : Except DirectiveError (Option Entry) :=
  if isIdle (Text.trim raw) then .ok none
  else
    let (directive, arguments) := splitDirective (Text.trim raw)
    (readEntry directive arguments).map some

/-- The entry of a good line. -/
def entryOf? (raw : Text) : Option Entry :=
  match readLine raw with
  | .ok e => e
  | .error _ => none

/-- What is wrong with the lines from number `n` on. -/
def lineErrors (n : Nat) : List Text → List LineError
  | [] => []
  | raw :: lines =>
    match readLine raw with
    | .ok _ => lineErrors (n + 1) lines
    | .error cause => ⟨n, cause⟩ :: lineErrors (n + 1) lines

/-! ## Lines -/

/-- The change that an entry makes. What could not be read changes nothing. -/
def setRead : Except DirectiveError Entry → Change
  | .ok e => modify e.set
  | .error cause => throw cause

theorem setStatus_eq (arguments : List Text) :
    setStatus arguments = setRead (readStatus arguments) := by
  cases arguments with
  | nil => rfl
  | cons code words =>
    unfold setStatus readStatus
    dsimp only
    cases statusCode? code with
    | none => rfl
    | some n => by_cases h : words = [] <;> simp only [h, if_true, if_false] <;> rfl

/-- A directive sets its entry, whatever the settings. -/
theorem apply_eq (directive : Text) (arguments : List Text) :
    apply directive arguments = setRead (readEntry directive arguments) := by
  unfold apply readEntry
  split
  · cases singlePair directive arguments <;> rfl
  split
  · cases singlePair directive arguments <;> rfl
  split
  · cases single directive arguments <;> rfl
  split
  · cases single directive arguments with
    | error e => rfl
    | ok name =>
      change (if (Encoding.ofName? name).isSome then _ else _) = _
      simp only [Except.bind, readEncoding]
      split <;> rfl
  split
  · exact setStatus_eq arguments
  split
  · cases single directive arguments with
    | error e => rfl
    | ok word =>
      change (MonadExcept.ofExcept (readHeaderWord word) >>= _ : Change) = _
      simp only [Except.bind]
      cases readHeaderWord word <;> rfl
  split
  · cases readCookie arguments <;> rfl
  · rfl

/-- The settings after a line that was read, and after one that could not be read. -/
theorem applyLine_eq (raw : Text) (s : Settings) :
    applyLine raw s = match readLine raw with
      | .ok e => .ok () (e.elim s (Entry.set s))
      | .error cause => .error cause s := by
  unfold applyLine readLine
  dsimp only
  split
  · rfl
  · rw [apply_eq]
    cases readEntry _ _ <;> rfl

/-- Lines are loaded as the entries of the good ones; the others are reported. -/
theorem loadFrom_eq (s : Settings) (n : Nat) (lines : List Text) :
    loadFrom s n lines = ((lines.filterMap entryOf?).foldl Entry.set s, lineErrors n lines) := by
  induction lines generalizing s n with
  | nil => rfl
  | cons raw lines ih =>
    rw [loadFrom, applyLine_eq, lineErrors, List.filterMap_cons, entryOf?]
    cases readLine raw with
    | error cause => simp only [ih]
    | ok e => cases e <;> simp only [ih, Option.elim, List.foldl_cons]

theorem lineErrors_eq_nil {n : Nat} {lines : List Text}
    (h : ∀ raw ∈ lines, ∃ e, readLine raw = .ok e) : lineErrors n lines = [] := by
  induction lines generalizing n with
  | nil => rfl
  | cons raw lines ih =>
    obtain ⟨e, he⟩ := h raw List.mem_cons_self
    rw [lineErrors, he]
    exact ih fun r hr => h r (List.mem_cons_of_mem raw hr)

/-- The entries of a text. -/
def entries (text : Text) : List Entry := (splitLines text).filterMap entryOf?

theorem settings_load (text : Text) : (load text).1 = (entries text).foldl Entry.set empty := by
  rw [load, loadFrom_eq]
  rfl

end PageTemplate.Settings
