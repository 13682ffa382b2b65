import PageTemplate.Source.Delimiter

/-! Tokens of a template and the two runs they are read from. A text run ends at an opening
delimiter, at the end, or at a backslash that escapes neither a backslash nor an opening
brace. A tag run ends at a closing delimiter or at the end. -/
namespace PageTemplate

inductive Token
  | text (content : Text)
  | tag (body : Text)
deriving DecidableEq

/-- A backslash at an offset in characters, with the character after it if there is one. -/
structure ScanError where
  offset : Nat
  escaped : Option Char
deriving DecidableEq

def ScanError.message (e : ScanError) : String :=
  "unsupported escape sequence '\\" ++ String.ofList e.escaped.toList ++ "' at offset " ++
    toString e.offset

/-- Where a run ends. -/
inductive Stop
  | finished
  | delimiter (rest : Text)
  | badEscape (escaped : Option Char)
deriving DecidableEq

/-- A run: what it says, what follows it and why it ends there. -/
structure TokenRun where
  content : Text
  rest : Text
  stop : Stop
deriving DecidableEq

namespace TokenRun

/-- Reads a text run, given what it says so far in reverse. -/
def textFrom (said : Text) : Text → TokenRun
  | [] => ⟨said.reverse, [], .finished⟩
  | c :: s =>
    match Delimiter.afterOpening? (c :: s) with
    | some rest => ⟨said.reverse, c :: s, .delimiter rest⟩
    | none =>
      if c = '\\' then
        match s with
        | [] => ⟨said.reverse, [c], .badEscape none⟩
        | d :: s =>
          if d = '{' ∨ d = '\\' then textFrom (d :: said) s
          else ⟨said.reverse, c :: d :: s, .badEscape (some d)⟩
      else textFrom (c :: said) s

/-- Reads a tag run, given what it says so far in reverse. -/
def tagFrom (said : Text) : Text → TokenRun
  | [] => ⟨said.reverse, [], .finished⟩
  | c :: s =>
    match Delimiter.afterClosing? (c :: s) with
    | some rest => ⟨said.reverse, c :: s, .delimiter rest⟩
    | none => tagFrom (c :: said) s

def text (s : Text) : TokenRun := textFrom [] s

def tag (s : Text) : TokenRun := tagFrom [] s

/-- Puts what was said before in front of a run. -/
def prepend (said : Text) (r : TokenRun) : TokenRun :=
  { r with content := said.reverse ++ r.content }

theorem textFrom_append (said more : Text) (s : Text) :
    textFrom (more ++ said) s = prepend said (textFrom more s) := by
  fun_induction textFrom more s
  case case4 h ho ih =>
    rw [textFrom.eq_def]
    simpa [ho, h] using ih
  case case6 h ho ih =>
    rw [textFrom.eq_def]
    simpa [ho, h] using ih
  all_goals rw [textFrom.eq_def]; simp_all [prepend]

theorem textFrom_eq (said s : Text) : textFrom said s = prepend said (text s) :=
  textFrom_append said [] s

theorem tagFrom_append (said more : Text) (s : Text) :
    tagFrom (more ++ said) s = prepend said (tagFrom more s) := by
  fun_induction tagFrom more s
  case case3 ho ih =>
    rw [tagFrom]
    simpa [ho] using ih
  all_goals rw [tagFrom]; simp_all [prepend]

theorem tagFrom_eq (said s : Text) : tagFrom said s = prepend said (tag s) :=
  tagFrom_append said [] s

theorem text_nil : text [] = ⟨[], [], .finished⟩ := rfl

theorem text_of_opening {s rest : Text} (h : Delimiter.afterOpening? s = some rest) :
    text s = ⟨[], s, .delimiter rest⟩ := by
  cases s with
  | nil => simp [Delimiter.afterOpening?, Delimiter.after?] at h
  | cons c s => rw [text, textFrom.eq_def]; simp [h]

theorem text_escaped {d : Char} (s : Text) (h : d = '{' ∨ d = '\\') :
    text ('\\' :: d :: s) = prepend [d] (text s) := by
  have ho : Delimiter.afterOpening? ('\\' :: d :: s) = none :=
    Delimiter.after?_eq_none_of_ne _ (by decide)
  rw [← textFrom_eq, text, textFrom.eq_def]
  simp [ho, h]

theorem text_cons {c : Char} {s : Text} (ho : Delimiter.afterOpening? (c :: s) = none)
    (hc : c ≠ '\\') : text (c :: s) = prepend [c] (text s) := by
  rw [← textFrom_eq, text, textFrom.eq_def]
  simp [ho, hc]

theorem tag_nil : tag [] = ⟨[], [], .finished⟩ := rfl

theorem tag_of_closing {s rest : Text} (h : Delimiter.afterClosing? s = some rest) :
    tag s = ⟨[], s, .delimiter rest⟩ := by
  cases s with
  | nil => simp [Delimiter.afterClosing?, Delimiter.after?] at h
  | cons c s => simp [tag, tagFrom, h]

theorem tag_cons {c : Char} {s : Text} (h : Delimiter.afterClosing? (c :: s) = none) :
    tag (c :: s) = prepend [c] (tag s) := by
  rw [← tagFrom_eq]
  simp [tag, tagFrom, h]

/-- A run takes at least as many characters as it says. -/
theorem textFrom_length (said s : Text) :
    (textFrom said s).content.length + (textFrom said s).rest.length ≤
      said.length + s.length := by
  fun_induction textFrom said s <;> simp_all <;> omega

theorem tagFrom_length (said s : Text) :
    (tagFrom said s).content.length + (tagFrom said s).rest.length ≤
      said.length + s.length := by
  fun_induction tagFrom said s <;> simp_all
  omega

theorem textFrom_stop {said s rest : Text} (h : (textFrom said s).stop = .delimiter rest) :
    Delimiter.afterOpening? (textFrom said s).rest = some rest := by
  fun_induction textFrom said s <;> simp_all

theorem tagFrom_stop {said s rest : Text} (h : (tagFrom said s).stop = .delimiter rest) :
    Delimiter.afterClosing? (tagFrom said s).rest = some rest := by
  fun_induction tagFrom said s <;> simp_all

theorem length_lt_of_text_stop {s rest : Text} (h : (text s).stop = .delimiter rest) :
    rest.length < s.length := by
  have h1 := Delimiter.after?_length (textFrom_stop h)
  have h2 := textFrom_length [] s
  simp only [List.length_nil] at h2
  omega

theorem length_lt_of_tag_stop {s rest : Text} (h : (tag s).stop = .delimiter rest) :
    rest.length < s.length := by
  have h1 := Delimiter.after?_length (tagFrom_stop h)
  have h2 := tagFrom_length [] s
  simp only [List.length_nil] at h2
  omega

end TokenRun
end PageTemplate
