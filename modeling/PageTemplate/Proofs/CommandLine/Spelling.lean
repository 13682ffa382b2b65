import PageTemplate.CommandLine

/-! The spellings of a command line. Flags may share a dash with each other and with an option
behind them, and the value of an option may stand behind its letter or in the next argument. Every
spelling is read as the same arguments. -/
namespace PageTemplate.Arguments

/-! ## Items -/

/-- What a letter without a value asks for. -/
inductive Flag
  | skipSettings
  | header
  | printTree
  | help
deriving DecidableEq

def Flag.letter : Flag → Char
  | .skipSettings => 'n'
  | .header => 'H'
  | .printTree => 't'
  | .help => 'h'

/-- A name with a value. The name is not empty and ends at the first equals sign. -/
structure NamedValue where
  name : Text
  value : Text
  name_ne_nil : name ≠ []
  noEquals : '=' ∉ name

def NamedValue.pair (p : NamedValue) : Text × Text := (p.name, p.value)

/-- An option with its value. -/
inductive Setting
  | settings (path : Text)
  | request (p : NamedValue)
  | persistent (p : NamedValue)

namespace Setting

def option : Setting → ValueOption
  | .settings _ => .settings
  | .request _ => .request
  | .persistent _ => .persistent

/-- The value as it is written. -/
def value : Setting → Text
  | .settings path => path
  | .request p => p.name ++ '=' :: p.value
  | .persistent p => p.name ++ '=' :: p.value

def letter (o : Setting) : Char := o.option.letter

end Setting

/-- A template as it can stand anywhere among the arguments. -/
structure TemplateName where
  path : Text
  plain : path = ['-'] ∨ path.head? ≠ some '-'

/-- What a command line asks for, one thing after another. -/
inductive Item
  | flag (f : Flag)
  | setting (o : Setting)
  | template (t : TemplateName)

namespace Item

@[simp]
def flag? : Item → Option Flag
  | .flag f => some f
  | _ => none

/-- Where the settings come from, if the item says that. -/
@[simp]
def choice? : Item → Option SettingsChoice
  | .flag .skipSettings => some .skip
  | .setting (.settings path) => some (.file path)
  | _ => none

@[simp]
def request? : Item → Option (Text × Text)
  | .setting (.request p) => some p.pair
  | _ => none

@[simp]
def persistent? : Item → Option (Text × Text)
  | .setting (.persistent p) => some p.pair
  | _ => none

@[simp]
def path? : Item → Option Text
  | .template t => some t.path
  | _ => none

end Item

/-- The arguments that items ask for, with more templates behind them. The last item that says where
the settings come from decides. -/
def ofItems (items : List Item) (more : List Text) : Arguments where
  settings := (items.filterMap Item.choice?).getLast?.getD .search
  request := items.filterMap Item.request?
  persistent := items.filterMap Item.persistent?
  header := (items.filterMap Item.flag?).contains .header
  printTree := (items.filterMap Item.flag?).contains .printTree
  help := (items.filterMap Item.flag?).contains .help
  templates := items.filterMap Item.path? ++ more

/-- Items and arguments that spell them. -/
inductive Spells : List Item → List Text → Prop
  | nil : Spells [] []
  | template {items : List Item} {arguments : List Text} (t : TemplateName)
      (h : Spells items arguments) : Spells (.template t :: items) (t.path :: arguments)
  | flags {items : List Item} {arguments : List Text} {fs : List Flag} (hne : fs ≠ [])
      (h : Spells items arguments) :
      Spells (fs.map .flag ++ items) (('-' :: fs.map Flag.letter) :: arguments)
  | attached {items : List Item} {arguments : List Text} (fs : List Flag) {o : Setting}
      (hne : o.value ≠ []) (h : Spells items arguments) :
      Spells (fs.map .flag ++ .setting o :: items)
        (('-' :: (fs.map Flag.letter ++ o.letter :: o.value)) :: arguments)
  | separate {items : List Item} {arguments : List Text} (fs : List Flag) (o : Setting)
      (h : Spells items arguments) :
      Spells (fs.map .flag ++ .setting o :: items)
        (('-' :: (fs.map Flag.letter ++ [o.letter])) :: o.value :: arguments)

/-- A template to show, or a call for help. -/
def HasSubject (items : List Item) (more : List Text) : Prop :=
  (∃ t, .template t ∈ items) ∨ more ≠ [] ∨ .flag .help ∈ items

/-- Two dashes and templates behind them, if there are any. -/
def trailing : Option (List Text) → List Text
  | none => []
  | some paths => ['-', '-'] :: paths

/-! ## One item -/

/-- The arguments after an item. -/
def add (a : Arguments) : Item → Arguments
  | .flag .skipSettings => { a with settings := .skip }
  | .flag .header => { a with header := true }
  | .flag .printTree => { a with printTree := true }
  | .flag .help => { a with help := true }
  | .setting (.settings path) => { a with settings := .file path }
  | .setting (.request p) => { a with request := a.request ++ [p.pair] }
  | .setting (.persistent p) => { a with persistent := a.persistent ++ [p.pair] }
  | .template t => a.addTemplates [t.path]

theorem setFlag?_letter (a : Arguments) (f : Flag) :
    a.setFlag? f.letter = some (a.add (.flag f)) := by
  cases f <;> rfl

theorem setOption_value (a : Arguments) (o : Setting) :
    a.setOption o.option o.value = .ok (a.add (.setting o)) := by
  cases o with
  | settings path => rfl
  | request p =>
    simp only [setOption, Setting.option, Setting.value,
      splitPair?_append p.value p.name_ne_nil p.noEquals]
    rfl
  | persistent p =>
    simp only [setOption, Setting.option, Setting.value,
      splitPair?_append p.value p.name_ne_nil p.noEquals]
    rfl

/-- The items in order leave in each field what they say about it. -/
theorem foldl_add (items : List Item) (a : Arguments) :
    items.foldl add a =
      { settings := (items.filterMap Item.choice?).getLast?.getD a.settings
        request := a.request ++ items.filterMap Item.request?
        persistent := a.persistent ++ items.filterMap Item.persistent?
        header := a.header || (items.filterMap Item.flag?).contains .header
        printTree := a.printTree || (items.filterMap Item.flag?).contains .printTree
        help := a.help || (items.filterMap Item.flag?).contains .help
        templates := a.templates ++ items.filterMap Item.path? } := by
  induction items generalizing a with
  | nil => simp
  | cons item items ih =>
    rw [List.foldl_cons, ih]
    cases item with
    | flag f => cases f <;> simp [add, List.filterMap_cons, List.getLast?_cons]
    | setting o => cases o <;> simp [add, List.filterMap_cons, List.getLast?_cons]
    | template t => simp [add, addTemplates, List.filterMap_cons]

theorem ofItems_eq (items : List Item) (more : List Text) :
    ofItems items more = (items.foldl add empty).addTemplates more := by
  rw [foldl_add]
  simp [ofItems, addTemplates, empty]

/-! ## One cluster -/

theorem addCluster_flags (a : Arguments) (fs : List Flag) (s : Text) :
    a.addCluster (fs.map Flag.letter ++ s) = ((fs.map Item.flag).foldl add a).addCluster s := by
  induction fs generalizing a with
  | nil => rfl
  | cons f fs ih =>
    rw [List.map_cons, List.cons_append, addCluster, setFlag?_letter]
    exact ih _

theorem addCluster_option (a : Arguments) (o : Setting) (s : Text) :
    a.addCluster (o.letter :: s) =
      if s = [] then .ok (a, some o.option)
      else (a.setOption o.option s).map fun b => (b, none) := by
  cases o <;> rfl

theorem addCluster_attached (a : Arguments) (fs : List Flag) {o : Setting} (hne : o.value ≠ []) :
    a.addCluster (fs.map Flag.letter ++ o.letter :: o.value) =
      .ok ((fs.map Item.flag ++ [Item.setting o]).foldl add a, none) := by
  rw [addCluster_flags, addCluster_option, if_neg hne, setOption_value, List.foldl_append]
  rfl

theorem addCluster_open (a : Arguments) (fs : List Flag) (o : Setting) :
    a.addCluster (fs.map Flag.letter ++ [o.letter]) =
      .ok ((fs.map Item.flag).foldl add a, some o.option) := by
  rw [addCluster_flags, addCluster_option, if_pos rfl]

/-- A second dash is not a letter, so a cluster that can be read is neither two dashes nor a
template. -/
theorem shape_of_addCluster {a : Arguments} {s : Text} {r : Arguments × Option ValueOption}
    (hne : s ≠ []) (h : a.addCluster s = .ok r) :
    '-' :: s ≠ ['-', '-'] ∧ isTemplate ('-' :: s) = false := by
  refine ⟨?_, by simp [isTemplate, hne]⟩
  intro hs
  obtain rfl : s = ['-'] := List.tail_eq_of_cons_eq hs
  cases h

theorem addAll_of_addCluster {a b : Arguments} {s : Text} (hne : s ≠ [])
    (h : a.addCluster s = .ok (b, none)) (more : List Text) :
    a.addAll (('-' :: s) :: more) = b.addAll more := by
  obtain ⟨hdashes, htemplate⟩ := shape_of_addCluster hne h
  rw [addAll, if_neg hdashes, if_neg (by simp [htemplate]), List.drop_one, List.tail_cons]
  simp only [h]

theorem addAll_of_addCluster_open {a b d : Arguments} {s value : Text} {o : ValueOption}
    (hne : s ≠ []) (h : a.addCluster s = .ok (b, some o)) (hv : b.setOption o value = .ok d)
    (more : List Text) : a.addAll (('-' :: s) :: value :: more) = d.addAll more := by
  obtain ⟨hdashes, htemplate⟩ := shape_of_addCluster hne h
  rw [addAll, if_neg hdashes, if_neg (by simp [htemplate]), List.drop_one, List.tail_cons]
  simp only [h, hv]

/-! ## All arguments -/

theorem addAll_template (a : Arguments) (t : TemplateName) (more : List Text) :
    a.addAll (t.path :: more) = (a.add (.template t)).addAll more := by
  have hdash : t.path ≠ ['-', '-'] := by
    intro h
    rcases t.plain with hp | hp <;> simp [h] at hp
  have htemplate : isTemplate t.path = true := by
    simpa [isTemplate] using t.plain
  rw [addAll, if_neg hdash, if_pos htemplate]
  rfl

theorem addAll_of_spells {items : List Item} {arguments : List Text}
    (h : Spells items arguments) (a : Arguments) (more : List Text) :
    a.addAll (arguments ++ more) = (items.foldl add a).addAll more := by
  induction h generalizing a with
  | nil => rfl
  | template t h ih => rw [List.cons_append, addAll_template, ih, List.foldl_cons]
  | @flags items arguments fs hne h ih =>
    have hc : a.addCluster (fs.map Flag.letter) = .ok ((fs.map Item.flag).foldl add a, none) := by
      simpa [addCluster] using addCluster_flags a fs []
    rw [List.cons_append, addAll_of_addCluster (by simpa using hne) hc, ih, List.foldl_append]
  | attached fs hne h ih =>
    rw [List.cons_append, addAll_of_addCluster (by simp) (addCluster_attached a fs hne), ih,
      ← List.foldl_append, List.append_assoc, List.singleton_append]
  | separate fs o h ih =>
    rw [List.cons_append, List.cons_append, addAll_of_addCluster_open (by simp)
      (addCluster_open a fs o) (setOption_value _ o), ih, List.foldl_append, List.foldl_cons]

theorem addAll_trailing (a : Arguments) (paths? : Option (List Text)) :
    a.addAll (trailing paths?) = .ok (a.addTemplates (paths?.getD [])) := by
  cases paths? with
  | none => simp [trailing, addAll, addTemplates]
  | some paths => rfl

theorem templates_ofItems_eq_nil_iff {items : List Item} {more : List Text} :
    (ofItems items more).templates = [] ↔ (∀ t, .template t ∉ items) ∧ more = [] := by
  simp only [ofItems, List.append_eq_nil_iff, List.filterMap_eq_nil_iff]
  refine and_congr_left' ⟨fun h t ht => ?_, fun h item hitem => ?_⟩
  · cases h _ ht
  · cases item with
    | template t => exact absurd hitem (h t)
    | flag f => rfl
    | setting o => rfl

theorem help_ofItems_iff {items : List Item} {more : List Text} :
    (ofItems items more).help = true ↔ .flag .help ∈ items := by
  simp only [ofItems, List.contains_iff_mem, List.mem_filterMap]
  constructor
  · rintro ⟨item, hitem, h⟩
    cases item with
    | flag f =>
      obtain rfl : f = .help := by simpa using h
      exact hitem
    | setting o => cases h
    | template t => cases h
  · exact fun h => ⟨_, h, rfl⟩

theorem hasSubject_iff {items : List Item} {more : List Text} :
    HasSubject items more ↔
      ¬((ofItems items more).templates = [] ∧ !(ofItems items more).help) := by
  rw [templates_ofItems_eq_nil_iff, Bool.not_eq_true', ← Bool.not_eq_true, help_ofItems_iff]
  simp only [HasSubject]
  grind

/-- However the items are spelled, the arguments are read as what the items say, and only a line
with neither a template nor a call for help is refused. -/
theorem parse_of_spells {items : List Item} {arguments : List Text} (h : Spells items arguments)
    (paths? : Option (List Text)) :
    (HasSubject items (paths?.getD []) →
      parse (arguments ++ trailing paths?) = .ok (ofItems items (paths?.getD []))) ∧
    (¬HasSubject items (paths?.getD []) →
      parse (arguments ++ trailing paths?) = .error .noTemplates) := by
  have hall :
      empty.addAll (arguments ++ trailing paths?) = .ok (ofItems items (paths?.getD [])) := by
    rw [addAll_of_spells h, addAll_trailing, ofItems_eq]
  rw [hasSubject_iff, Classical.not_not]
  simp only [parse, hall]
  exact ⟨fun hs => if_neg hs, fun hs => if_pos hs⟩

/-- An option behind two flags, a value that looks like a flag, and a value that looks like the
dashes at the end. -/
theorem parse_mixed_spelling :
    let pair : NamedValue := ⟨['a'], "b=c".toList, by decide, by decide⟩
    let items : List Item := [.flag .header, .flag .printTree, .setting (.request pair),
      .setting (.settings "-n".toList), .template ⟨['-'], by decide⟩, .flag .skipSettings,
      .setting (.settings "--".toList)]
    let line := ["-Htpa=b=c", "-c", "-n", "-", "-nc", "--"].map String.toList
    Spells items line ∧
      parse (line ++ ["--".toList, "-t".toList]) =
        .ok ⟨.file "--".toList, [(['a'], "b=c".toList)], [], true, true, false,
          [['-'], "-t".toList]⟩ := by
  intro pair items line
  have h : Spells items line :=
    .attached [.header, .printTree] (by decide)
      (.separate [] (.settings "-n".toList)
        (.template _ (.separate [.skipSettings] (.settings "--".toList) .nil)))
  refine ⟨h, ?_⟩
  exact (parse_of_spells h (some ["-t".toList])).1 (.inr (.inl (by decide)))

end PageTemplate.Arguments
