import PageTemplate.Value.Registry

/-! Independence of the stacks of a registry. Under each name the operations are answered as if
there were one stack and no other name. The map has no stack without a cell, so it is empty exactly
when every cell is popped. The bindings of a render are the same stacks in another form. -/
namespace PageTemplate

/-- The items that stand with a name, in order. -/
def under {α : Type} (name : Text) (items : List (Text × α)) : List α :=
  (items.filter (·.1 = name)).map (·.2)

theorem under_cons {α : Type} (name other : Text) (item : α) (items : List (Text × α)) :
    under name ((other, item) :: items) =
      if other = name then item :: under name items else under name items := by
  by_cases h : other = name <;> simp [under, h]

/-! ## One name of many -/

namespace NamedStacks

variable {σ τ : Type} [NamedStacks σ] [NamedStacks τ]

theorem answer_apply (s : σ) (name : Text) (op : StackOp) :
    (apply s name op).1 = (op.run (stack s name)).1 := by
  cases op with
  | push c => rfl
  | pop => exact congrArg _ (peek_eq s name)
  | peek => exact congrArg _ (peek_eq s name)
  | edit e =>
    rw [apply, peek_eq]
    cases stack s name <;> rfl

theorem stack_apply (s : σ) (name other : Text) (op : StackOp) :
    stack (apply s name op).2 other =
      if name = other then (op.run (stack s name)).2 else stack s other := by
  have hsame : stack s other = if name = other then stack s name else stack s other := by
    split
    · subst name
      rfl
    · rfl
  cases op with
  | push c => exact stack_push s name other c
  | pop => exact stack_pop s name other
  | peek => exact hsame
  | edit e =>
    rw [apply, peek_eq]
    cases hstack : stack s name with
    | nil =>
      rw [hstack] at hsame
      exact hsame
    | cons c cs =>
      change stack (replace s name (e.run c).2) other = _
      rw [stack_replace, hstack]
      rfl

/-- Under a name, operations on many names are those of the name on its stack alone. -/
theorem under_applyAll (name : Text) (ops : List (Text × StackOp)) (s : σ) :
    under name (applyAll s ops).1 = (StackOp.runAll (stack s name) (under name ops)).1 ∧
      stack (applyAll s ops).2 name = (StackOp.runAll (stack s name) (under name ops)).2 := by
  induction ops generalizing s with
  | nil => exact ⟨rfl, rfl⟩
  | cons item ops ih =>
    obtain ⟨other, op⟩ := item
    have hrest := ih (apply s other op).2
    rw [stack_apply] at hrest
    rw [applyAll, under_cons, under_cons]
    -- Under another name the first operation adds nothing on either side and leaves the stack.
    by_cases h : other = name
    · subst h
      rw [if_pos rfl] at hrest
      rw [if_pos rfl, if_pos rfl, answer_apply, hrest.1]
      exact ⟨rfl, hrest.2⟩
    · rw [if_neg h] at hrest
      rw [if_neg h, if_neg h]
      exact hrest

/-- Where the stacks are the same, the answers are. -/
theorem applyAll_congr {s : σ} {t : τ} (h : ∀ name, stack s name = stack t name)
    (ops : List (Text × StackOp)) :
    (applyAll s ops).1 = (applyAll t ops).1 ∧
      ∀ name, stack (applyAll s ops).2 name = stack (applyAll t ops).2 name := by
  induction ops generalizing s t with
  | nil => exact ⟨rfl, h⟩
  | cons item ops ih =>
    obtain ⟨name, op⟩ := item
    have hanswer : (apply s name op).1 = (apply t name op).1 := by
      rw [answer_apply, answer_apply, h]
    have hstacks : ∀ other,
        stack (apply s name op).2 other = stack (apply t name op).2 other := by
      intro other
      rw [stack_apply, stack_apply, h, h]
    obtain ⟨hanswers, hafter⟩ := ih hstacks
    refine ⟨?_, hafter⟩
    rw [applyAll, applyAll, hanswer, hanswers]

end NamedStacks

/-! ## Cells pushed and popped -/

def StackOp.isPush : StackOp → Bool
  | push _ => true
  | _ => false

/-- Whether a cell was popped. -/
def StackAnswer.tookCell : StackAnswer → Bool
  | popped (some _) => true
  | _ => false

theorem StackOp.length_run (op : StackOp) (cs : List Cell) :
    cs.length + (if op.isPush then 1 else 0) =
      (op.run cs).2.length + if (op.run cs).1.tookCell then 1 else 0 := by
  cases op with
  | push c => rfl
  | pop => cases cs <;> rfl
  | peek => rfl
  | edit e => cases cs <;> rfl

/-- A stack holds what it held and what was pushed, less what was popped. -/
theorem StackOp.length_runAll (ops : List StackOp) (cs : List Cell) :
    cs.length + ops.countP isPush =
      (runAll cs ops).2.length + (runAll cs ops).1.countP StackAnswer.tookCell := by
  induction ops generalizing cs with
  | nil => rfl
  | cons op ops ih =>
    have hfirst := op.length_run cs
    have hrest := ih (op.run cs).2
    simp only [runAll, List.countP_cons]
    omega

/-! ## The map -/

namespace Registry

open NamedStacks

/-- Every name in the map has a cell. -/
def Filled (r : Registry) : Prop := ∀ name, r.get? name ≠ some []

theorem filled_empty : empty.Filled := fun _ => nofun

theorem Filled.set {r : Registry} (h : r.Filled) {cs? : Option (List Cell)} (hcs : cs? ≠ some [])
    (name : Text) : (r.set name cs?).Filled := by
  intro other
  by_cases hname : name = other
  · subst hname
    rwa [get?_set_self]
  · rw [get?_set_of_ne r hname]
    exact h other

theorem Filled.push {r : Registry} (h : r.Filled) (name : Text) (c : Cell) :
    (r.push name c).Filled := by
  refine h.set ?_ name
  exact nofun

theorem Filled.pop {r : Registry} (h : r.Filled) (name : Text) : (r.pop name).Filled := by
  refine h.set ?_ name
  cases r.get? name with
  | none => exact nofun
  | some cs => exact ofStack_ne_nil cs.tail

theorem Filled.replace {r : Registry} (h : r.Filled) (name : Text) (c : Cell) :
    (r.replace name c).Filled := by
  refine h.set ?_ name
  have hname := h name
  cases hget : r.get? name with
  | none => exact nofun
  | some cs =>
    cases cs with
    | nil => exact absurd hget hname
    | cons d cs => exact nofun

theorem Filled.apply {r : Registry} (h : r.Filled) (name : Text) (op : StackOp) :
    (apply r name op).2.Filled := by
  cases op with
  | push c => exact h.push name c
  | pop => exact h.pop name
  | peek => exact h
  | edit e =>
    rw [NamedStacks.apply]
    split
    · exact h
    · exact h.replace name _

theorem Filled.applyAll {r : Registry} (h : r.Filled) (ops : List (Text × StackOp)) :
    (applyAll r ops).2.Filled := by
  induction ops generalizing r with
  | nil => exact h
  | cons item ops ih => exact ih (h.apply item.1 item.2)

theorem Filled.eq_empty_iff {r : Registry} (h : r.Filled) :
    r = empty ↔ ∀ name, r.stack name = [] := by
  refine ⟨fun hr name => hr ▸ rfl, fun hstacks => ?_⟩
  obtain ⟨entries, nodup⟩ := r
  cases entries with
  | nil => rfl
  | cons e es =>
    have hget : get? ⟨e :: es, nodup⟩ e.1 = some e.2 := by simp [get?]
    have hcells : stack ⟨e :: es, nodup⟩ e.1 = e.2 := by rw [stack, hget, Option.getD_some]
    rw [← hcells, hstacks] at hget
    exact absurd hget (h e.1)

/-- Under each name the operations are those on one stack, which is empty at first. -/
theorem under_applyAll_empty (name : Text) (ops : List (Text × StackOp)) :
    under name (applyAll empty ops).1 = (StackOp.runAll [] (under name ops)).1 ∧
      (applyAll empty ops).2.stack name = (StackOp.runAll [] (under name ops)).2 :=
  under_applyAll name ops empty

/-- The map is empty if and only if under every name as many cells were popped as pushed. -/
theorem applyAll_eq_empty_iff (ops : List (Text × StackOp)) :
    (applyAll empty ops).2 = empty ↔
      ∀ name, (under name ops).countP StackOp.isPush =
        (under name (applyAll empty ops).1).countP StackAnswer.tookCell := by
  rw [(filled_empty.applyAll ops).eq_empty_iff]
  refine forall_congr' fun name => ?_
  obtain ⟨hanswers, hstack⟩ := under_applyAll_empty name ops
  -- What is left of the name is the excess of the pushes, and none only without an excess.
  have hlength := StackOp.length_runAll (under name ops) []
  rw [← hanswers, ← hstack, List.length_nil] at hlength
  rw [← List.length_eq_zero_iff]
  omega

/-! ## Edits -/

variable {r : Registry} {name : Text} {c : Cell} {cs : List Cell}

theorem get?_of_stack (h : r.stack name = c :: cs) : r.get? name = some (c :: cs) := by
  unfold stack at h
  cases hget : r.get? name with
  | none =>
    rw [hget] at h
    cases h
  | some ds =>
    rw [hget] at h
    exact congrArg some h

/-- Putting the top cell in its own place leaves the map. -/
theorem get?_replace_top (h : r.stack name = c :: cs) (other : Text) :
    (r.replace name c).get? other = r.get? other := by
  rw [replace, get?_of_stack h]
  by_cases hname : name = other
  · subst hname
    rw [get?_set_self, get?_of_stack h]
    rfl
  · exact get?_set_of_ne r hname _

theorem apply_edit_of_nil (h : r.stack name = []) (e : Edit) :
    apply r name (.edit e) = (.edited none, r) := by
  have hpeek : NamedStacks.peek r name = none := (peek_eq r name).trans (congrArg List.head? h)
  rw [NamedStacks.apply, hpeek]

theorem apply_edit_of_cons (h : r.stack name = c :: cs) (e : Edit) :
    apply r name (.edit e) = (.edited (some (e.run c)), r.replace name (e.run c).2) := by
  have hpeek : NamedStacks.peek r name = some c := (peek_eq r name).trans (congrArg List.head? h)
  rw [NamedStacks.apply, hpeek]
  rfl

/-- An edit changes the top cell of its name and no other, and if it fails it changes nothing. -/
theorem apply_edit (h : r.stack name = c :: cs) (e : Edit) :
    (apply r name (.edit e)).1 = .edited (some (e.run c)) ∧
      (∀ other, (apply r name (.edit e)).2.stack other =
        if name = other then (e.run c).2 :: cs else r.stack other) ∧
      ∀ err, (e.run c).1 = .failed err →
        ∀ other, (apply r name (.edit e)).2.get? other = r.get? other := by
  have hcells : NamedStacks.stack r name = c :: cs := h
  refine ⟨?_, fun other => ?_, fun err hfailed other => ?_⟩
  · rw [answer_apply, hcells]
    rfl
  · have hafter := stack_apply r name other (.edit e)
    rw [hcells] at hafter
    exact hafter
  · rw [apply_edit_of_cons h, Edit.run_of_failed hfailed]
    exact get?_replace_top h other

/-! ## Independence -/

/-- Whatever is done under whatever names, starting from an empty map: under each name it is
answered as on one stack, of which an edit changes the top cell only, and nothing if it fails or
finds no cell. The map never holds a stack without cells, and is empty exactly when each cell that
was pushed is popped. The bindings of a render answer the same and hold the same stacks. -/
theorem independent_stacks (ops : List (Text × StackOp)) :
    let run := applyAll empty ops
    let r := run.2
    let onBindings := applyAll Bindings.empty ops
    (∀ name, under name run.1 = (StackOp.runAll [] (under name ops)).1 ∧
      r.stack name = (StackOp.runAll [] (under name ops)).2) ∧
    (∀ name e, (r.stack name = [] → apply r name (.edit e) = (.edited none, r)) ∧
      ∀ c cs, r.stack name = c :: cs →
        (apply r name (.edit e)).1 = .edited (some (e.run c)) ∧
        (∀ other, (apply r name (.edit e)).2.stack other =
          if name = other then (e.run c).2 :: cs else r.stack other) ∧
        ∀ err, (e.run c).1 = .failed err →
          ∀ other, (apply r name (.edit e)).2.get? other = r.get? other) ∧
    (∀ name, r.get? name ≠ some []) ∧
    (r = empty ↔ ∀ name, (under name ops).countP StackOp.isPush =
      (under name run.1).countP StackAnswer.tookCell) ∧
    onBindings.1 = run.1 ∧ ∀ name, onBindings.2.stack name = r.stack name := by
  intro run r onBindings
  have hstart : ∀ name, Bindings.empty.stack name = empty.stack name := fun _ => rfl
  have hbindings : onBindings.1 = run.1 ∧ ∀ name, onBindings.2.stack name = r.stack name :=
    applyAll_congr hstart ops
  exact ⟨fun name => under_applyAll_empty name ops,
    fun name e => ⟨fun h => apply_edit_of_nil h e, fun _ _ h => apply_edit h e⟩,
    filled_empty.applyAll ops, applyAll_eq_empty_iff ops, hbindings⟩

/-- A hidden cell comes back as it was, and a failed edit on top of it changes nothing. -/
example :
    let i := ['i']
    let j := ['j']
    let run := applyAll empty [(i, .push ⟨1⟩), (j, .push ⟨2⟩), (i, .push ⟨3⟩),
      (i, .edit (.div none)), (i, .pop), (j, .pop)]
    run.1 = [(i, .pushed), (j, .pushed), (i, .pushed),
        (i, .edited (some (.failed .divisionByZero, ⟨3⟩))), (i, .popped (some ⟨3⟩)),
        (j, .popped (some ⟨2⟩))] ∧
      run.2.entries = [(i, [⟨1⟩])] := by
  decide +kernel

end Registry
end PageTemplate
