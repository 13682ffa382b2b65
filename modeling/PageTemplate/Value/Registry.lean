import PageTemplate.Value.NamedStacks

/-! Bindings as a map from names to stacks. A name comes into the map with its first cell and goes
with its last one. -/
namespace PageTemplate

/-- The names in the map, each with its stack, the top first. -/
structure Registry where
  entries : List (Text × List Cell)
  nodup : (entries.map (·.1)).Nodup
deriving DecidableEq

namespace Registry

def empty : Registry := ⟨[], List.nodup_nil⟩

def get? (r : Registry) (name : Text) : Option (List Cell) :=
  (r.entries.find? (·.1 = name)).map (·.2)

/-- Puts a stack, or none, in the place of what the map has for a name. -/
def set (r : Registry) (name : Text) (cs? : Option (List Cell)) : Registry where
  entries := (cs?.map (name, ·)).toList ++ r.entries.filter (·.1 ≠ name)
  nodup := by
    have hrest : ((r.entries.filter (·.1 ≠ name)).map (·.1)).Nodup :=
      r.nodup.sublist (List.filter_sublist.map _)
    cases cs? with
    | none => exact hrest
    | some cs =>
      refine List.nodup_cons.2 ⟨fun h => ?_, hrest⟩
      obtain ⟨e, he, hname⟩ := List.mem_map.1 h
      simpa [hname] using (List.mem_filter.1 he).2

theorem get?_set_self (r : Registry) (name : Text) (cs? : Option (List Cell)) :
    (r.set name cs?).get? name = cs? := by
  cases cs? <;> simp [get?, set, List.find?_filter]

theorem get?_set_of_ne (r : Registry) {name other : Text} (h : name ≠ other)
    (cs? : Option (List Cell)) : (r.set name cs?).get? other = r.get? other := by
  have hrest : (r.entries.filter (·.1 ≠ name)).find? (·.1 = other) =
      r.entries.find? (·.1 = other) := by
    rw [List.find?_filter]
    congr 1
    funext e
    by_cases he : e.1 = other <;> simp [he, Ne.symm h]
  cases cs? with
  | none => exact congrArg (Option.map (·.2)) hrest
  | some cs =>
    simp only [get?, set, Option.map_some, Option.toList_some, List.singleton_append,
      List.find?_cons, h, decide_false, hrest]

/-! ## Stacks -/

/-- The cells of a name, none if it is not in the map. -/
def stack (r : Registry) (name : Text) : List Cell := (r.get? name).getD []

/-- Pushes a cell on the stack of a name, on a new one if the name is not in the map. -/
def push (r : Registry) (name : Text) (c : Cell) : Registry :=
  r.set name (some (c :: (r.get? name).getD []))

/-- A stack as it stands in the map, if it has cells. -/
def ofStack : List Cell → Option (List Cell)
  | [] => none
  | c :: cs => some (c :: cs)

/-- Drops the top cell of a name, and the name with its last one. -/
def pop (r : Registry) (name : Text) : Registry :=
  r.set name ((r.get? name).bind fun cs => ofStack cs.tail)

def peek (r : Registry) (name : Text) : Option Cell := (r.get? name).bind List.head?

/-- Puts a cell in the place of the top one of a name. -/
def replace (r : Registry) (name : Text) (c : Cell) : Registry :=
  r.set name ((r.get? name).map fun cs => cs.modifyHead fun _ => c)

theorem stack_set (r : Registry) (name other : Text) (cs? : Option (List Cell)) :
    (r.set name cs?).stack other = if name = other then cs?.getD [] else r.stack other := by
  unfold stack
  by_cases h : name = other
  · subst h
    rw [if_pos rfl, get?_set_self]
  · rw [if_neg h, get?_set_of_ne r h]

theorem getD_ofStack (cs : List Cell) : (ofStack cs).getD [] = cs := by
  cases cs <;> rfl

theorem ofStack_ne_nil (cs : List Cell) : ofStack cs ≠ some [] := by
  cases cs <;> exact nofun

instance : NamedStacks Registry where
  stack := stack
  push := push
  pop := pop
  peek := peek
  replace := replace
  peek_eq r name := by
    unfold peek stack
    cases r.get? name <;> rfl
  stack_push r name other c := stack_set r name other _
  stack_pop r name other := by
    have htail : ((r.get? name).bind fun cs => ofStack cs.tail).getD [] = (r.stack name).tail := by
      unfold stack
      cases r.get? name with
      | none => rfl
      | some cs => exact getD_ofStack cs.tail
    rw [pop, stack_set, htail]
  stack_replace r name other c := by
    have hhead : ((r.get? name).map fun cs => cs.modifyHead fun _ => c).getD [] =
        (r.stack name).modifyHead fun _ => c := by
      unfold stack
      cases r.get? name <;> rfl
    rw [replace, stack_set, hhead]

end Registry
end PageTemplate
