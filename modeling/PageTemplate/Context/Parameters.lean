import PageTemplate.Text.Space

/-! Named parameters. A map has one value for each of its names and keeps them in the order
in which they first came. Request parameters are only read; the persistent and the temporary
ones can be changed by a template. -/
namespace PageTemplate

structure ParameterMap where
  entries : List (Text × Text)
  nodup : (entries.map (·.1)).Nodup
deriving DecidableEq

namespace ParameterMap

@[ext] theorem ext {m n : ParameterMap} (h : m.entries = n.entries) : m = n := by
  cases m
  cases n
  simp_all

def empty : ParameterMap := ⟨[], by simp⟩

instance : Inhabited ParameterMap := ⟨empty⟩

def names (m : ParameterMap) : List Text := m.entries.map (·.1)

def get? (m : ParameterMap) (name : Text) : Option Text :=
  (m.entries.find? (·.1 = name)).map (·.2)

/-- Gives one entry another value if it has the name. -/
def assign (name value : Text) (e : Text × Text) : Text × Text :=
  if e.1 = name then (name, value) else e

theorem assign_fst (name value : Text) (e : Text × Text) : (assign name value e).1 = e.1 := by
  unfold assign
  split <;> simp_all

def insert (m : ParameterMap) (name value : Text) : ParameterMap :=
  if h : name ∈ m.names then
    ⟨m.entries.map (assign name value), by
      simpa [Function.comp_def, assign_fst] using m.nodup⟩
  else
    ⟨m.entries ++ [(name, value)], by
      simp only [List.map_append, List.map_cons, List.map_nil]
      exact List.nodup_append.2 ⟨m.nodup, by simp, by
        intro a ha b hb hab
        simp only [List.mem_singleton] at hb
        subst hab hb
        exact h ha⟩⟩

def erase (m : ParameterMap) (name : Text) : ParameterMap :=
  ⟨m.entries.filter (·.1 ≠ name), m.nodup.sublist (List.filter_sublist.map _)⟩

/-- Inserts pairs in order, so that of several with one name the last counts. -/
def insertAll (m : ParameterMap) (pairs : List (Text × Text)) : ParameterMap :=
  pairs.foldl (fun m p => m.insert p.1 p.2) m

def ofList (pairs : List (Text × Text)) : ParameterMap := empty.insertAll pairs

theorem get?_empty (name : Text) : empty.get? name = none := rfl

theorem get?_insert_self (m : ParameterMap) (name value : Text) :
    (m.insert name value).get? name = some value := by
  unfold insert
  split
  · rename_i h
    obtain ⟨⟨k, v⟩, he, rfl⟩ := List.mem_map.1 h
    have hm : assign k value (k, v) ∈ m.entries.map (assign k value) :=
      List.mem_map.2 ⟨_, he, rfl⟩
    cases hf : (m.entries.map (assign k value)).find? (·.1 = k) with
    | none =>
      have := List.find?_eq_none.1 hf _ hm
      simp [assign] at this
    | some e =>
      obtain ⟨e', he', rfl⟩ := List.mem_map.1 (List.mem_of_find?_eq_some hf)
      have hk : (assign k value e').1 = k := by simpa using List.find?_some hf
      rw [assign_fst] at hk
      simp [get?, hf, assign, hk]
  · rename_i h
    have hf : m.entries.find? (·.1 = name) = none := by
      rw [List.find?_eq_none]
      intro e he hn
      exact h (List.mem_map.2 ⟨e, he, by simpa using hn⟩)
    simp [get?, List.find?_append, hf]

theorem find?_assign_of_ne {name other : Text} (value : Text) (h : name ≠ other)
    (es : List (Text × Text)) :
    (es.map (assign name value)).find? (·.1 = other) = es.find? (·.1 = other) := by
  induction es with
  | nil => rfl
  | cons e es ih =>
    rw [List.map_cons, List.find?_cons, List.find?_cons, assign_fst, ih]
    by_cases ho : e.1 = other
    · have he : e.1 ≠ name := fun he => h (he.symm.trans ho)
      simp [assign, he]
    · simp [ho]

theorem get?_insert_of_ne (m : ParameterMap) {name other : Text} (value : Text)
    (h : name ≠ other) : (m.insert name value).get? other = m.get? other := by
  unfold insert
  split
  · simp only [get?, find?_assign_of_ne value h]
  · simp [get?, List.find?_append, h]

theorem get?_erase_self (m : ParameterMap) (name : Text) : (m.erase name).get? name = none := by
  simp only [get?, Option.map_eq_none_iff, List.find?_eq_none]
  intro e he
  simpa using (List.mem_filter.1 he).2

theorem get?_erase_of_ne (m : ParameterMap) {name other : Text} (h : name ≠ other) :
    (m.erase name).get? other = m.get? other := by
  obtain ⟨es, hes⟩ := m
  simp only [get?, erase]
  clear hes
  induction es with
  | nil => rfl
  | cons e es ih =>
    by_cases he : e.1 = name
    · have ho : e.1 ≠ other := he ▸ h
      simpa [he, ho, h] using ih
    · by_cases ho : e.1 = other
      · simp [ho, Ne.symm h]
      · simpa [he, ho] using ih

end ParameterMap

/-- The parameters that a template can change. -/
inductive Store
  | persistent
  | temporary
deriving DecidableEq

structure Parameters where
  request : ParameterMap
  persistent : ParameterMap
  temporary : ParameterMap
deriving DecidableEq

namespace Parameters

def store (p : Parameters) : Store → ParameterMap
  | .persistent => p.persistent
  | .temporary => p.temporary

def setStore (p : Parameters) (s : Store) (m : ParameterMap) : Parameters :=
  match s with
  | .persistent => { p with persistent := m }
  | .temporary => { p with temporary := m }

@[simp] theorem request_setStore (p : Parameters) (s : Store) (m : ParameterMap) :
    (p.setStore s m).request = p.request := by
  cases s <;> rfl

@[simp] theorem store_setStore (p : Parameters) (s t : Store) (m : ParameterMap) :
    (p.setStore s m).store t = if s = t then m else p.store t := by
  cases s <;> cases t <;> rfl

end Parameters
end PageTemplate
