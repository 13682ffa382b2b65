import PageTemplate.Context.Capture
import PageTemplate.Proofs.Render.Lockstep

/-! Parameters that a document has nothing to do with. A document without a function for one of
the three maps of parameters does not depend on that map and leaves it alone. No document changes
the request parameters. -/
namespace PageTemplate

/-! ## Scopes -/

/-- One of the maps of parameters. -/
inductive Scope
  | request
  | stored (s : Store)
deriving DecidableEq

def Parameters.scope (p : Parameters) : Scope → ParameterMap
  | .request => p.request
  | .stored s => p.store s

/-- The names of the functions for a map. -/
def Scope.functions : Scope → List Text
  | .request => ["paramGet".toList]
  | .stored .persistent => ["pparamGet".toList, "pparamSet".toList, "pparamDel".toList]
  | .stored .temporary => ["tparamGet".toList, "tparamSet".toList, "tparamDel".toList]

/-- The name that a function is called by. -/
def Element.function? : Element → Option Text
  | .fn name => some name
  | _ => none

/-- The names of the functions that occur in a document. -/
def Document.functions : Document → List Text
  | .nil => []
  | .text _ rest => rest.functions
  | .echo es rest => es.filterMap Element.function? ++ rest.functions
  | .loop _ inner rest => inner.functions ++ rest.functions

/-- No function for a map of parameters occurs in a document. -/
def Document.Avoids (d : Document) (s : Scope) : Prop := ∀ name ∈ d.functions, name ∉ s.functions

/-- The map that a function reads or changes. -/
def Builtin.scope? : Builtin → Option Scope
  | .getRequest => some .request
  | .getStored s => some (.stored s)
  | .setStored s => some (.stored s)
  | .deleteStored s => some (.stored s)
  | _ => none

theorem Builtin.name_mem_of_scope? {f : Builtin} {s : Scope} (h : f.scope? = some s) :
    f.name ∈ s.functions := by
  cases f with
  | getRequest =>
    cases h
    decide
  | getStored t =>
    cases h
    cases t <;> decide
  | setStored t =>
    cases h
    cases t <;> decide
  | deleteStored t =>
    cases h
    cases t <;> decide
  | _ => cases h

theorem Document.name_mem_of_builtin {d : Document} {f : Builtin} (h : f ∈ d.builtins) :
    f.name ∈ d.functions := by
  induction d with
  | nil => cases h
  | text s rest ih => exact ih h
  | echo es rest ih =>
    rcases List.mem_append.1 h with h | h
    · obtain ⟨e, he, hf⟩ := List.mem_flatMap.1 h
      refine List.mem_append_left _ (List.mem_filterMap.2 ⟨e, he, ?_⟩)
      cases e with
      | fn name =>
        rw [Builtin.name_of_ofName? (Option.mem_toList.1 hf)]
        rfl
      | _ => cases hf
    · exact List.mem_append_right _ (ih h)
  | loop head inner rest ihi ihr =>
    rcases List.mem_append.1 h with h | h
    · exact List.mem_append_left _ (ihi h)
    · exact List.mem_append_right _ (ihr h)

theorem Document.Avoids.scope? {d : Document} {s : Scope} (h : d.Avoids s) :
    ∀ f ∈ d.builtins, f.scope? ≠ some s :=
  fun _ hf hs => h _ (name_mem_of_builtin hf) (Builtin.name_mem_of_scope? hs)

theorem Parameters.scope_setStore (p : Parameters) (s : Store) (m : ParameterMap) (t : Scope) :
    (p.setStore s m).scope t = if t = .stored s then m else p.scope t := by
  cases t with
  | request => simp [scope]
  | stored t => simp [scope, eq_comm]

namespace Context

variable {ω : Type}

/-- Contexts with the same page and the same parameters but for one map of them. -/
def SameBut (s : Scope) (c₁ c₂ : Context ω) : Prop :=
  c₁.page = c₂.page ∧ ∀ t, t ≠ s → c₁.parameters.scope t = c₂.parameters.scope t

variable {s : Scope} {c₁ c₂ : Context ω}

theorem SameBut.scope (h : SameBut s c₁ c₂) {t : Scope} (ht : some t ≠ some s) :
    c₁.parameters.scope t = c₂.parameters.scope t := h.2 t fun he => ht (congrArg some he)

theorem SameBut.set (h : SameBut s c₁ c₂) {t : Store} (ht : some (Scope.stored t) ≠ some s)
    (name value : Text) : SameBut s (c₁.set t name value) (c₂.set t name value) := by
  refine ⟨h.1, fun u hu => ?_⟩
  have hstore : c₁.parameters.store t = c₂.parameters.store t := h.scope ht
  unfold Context.set
  rw [Parameters.scope_setStore, Parameters.scope_setStore, hstore, h.2 u hu]

theorem SameBut.delete (h : SameBut s c₁ c₂) {t : Store} (ht : some (Scope.stored t) ≠ some s)
    (name : Text) : SameBut s (c₁.delete t name) (c₂.delete t name) := by
  refine ⟨h.1, fun u hu => ?_⟩
  have hstore : c₁.parameters.store t = c₂.parameters.store t := h.scope ht
  unfold Context.delete
  rw [Parameters.scope_setStore, Parameters.scope_setStore, hstore, h.2 u hu]

theorem request?_congr (h : c₁.parameters.request = c₂.parameters.request) :
    c₁.request? = c₂.request? := by
  unfold request?
  rw [h]

theorem get?_congr {t : Store} (h : c₁.parameters.store t = c₂.parameters.store t) :
    c₁.get? t = c₂.get? t := by
  unfold get?
  rw [h]

theorem scope_set_of_ne {t : Store} (ht : some (Scope.stored t) ≠ some s) (c : Context ω)
    (name value : Text) : (c.set t name value).parameters.scope s = c.parameters.scope s := by
  unfold Context.set
  rw [Parameters.scope_setStore, if_neg fun he => ht (congrArg some he.symm)]

theorem scope_delete_of_ne {t : Store} (ht : some (Scope.stored t) ≠ some s) (c : Context ω)
    (name : Text) : (c.delete t name).parameters.scope s = c.parameters.scope s := by
  unfold Context.delete
  rw [Parameters.scope_setStore, if_neg fun he => ht (congrArg some he.symm)]

end Context

/-! ## Two renders -/

/-- Contexts that are the same but for one map of parameters, where each keeps its own. -/
def isolation {ω : Type} (s : Scope) (m₁ m₂ : ParameterMap) :
    Lockstep ContextError (Context ω) (Context ω) where
  related c₁ c₂ :=
    Context.SameBut s c₁ c₂ ∧ c₁.parameters.scope s = m₁ ∧ c₂.parameters.scope s = m₂
  stopped _ _ _ := False

section Isolation

variable {ω : Type} {s : Scope} {m₁ m₂ : ParameterMap}

theorem follows_onPage_isolation (m : EStateM ContextError ω Unit) :
    (isolation s m₁ m₂).Follows (Context.onPage m) (Context.onPage m) where
  along c₁ c₂ hc := by
    obtain ⟨⟨hpage, hsame⟩, hm₁, hm₂⟩ := hc
    rw [Context.onPage_eq, Context.onPage_eq, hpage]
    cases m c₂.page with
    | ok a page => exact .ok ⟨⟨rfl, hsame⟩, hm₁, hm₂⟩
    | error e page => exact .error ⟨⟨rfl, hsame⟩, hm₁, hm₂⟩
  stays _ _ _ h := h

variable [Page ω]

/-- A function for other parameters follows. -/
theorem follows_builtin_of_scope? {f : Builtin} (h : f.scope? ≠ some s) :
    (isolation s m₁ m₂).evaluation.Follows (f.run : Eval ω Unit) (f.run : Eval ω Unit) := by
  cases f with
  | setMimeType => exact Lockstep.follows_setMimeType fun t => follows_onPage_isolation _
  | getRequest =>
    refine Lockstep.follows_getWith _ fun c₁ c₂ hc => ?_
    exact Context.request?_congr (hc.1.scope h)
  | getStored t =>
    exact Lockstep.follows_getWith (.getStored t)
      fun c₁ c₂ (hc : (isolation s m₁ m₂).related c₁ c₂) => Context.get?_congr (hc.1.scope h)
  | setStored t =>
    refine (Lockstep.follows_popTwo _).bind fun ⟨key, value⟩ => ?_
    refine Lockstep.follows_change (fun c₁ c₂ hc => ?_) fun _ _ _ h => h
    obtain ⟨hsame, hm₁, hm₂⟩ := hc
    exact ⟨hsame.set h _ _, (Context.scope_set_of_ne h c₁ _ _).trans hm₁,
      (Context.scope_set_of_ne h c₂ _ _).trans hm₂⟩
  | deleteStored t =>
    refine (Lockstep.follows_pop _).bind fun key => ?_
    refine Lockstep.follows_change (fun c₁ c₂ hc => ?_) fun _ _ _ h => h
    obtain ⟨hsame, hm₁, hm₂⟩ := hc
    exact ⟨hsame.delete h _, (Context.scope_delete_of_ne h c₁ _).trans hm₁,
      (Context.scope_delete_of_ne h c₂ _).trans hm₂⟩
  | _ => exact Lockstep.follows_of_not_usesContext rfl

/-- Nothing changes the request parameters, and to look one up in the same map is to find the
same. -/
theorem follows_builtin_request (m : ParameterMap) (f : Builtin) :
    (isolation .request m m).evaluation.Follows (f.run : Eval ω Unit) (f.run : Eval ω Unit) := by
  cases f with
  | getRequest =>
    refine Lockstep.follows_getWith _ fun c₁ c₂ hc => ?_
    exact Context.request?_congr (hc.2.1.trans hc.2.2.symm)
  | _ => exact follows_builtin_of_scope? (by simp [Builtin.scope?])

/-- How two renders in isolation end. -/
theorem ends_of_isolation {d : Document} (h : (isolation (ω := ω) s m₁ m₂).Serves d.builtins)
    (turns : Nat) {c₁ c₂ : Context ω} (hc : (isolation s m₁ m₂).related c₁ c₂) :
    failure? (d.render turns c₁) = failure? (d.render turns c₂) ∧
      (isolation s m₁ m₂).related (endState (d.render turns c₁))
        (endState (d.render turns c₂)) := by
  have halong := (Lockstep.follows_render d h turns).along c₁ c₂ hc
  generalize d.render turns c₁ = x at halong ⊢
  generalize d.render turns c₂ = y at halong ⊢
  cases halong with
  | ok hr => exact ⟨rfl, hr⟩
  | error hr => exact ⟨rfl, hr⟩
  | stopped hs =>
    obtain ⟨_, _, hs⟩ := hs
    exact hs.elim

end Isolation

/-- The maps of parameters do not leak into each other. If no function for one of them occurs in a
document, contexts that are the same but for that map render it alike, and each keeps its own map.
The request parameters stay as they are whatever the document. -/
theorem render_isolated {ω : Type} [Page ω] (turns : Nat) (d : Document) :
    (∀ s, d.Avoids s → ∀ c₁ c₂ : Context ω, c₁.SameBut s c₂ →
      let x := d.render turns c₁
      let y := d.render turns c₂
      failure? x = failure? y ∧ (endState x).SameBut s (endState y) ∧
        (endState x).parameters.scope s = c₁.parameters.scope s ∧
        (endState y).parameters.scope s = c₂.parameters.scope s) ∧
    ∀ c : Context ω, (endState (d.render turns c)).parameters.request = c.parameters.request := by
  constructor
  · intro s hd c₁ c₂ hc x y
    have hserves : (isolation (ω := ω) s (c₁.parameters.scope s) (c₂.parameters.scope s)).Serves
        d.builtins :=
      ⟨fun t => follows_onPage_isolation _, fun f hf => follows_builtin_of_scope? (hd.scope? f hf)⟩
    exact ends_of_isolation hserves turns ⟨hc, rfl, rfl⟩
  · intro c
    have hserves : (isolation (ω := ω) .request c.parameters.request c.parameters.request).Serves
        d.builtins :=
      ⟨fun t => follows_onPage_isolation _, fun f _ => follows_builtin_request _ f⟩
    have hrelated : (isolation (ω := ω) .request c.parameters.request
        c.parameters.request).related c c := ⟨⟨rfl, fun _ _ => rfl⟩, rfl, rfl⟩
    exact (ends_of_isolation hserves turns hrelated).2.2.1

/-- A document that sets a temporary parameter and reads a request parameter does not depend on the
persistent ones. -/
theorem render_isolated_persistent :
    let d : Document := .echo [.operand (.const (.str ['n'])), .operand (.const (.str ['v'])),
      .fn "tparamSet".toList, .operand (.const (.str ['n'])), .operand (.const (.str ['-'])),
      .fn "paramGet".toList] .nil
    let c₁ : Context Capture := ⟨⟨.empty, .empty, .empty⟩, .empty⟩
    let c₂ : Context Capture := ⟨⟨.empty, .ofList [(['n'], ['x'])], .empty⟩, .empty⟩
    d.Avoids (.stored .persistent) ∧ c₁.SameBut (.stored .persistent) c₂ ∧
      c₁.parameters.persistent ≠ c₂.parameters.persistent ∧
      failure? (d.render 1 c₁) = failure? (d.render 1 c₂) ∧
      (endState (d.render 1 c₁)).SameBut (.stored .persistent) (endState (d.render 1 c₂)) ∧
      (endState (d.render 1 c₁)).parameters.persistent = .empty ∧
      (endState (d.render 1 c₂)).parameters.persistent = .ofList [(['n'], ['x'])] := by
  intro d c₁ c₂
  have havoids : d.Avoids (.stored .persistent) := by
    show ∀ name ∈ d.functions, name ∉ Scope.functions (.stored .persistent)
    decide
  have hsame : c₁.SameBut (.stored .persistent) c₂ := by
    refine ⟨rfl, fun t ht => ?_⟩
    match t with
    | .request => rfl
    | .stored .temporary => rfl
    | .stored .persistent => exact absurd rfl ht
  exact ⟨havoids, hsame, by decide, (render_isolated 1 d).1 _ havoids c₁ c₂ hsame⟩

end PageTemplate
