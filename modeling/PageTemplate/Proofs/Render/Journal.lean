import PageTemplate.Proofs.Render.Lockstep

/-! Renders with a journal. The page notes down all that a render asks of it. Apart from that the
render is the same, so what the journal tells is what the page was asked. -/
namespace PageTemplate

/-- What a document asks of its page. -/
inductive Call
  | write (s : Text)
  | setMimeType (s : Text)
deriving DecidableEq

variable {ω : Type} [Page ω]

def Call.run : Call → EStateM ContextError ω Unit
  | .write s => Page.write s
  | .setMimeType s => Page.setMimeType s

/-- A page with the calls on it so far, and how each of them failed if it did. -/
structure Journal (ω : Type) where
  page : ω
  entries : List (Call × Option ContextError)

namespace Journal

def perform (call : Call) : EStateM ContextError (Journal ω) Unit
  | ⟨page, entries⟩ =>
    match call.run page with
    | .ok _ page => .ok () ⟨page, entries ++ [(call, none)]⟩
    | .error e page => .error e ⟨page, entries ++ [(call, some e)]⟩

instance : Page (Journal ω) := ⟨fun s => perform (.write s), fun s => perform (.setMimeType s)⟩

/-- A page and its journal, which have something to do with each other. -/
def lockstep (I : List (Call × Option ContextError) → ω → Prop) :
    Lockstep ContextError (Journal ω) ω where
  related j page := j.page = page ∧ I j.entries page
  stopped _ _ _ := False

theorem follows_perform {I : List (Call × Option ContextError) → ω → Prop} {call : Call}
    (h : ∀ entries page, I entries page →
      I (entries ++ [(call, failure? (call.run page))]) (endState (call.run page))) :
    (lockstep I).Follows (perform call) call.run where
  along := by
    rintro ⟨page, entries⟩ _ ⟨rfl, hI⟩
    have hnext := h entries page hI
    unfold perform
    dsimp only
    generalize call.run page = x at hnext ⊢
    cases x with
    | ok a page' => exact .ok ⟨rfl, hnext⟩
    | error e page' => exact .error ⟨rfl, hnext⟩
  stays _ _ _ h := h

end Journal

def Context.withJournal (c : Context ω) : Context (Journal ω) := ⟨c.parameters, c.page, []⟩

/-- What a render asks of its page, in order, and how each call fails if it does. -/
def Document.journal (turns : Nat) (d : Document) (c : Context ω) :
    List (Call × Option ContextError) :=
  (endState (d.render turns c.withJournal)).page.entries

/-- A context without the journal. -/
def Context.erase {ω : Type} (c : Context (Journal ω)) : Context ω := ⟨c.parameters, c.page.page⟩

namespace Document

variable {I : List (Call × Option ContextError) → ω → Prop}

theorem along_journal
    (hcall : ∀ call entries page, I entries page →
      I (entries ++ [(call, failure? (call.run page))]) (endState (call.run page)))
    (turns : Nat) (d : Document) {c : Context ω} (h : I [] c.page) :
    ((Journal.lockstep I).ofPages.ofErrors Halt.ofContext).Along (d.render turns c.withJournal)
      (d.render turns c) := by
  have hserves : (Journal.lockstep I).ofPages.Serves d.builtins :=
    Lockstep.serves_ofPages (fun s => Journal.follows_perform (hcall (.write s)))
      (fun s => Journal.follows_perform (hcall (.setMimeType s))) _
  exact (Lockstep.follows_render d hserves turns).along c.withJournal c ⟨rfl, rfl, h⟩

/-- A property of a page and of the calls on it that every call keeps holds after a render. -/
theorem journal_invariant
    (hcall : ∀ call entries page, I entries page →
      I (entries ++ [(call, failure? (call.run page))]) (endState (call.run page)))
    (turns : Nat) (d : Document) {c : Context ω} (h : I [] c.page) :
    I (d.journal turns c) (endState (d.render turns c)).page := by
  have halong := along_journal hcall turns d h
  unfold journal
  generalize d.render turns c.withJournal = x₁ at halong ⊢
  generalize d.render turns c = x₂ at halong ⊢
  cases halong with
  | ok h => exact h.2.2
  | error h => exact h.2.2
  | stopped h =>
    obtain ⟨_, _, h⟩ := h
    exact h.elim

/-- The journal makes no difference to a render. -/
theorem render_eq_withJournal (turns : Nat) (d : Document) (c : Context ω) :
    d.render turns c = mapResult (fun a _ => a) id Context.erase
      (d.render turns c.withJournal) := by
  have herase : ∀ {c₁ : Context (Journal ω)} {c₂ : Context ω},
      (Journal.lockstep fun _ _ => True).ofPages.related c₁ c₂ → c₂ = c₁.erase := by
    rintro c₁ ⟨p, page⟩ ⟨rfl, rfl, -⟩
    rfl
  have halong := along_journal (I := fun _ _ => True) (fun _ _ _ h => h) turns d (c := c) trivial
  generalize d.render turns c.withJournal = x₁ at halong ⊢
  generalize d.render turns c = x₂ at halong ⊢
  cases halong with
  | ok h => exact congrArg _ (herase h)
  | error h => exact congrArg _ (herase h)
  | stopped h =>
    obtain ⟨_, _, h⟩ := h
    exact h.elim

end Document
end PageTemplate
