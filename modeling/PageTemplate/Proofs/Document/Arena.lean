import PageTemplate.Document.Arena
import PageTemplate.Proofs.Document.Writable

/-! Reading into an arena. The nodes of the containers that are open stand in the arena one after
the other, the root first, each container with what is in it so far. So an arena is built node by
node as a document is, and no leaf is ever open. -/
namespace PageTemplate

/-! ## A document that is not finished -/

/-- The innermost open container. -/
def container (children : List Nat) : List OpenLoop → ArenaNode
  | [] => .document children
  | l :: _ => .loop l.head children

/-- The nodes before the innermost open container. -/
def prior : List OpenLoop → Arena
  | [] => []
  | l :: ls =>
    let k := (prior ls).length + 1
    prior ls ++
      container (l.before.reverse.places k ++ [k + l.before.size]) ls :: l.before.reverse.nodesFrom k

/-- Where the nodes of the innermost open container begin. -/
def firstPlace (ls : List OpenLoop) : Nat := (prior ls).length + 1

/-- The places of the open containers, the innermost first. -/
def openPlaces : List OpenLoop → List Nat
  | [] => [0]
  | l :: ls => (prior (l :: ls)).length :: openPlaces ls

/-- A document that is not finished, as an arena. -/
def Builder.inArena (b : Builder) : ArenaBuilder where
  nodes := prior b.loops ++ container (b.current.reverse.places (firstPlace b.loops)) b.loops ::
    b.current.reverse.nodesFrom (firstPlace b.loops)
  opened := openPlaces b.loops

theorem prior_cons (l : OpenLoop) (ls : List OpenLoop) :
    prior (l :: ls) = prior ls ++
      container (l.before.reverse.places (firstPlace ls) ++ [firstPlace ls + l.before.size]) ls ::
        l.before.reverse.nodesFrom (firstPlace ls) :=
  rfl

theorem length_prior_cons (l : OpenLoop) (ls : List OpenLoop) :
    (prior (l :: ls)).length = firstPlace ls + l.before.size := by
  simp only [prior_cons, List.length_append, List.length_cons, Document.length_nodesFrom,
    Document.size_reverse, firstPlace]
  omega

theorem firstPlace_cons (l : OpenLoop) (ls : List OpenLoop) :
    firstPlace (l :: ls) = firstPlace ls + l.before.size + 1 := by
  rw [firstPlace, length_prior_cons]

theorem openPlaces_eq (ls : List OpenLoop) :
    openPlaces ls = (prior ls).length :: (openPlaces ls).tail := by
  cases ls <;> rfl

theorem length_openPlaces (ls : List OpenLoop) : (openPlaces ls).length = ls.length + 1 := by
  induction ls with
  | nil => rfl
  | cons l ls ih => simp [openPlaces, ih]

theorem addChild?_container (i : Nat) (children : List Nat) (ls : List OpenLoop) :
    (container children ls).addChild? i = some (container (children ++ [i]) ls) := by
  cases ls <;> rfl

theorem Arena.append?_container (a : Arena) (children : List Nat) (ls : List OpenLoop)
    (rest : Arena) (n : ArenaNode) :
    Arena.append? (a ++ container children ls :: rest) a.length n =
      some (a ++ container (children ++ [a.length + 1 + rest.length]) ls :: (rest ++ [n])) := by
  have hlength : (a ++ container children ls :: rest).length = a.length + 1 + rest.length := by
    simp
    omega
  have hget : (a ++ container children ls :: rest)[a.length]? = some (container children ls) := by
    simp
  rw [append?, hget, Option.bind_eq_bind, Option.bind_some, addChild?_container, hlength]
  simp

namespace Builder

variable (b : Builder)

/-- A node is added as the last in the innermost open container. -/
theorem append_inArena (n : ArenaNode) :
    b.inArena.append n = .ok
      { nodes := prior b.loops ++
          container (b.current.reverse.places (firstPlace b.loops) ++
            [firstPlace b.loops + b.current.size]) b.loops ::
          (b.current.reverse.nodesFrom (firstPlace b.loops) ++ [n])
        opened := openPlaces b.loops } := by
  have hhead : b.inArena.opened.headD 0 = (prior b.loops).length := by
    rw [inArena, openPlaces_eq]
    rfl
  rw [ArenaBuilder.append, hhead]
  simp only [inArena]
  rw [Arena.append?_container]
  simp [firstPlace]

theorem text_inArena (s : Text) :
    b.inArena.append (.text s) = .ok (inArena { b with current := .text s b.current }) := by
  rw [append_inArena]
  simp [inArena, Document.places_append, Document.nodesFrom_append, Document.places,
    Document.nodesFrom]

theorem echo_inArena (es : List Element) :
    b.inArena.append (.echo es) = .ok (inArena { b with current := .echo es b.current }) := by
  rw [append_inArena]
  simp [inArena, Document.places_append, Document.nodesFrom_append, Document.places,
    Document.nodesFrom]

theorem length_inArena : b.inArena.nodes.length = firstPlace b.loops + b.current.size := by
  simp only [inArena, List.length_append, List.length_cons, Document.length_nodesFrom,
    Document.size_reverse, firstPlace]
  omega

theorem openLoop_inArena (head : LoopHead) :
    b.inArena.openLoop head = .ok (b.openLoop head).inArena := by
  have hplace : b.inArena.nodes.length = (prior (b.openLoop head).loops).length := by
    rw [length_inArena, openLoop, length_prior_cons]
  rw [ArenaBuilder.openLoop, append_inArena, hplace]
  simp [inArena, openLoop, prior_cons, openPlaces, container, Document.places,
    Document.nodesFrom, bind, Except.bind, pure, Except.pure]

theorem closeLoop_inArena :
    b.inArena.closeLoop = (b.closeLoop.map inArena).mapError .parse := by
  obtain ⟨current, loops⟩ := b
  cases loops with
  | nil => rfl
  | cons l ls =>
    have htail : (inArena ⟨current, l :: ls⟩).opened.tail = openPlaces ls := rfl
    have hne : openPlaces ls ≠ [] := by
      rw [openPlaces_eq]
      exact List.cons_ne_nil _ _
    rw [ArenaBuilder.closeLoop, htail, if_neg hne]
    simp [inArena, closeLoop, Except.map, Except.mapError, prior_cons, firstPlace_cons, container,
      Document.places_append, Document.nodesFrom_append, Document.places, Document.nodesFrom]

/-! ## Runs -/

variable {b}

/-- The arena and the document take a tag alike, or refuse it with one error. -/
theorem addTag_inArena (body : Text) :
    b.inArena.addTag body = ((b.addTag body).map inArena).mapError .parse := by
  rw [ArenaBuilder.addTag, addTag]
  cases TagForm.ofChunks (Chunk.split body) with
  | echo chunks =>
    dsimp only
    cases readElements chunks with
    | error e => rfl
    | ok es => exact b.echo_inArena es
  | opening arguments =>
    have hopened : b.inArena.opened.length = b.loops.length + 1 := length_openPlaces b.loops
    by_cases hloops : depthLimit ≤ b.loops.length
    · simp only [if_pos hloops, if_pos (show depthLimit < b.inArena.opened.length by omega)]
      rfl
    · simp only [if_neg hloops, if_neg (show ¬depthLimit < b.inArena.opened.length by omega)]
      cases LoopHead.ofArguments arguments with
      | error e => rfl
      | ok head => exact b.openLoop_inArena head
  | closing => exact b.closeLoop_inArena
  | unknown => rfl

theorem add_inArena (t : Token) :
    b.inArena.add t = ((b.add t).map inArena).mapError .parse := by
  cases t with
  | text s => exact b.text_inArena s
  | tag body => exact addTag_inArena body

theorem addAll_inArena (ts : List Token) :
    b.inArena.addAll ts = ((b.addAll ts).map inArena).mapError .parse := by
  induction ts generalizing b with
  | nil => rfl
  | cons t ts ih =>
    rw [ArenaBuilder.addAll, add_inArena, addAll_cons]
    cases b.add t with
    | error e => rfl
    | ok c => exact ih

theorem finish_inArena : b.inArena.finish = (b.finish.map Document.arena).mapError .parse := by
  have hopened : b.inArena.opened.length = b.loops.length + 1 := length_openPlaces b.loops
  rw [ArenaBuilder.finish, finish, hopened]
  obtain ⟨current, loops⟩ := b
  cases loops with
  | nil => rfl
  | cons l ls => rfl

end Builder

theorem parseArena_run (source : Text) :
    parseArena source = (ArenaBuilder.empty.addAll (scan source).tokens).bind fun b =>
      match (scan source).fault with
      | some fault => .error (.parse (.scan fault))
      | none => b.finish :=
  rfl

/-- A template is read into the arena of the document that it is read as. -/
theorem parseArena_eq (source : Text) :
    parseArena source = ((parse source).map Document.arena).mapError .parse := by
  have hrun : ArenaBuilder.empty.addAll (scan source).tokens = _ :=
    Builder.addAll_inArena (b := .empty) (scan source).tokens
  rw [parseArena_run, parse_eq, hrun]
  cases Builder.empty.addAll (scan source).tokens with
  | error e => rfl
  | ok b =>
    cases (scan source).fault with
    | some e => rfl
    | none => exact Builder.finish_inArena

/-! ## The document in an arena -/

namespace Document

/-- Nodes that stand in an arena with the same places on the top level are the same nodes. -/
theorem nodesFrom_append_inj {d e : Document} {k : Nat} {ns ms : Arena}
    (hplaces : d.places k = e.places k) (h : d.nodesFrom k ++ ns = e.nodesFrom k ++ ms) :
    d = e ∧ ns = ms := by
  induction d generalizing e k ns ms with
  | nil =>
    cases e with
    | nil => exact ⟨rfl, h⟩
    | text s' rest' => cases hplaces
    | echo es' rest' => cases hplaces
    | loop head' inner' rest' => cases hplaces
  | text s rest ih =>
    cases e with
    | nil => cases hplaces
    | text s' rest' =>
      obtain ⟨hnode, hlater⟩ := List.cons.inj h
      cases hnode
      obtain ⟨rfl, rfl⟩ := ih (List.cons.inj hplaces).2 hlater
      exact ⟨rfl, rfl⟩
    | echo es' rest' => cases (List.cons.inj h).1
    | loop head' inner' rest' => cases (List.cons.inj h).1
  | echo es rest ih =>
    cases e with
    | nil => cases hplaces
    | text s' rest' => cases (List.cons.inj h).1
    | echo es' rest' =>
      obtain ⟨hnode, hlater⟩ := List.cons.inj h
      cases hnode
      obtain ⟨rfl, rfl⟩ := ih (List.cons.inj hplaces).2 hlater
      exact ⟨rfl, rfl⟩
    | loop head' inner' rest' => cases (List.cons.inj h).1
  | loop head inner rest ihi ihr =>
    cases e with
    | nil => cases hplaces
    | text s' rest' => cases (List.cons.inj h).1
    | echo es' rest' => cases (List.cons.inj h).1
    | loop head' inner' rest' =>
      simp only [nodesFrom, List.cons_append, List.append_assoc, List.cons.injEq,
        ArenaNode.loop.injEq] at h
      obtain ⟨⟨rfl, hinner⟩, h⟩ := h
      -- the inner nodes come first, and say where the later ones stand
      obtain ⟨rfl, hrest⟩ := ihi hinner h
      obtain ⟨rfl, rfl⟩ := ihr (List.cons.inj hplaces).2 hrest
      exact ⟨rfl, rfl⟩

/-- No two documents have one arena. -/
theorem arena_injective : Function.Injective arena := by
  intro d e h
  obtain ⟨hroot, h⟩ := List.cons.inj h
  exact (nodesFrom_append_inj (ArenaNode.document.inj hroot) (congrArg (· ++ []) h)).1

end Document

end PageTemplate
