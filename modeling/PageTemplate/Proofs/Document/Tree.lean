import PageTemplate.Proofs.Document.Acceptance
import PageTemplate.Proofs.Document.Arena
import PageTemplate.Proofs.Document.Walk

/-! An arena is a tree. A walk from the root, depth first and in order, meets the places one after
the other, each of them once, after every token that is read. So no node is shared, none is missed
and none is below itself. -/
namespace PageTemplate

namespace Arena

/-- The places met on a walk from some nodes, depth first and in order. -/
inductive Lists (a : Arena) : List Nat → List Nat → Prop
  | nil : Lists a [] []
  | cons {i : Nat} {n : ArenaNode} {is js ks : List Nat} (hn : a[i]? = some n)
    (hchildren : Lists a n.children js) (hrest : Lists a is ks) :
    Lists a (i :: is) (i :: (js ++ ks))

/-- A node and one of its children. -/
def IsChild (a : Arena) (p i : Nat) : Prop := ∃ n, a[p]? = some n ∧ i ∈ n.children

/-- A loop and the node that it is the last child of. -/
def IsLastLoop (a : Arena) (j i : Nat) : Prop :=
  (∃ head is, a[j]? = some (.loop head is)) ∧ ∃ n, a[i]? = some n ∧ n.children.getLast? = some j

/-- Loops each of which is a child of the one before. -/
inductive LoopPath (a : Arena) : List Nat → Prop
  | last {i : Nat} {head : LoopHead} {is : List Nat} (h : a[i]? = some (.loop head is)) :
    LoopPath a [i]
  | step {i j : Nat} {head : LoopHead} {is p : List Nat} (h : a[i]? = some (.loop head is))
    (hj : j ∈ is) (hp : LoopPath a (j :: p)) : LoopPath a (i :: j :: p)

/-- Every node but the root is a child of one node, which stands before it, and a walk meets the
places in order. -/
structure IsTree (a : Arena) : Prop where
  root : ∃ is ns, a = .document is :: ns ∧ ∀ n ∈ ns, ∀ js, n ≠ .document js
  child : ∀ p i, a.IsChild p i → p < i ∧ i < a.length
  parent : ∀ i, 0 < i → i < a.length → ∃! p, a.IsChild p i
  nodup : ∀ n ∈ a, n.children.Nodup
  lists : a.Lists [0] (List.range a.length)

variable {a : Arena}

/-! ## Walks -/

theorem Lists.append {is js is' js' : List Nat} (h : a.Lists is js) (h' : a.Lists is' js') :
    a.Lists (is ++ is') (js ++ js') := by
  induction h with
  | nil => exact h'
  | cons hn hchildren _ _ ih =>
    rw [List.cons_append, List.cons_append, List.append_assoc]
    exact .cons hn hchildren ih

theorem Lists.sublist {is js : List Nat} (h : a.Lists is js) : is.Sublist js := by
  induction h with
  | nil => exact .slnil
  | cons hn _ _ _ ih => exact (ih.trans (List.sublist_append_right _ _)).cons_cons _

/-- The children of the node at a place. -/
def childrenAt (a : Arena) (i : Nat) : List Nat := (a[i]?).elim [] ArenaNode.children

theorem childrenAt_eq {i : Nat} {n : ArenaNode} (h : a[i]? = some n) :
    a.childrenAt i = n.children := by
  rw [childrenAt, h]
  rfl

theorem mem_childrenAt_iff {p i : Nat} : i ∈ a.childrenAt p ↔ a.IsChild p i := by
  unfold childrenAt IsChild
  cases a[p]? <;> simp

/-- A walk meets where it starts and the children of all that it meets. -/
theorem Lists.perm {is js : List Nat} (h : a.Lists is js) :
    js.Perm (is ++ js.flatMap a.childrenAt) := by
  induction h with
  | nil => exact .nil
  | @cons i n is js ks hn _ _ ihc ih =>
    rw [List.flatMap_cons, List.flatMap_append, childrenAt_eq hn, List.cons_append,
      ← List.append_assoc n.children]
    exact .cons i ((ihc.append ih).trans (List.perm_append_comm_assoc _ _ _))

/-- A walk meets a node before its children. -/
theorem Lists.child_after {is js : List Nat} (h : a.Lists is js) :
    ∀ p ∈ js, ∀ i ∈ a.childrenAt p, [p, i].Sublist js := by
  induction h with
  | nil => simp
  | @cons i n is js ks hn hchildren _ ihc ih =>
    intro p hp c hc
    rcases List.mem_cons.1 hp with rfl | hp
    · rw [childrenAt_eq hn] at hc
      have hmem : c ∈ js ++ ks := List.mem_append_left _ (hchildren.sublist.subset hc)
      exact (List.singleton_sublist.2 hmem).cons_cons _
    · refine .cons _ ?_
      rcases List.mem_append.1 hp with hp | hp
      · exact (ihc p hp c hc).trans (List.sublist_append_left _ _)
      · exact (ih p hp c hc).trans (List.sublist_append_right _ _)

/-! ## Trees -/

/-- Where a walk from the root meets the places in order, the places but the root are the children
of all nodes, each of them once. -/
theorem perm_children (hne : a ≠ []) (h : a.Lists [0] (List.range a.length)) :
    ((List.range a.length).flatMap a.childrenAt).Perm (List.range' 1 (a.length - 1)) := by
  have hrange : List.range a.length = 0 :: List.range' 1 (a.length - 1) := by
    obtain ⟨m, hm⟩ := Nat.exists_eq_succ_of_ne_zero (mt List.eq_nil_of_length_eq_zero hne)
    rw [hm, List.range_eq_range', List.range'_succ]
    rfl
  have hperm : (0 :: List.range' 1 (a.length - 1)).Perm
      (0 :: (List.range a.length).flatMap a.childrenAt) := by
    rw [← hrange]
    exact h.perm
  exact ((List.perm_cons 0).1 hperm).symm

theorem isTree_of_lists (hroot : ∃ is ns, a = .document is :: ns ∧ ∀ n ∈ ns, ∀ js, n ≠ .document js)
    (h : a.Lists [0] (List.range a.length)) : a.IsTree := by
  have hne : a ≠ [] := by
    obtain ⟨is, ns, rfl, -⟩ := hroot
    exact List.cons_ne_nil _ _
  have hperm := perm_children hne h
  have hnodup : ((List.range a.length).flatMap a.childrenAt).Nodup :=
    hperm.nodup_iff.2 List.nodup_range'
  obtain ⟨heach, hapart⟩ := List.nodup_flatMap.1 hnodup
  have hplace {p i : Nat} (hc : a.IsChild p i) : p ∈ List.range a.length := by
    obtain ⟨n, hn, -⟩ := hc
    exact List.mem_range.2 (List.getElem?_eq_some_iff.1 hn).1
  have hmem {i : Nat} : (∃ p, a.IsChild p i) ↔ 0 < i ∧ i < a.length := by
    have hi := hperm.mem_iff (a := i)
    rw [List.mem_flatMap, List.mem_range'_1] at hi
    constructor
    · rintro ⟨p, hp⟩
      have hbounds := hi.1 ⟨p, hplace hp, mem_childrenAt_iff.2 hp⟩
      omega
    · intro hbounds
      obtain ⟨p, -, hp⟩ := hi.2 (by omega)
      exact ⟨p, mem_childrenAt_iff.1 hp⟩
  refine ⟨hroot, ?_, ?_, ?_, h⟩
  · intro p i hc
    have hafter := h.child_after p (hplace hc) i (mem_childrenAt_iff.2 hc)
    have hlt := List.pairwise_lt_range.sublist hafter
    exact ⟨by simpa using hlt, (hmem.1 ⟨p, hc⟩).2⟩
  · intro i hpos hi
    obtain ⟨p, hp⟩ := hmem.2 ⟨hpos, hi⟩
    refine ⟨p, hp, fun q hq => ?_⟩
    by_contra hqp
    have hsymm : Std.Symm (Function.onFun List.Disjoint a.childrenAt) := ⟨fun _ _ h => h.symm⟩
    have hdisjoint := hapart.forall (hplace hq) (hplace hp) hqp
    exact hdisjoint (mem_childrenAt_iff.2 hq) (mem_childrenAt_iff.2 hp)
  · intro n hn
    obtain ⟨p, hp⟩ := List.mem_iff_getElem?.1 hn
    have hrange := List.mem_range.2 (List.getElem?_eq_some_iff.1 hp).1
    have hchildren := heach p hrange
    rwa [childrenAt_eq hp] at hchildren

/-! ## Documents in an arena -/

theorem prefix_drop_cons {n : ArenaNode} {ns : Arena} {k : Nat} (h : n :: ns <+: a.drop k) :
    a[k]? = some n ∧ ns <+: a.drop (k + 1) := by
  obtain ⟨rest, hrest⟩ := h
  have hn : (a.drop k)[0]? = a[k]? := List.getElem?_drop
  have hdrop : (a.drop k).drop 1 = a.drop (k + 1) := List.drop_drop
  rw [← hrest] at hn hdrop
  exact ⟨hn.symm, rest, hdrop⟩

theorem prefix_drop_append {ns ms : Arena} {k : Nat} (h : ns ++ ms <+: a.drop k) :
    ns <+: a.drop k ∧ ms <+: a.drop (k + ns.length) := by
  refine ⟨(List.prefix_append _ _).trans h, ?_⟩
  have hdrop := h.drop ns.length
  rwa [List.drop_left, List.drop_drop] at hdrop

/-- A walk through the nodes of a document meets the places where they stand. -/
theorem lists_places {d : Document} {k : Nat} (h : d.nodesFrom k <+: a.drop k) :
    a.Lists (d.places k) (List.range' k d.size) := by
  induction d generalizing k with
  | nil => exact .nil
  | text s rest ih =>
    obtain ⟨hn, hrest⟩ := prefix_drop_cons h
    rw [Document.size, List.range'_succ]
    exact .cons hn .nil (ih hrest)
  | echo es rest ih =>
    obtain ⟨hn, hrest⟩ := prefix_drop_cons h
    rw [Document.size, List.range'_succ]
    exact .cons hn .nil (ih hrest)
  | loop head inner rest ihi ihr =>
    obtain ⟨hn, hrest⟩ := prefix_drop_cons h
    obtain ⟨hinner, hlater⟩ := prefix_drop_append hrest
    rw [Document.length_nodesFrom] at hlater
    rw [Document.size, List.range'_succ, ← List.range'_append_1]
    exact .cons hn (ihi hinner) (ihr hlater)

theorem LoopPath.exists_loop {i : Nat} {p : List Nat} (h : a.LoopPath (i :: p)) :
    ∃ head is, a[i]? = some (.loop head is) := by
  cases h with
  | last h => exact ⟨_, _, h⟩
  | step h => exact ⟨_, _, h⟩

theorem LoopPath.ne {i k : Nat} {n : ArenaNode} {p : List Nat} (h : a.LoopPath (i :: p))
    (hn : a[k]? = some n) (hleaf : ∀ head is, n ≠ .loop head is) : i ≠ k := by
  rintro rfl
  obtain ⟨head, is, hloop⟩ := h.exists_loop
  exact hleaf head is (Option.some.inj (hn.symm.trans hloop))

/-- Loops within each other are no more than the document is deep. -/
theorem LoopPath.length_le {d : Document} {k i : Nat} {p : List Nat}
    (hd : d.nodesFrom k <+: a.drop k) (h : a.LoopPath (i :: p)) (hlo : k ≤ i)
    (hhi : i < k + d.size) : (i :: p).length ≤ d.depth := by
  induction d generalizing k i p with
  | nil => exact absurd hhi (Nat.not_lt.2 hlo)
  | text s rest ih =>
    obtain ⟨hn, hrest⟩ := prefix_drop_cons hd
    rw [Document.size] at hhi
    have hne : i ≠ k := h.ne hn (by simp)
    exact ih hrest h (by omega) (by omega)
  | echo es rest ih =>
    obtain ⟨hn, hrest⟩ := prefix_drop_cons hd
    rw [Document.size] at hhi
    have hne : i ≠ k := h.ne hn (by simp)
    exact ih hrest h (by omega) (by omega)
  | loop head inner rest ihi ihr =>
    obtain ⟨hn, hrest⟩ := prefix_drop_cons hd
    obtain ⟨hinner, hlater⟩ := prefix_drop_append hrest
    rw [Document.length_nodesFrom] at hlater
    rw [Document.size] at hhi
    rw [Document.depth]
    rcases Nat.lt_or_ge i (k + 1 + inner.size) with hi | hi
    · refine Nat.le_trans ?_ (Nat.le_max_left _ _)
      rcases Nat.eq_or_lt_of_le hlo with rfl | hlo
      · cases h with
        | last => simp
        | step h hj hp =>
          cases hn.symm.trans h
          have hplace := (lists_places hinner).sublist.subset hj
          rw [List.mem_range'_1] at hplace
          exact Nat.succ_le_succ (ihi hinner hp hplace.1 hplace.2)
      · exact Nat.le_succ_of_le (ihi hinner h hlo hi)
    · exact Nat.le_trans (ihr hlater h hi (by omega)) (Nat.le_max_right _ _)

/-! ## Open containers -/

variable {ls : List OpenLoop} {children : List Nat}

theorem children_container : (container children ls).children = children := by
  cases ls <;> rfl

theorem getElem?_container (h : prior ls ++ [container children ls] <+: a) :
    a[(prior ls).length]? = some (container children ls) := by
  obtain ⟨rest, rfl⟩ := h
  simp

theorem prior_prefix {l : OpenLoop} {rest : Arena} (h : prior (l :: ls) ++ rest <+: a) :
    prior ls ++ [container
        (l.before.reverse.places (firstPlace ls) ++ [firstPlace ls + l.before.size]) ls] <+: a ∧
      l.before.reverse.nodesFrom (firstPlace ls) <+: a.drop (firstPlace ls) := by
  have h' := (List.prefix_append _ _).trans h
  rw [prior_cons, ← List.singleton_append, ← List.append_assoc] at h'
  refine ⟨(List.prefix_append _ _).trans h', ?_⟩
  have hdrop := (prefix_drop_append (k := 0) h').2
  rwa [Nat.zero_add, List.length_append] at hdrop

theorem lists_container {i : Nat} {js : List Nat} (h : a[i]? = some (container children ls))
    (hl : a.Lists children js) : a.Lists [i] (i :: js) := by
  have hlists := Lists.cons h (by rwa [children_container]) .nil
  rwa [List.append_nil] at hlists

/-- A walk from the root goes through all open containers to what is in the innermost. -/
theorem lists_root {m : Nat} (h : prior ls ++ [container children ls] <+: a)
    (hl : a.Lists children (List.range' (firstPlace ls) m)) :
    a.Lists [0] (List.range' 0 (firstPlace ls + m)) := by
  induction ls generalizing children m with
  | nil =>
    rw [show firstPlace [] + m = m + 1 from Nat.add_comm 1 m, List.range'_succ]
    exact lists_container (getElem?_container h) hl
  | cons l ls ih =>
    obtain ⟨hprior, hbefore⟩ := prior_prefix h
    have hloop := lists_container (getElem?_container h) hl
    rw [firstPlace_cons, length_prior_cons, ← List.range'_succ] at hloop
    have hlists := (lists_places hbefore).append hloop
    rw [Document.size_reverse, List.range'_append_1] at hlists
    have hsize : firstPlace (l :: ls) + m = firstPlace ls + (l.before.size + (m + 1)) := by
      rw [firstPlace_cons]
      omega
    rw [hsize]
    exact ih hprior hlists

/-- Each open loop is the last child of the open container around it. -/
theorem chain_openPlaces (h : prior ls ++ [container children ls] <+: a) :
    (openPlaces ls).IsChain a.IsLastLoop := by
  induction ls generalizing children with
  | nil => exact .singleton 0
  | cons l ls ih =>
    obtain ⟨hprior, -⟩ := prior_prefix h
    have hchain := ih hprior
    rw [openPlaces_eq] at hchain
    rw [openPlaces, openPlaces_eq, List.isChain_cons_cons]
    refine ⟨⟨⟨_, _, getElem?_container h⟩, _, getElem?_container hprior, ?_⟩, hchain⟩
    rw [children_container, length_prior_cons, List.getLast?_concat]

end Arena

/-! ## Nodes and tokens -/

/-- What is met where a walk comes to a node; at the root it has not begun. -/
def ArenaNode.piece? : ArenaNode → Option Piece
  | .document _ => none
  | .text s => some (.text s)
  | .echo es => some (.tag (.echo es))
  | .loop head _ => some (.tag (.opening head))

/-- Whether a walk comes to a node, and does not leave one. -/
def Piece.isNode : Piece → Bool
  | .text _ => true
  | .tag (.echo _) => true
  | .tag (.opening _) => true
  | .tag .closing => false

theorem Document.pieces_nodesFrom (d : Document) (k : Nat) :
    (d.nodesFrom k).map ArenaNode.piece? = (d.walk.filter Piece.isNode).map some := by
  induction d generalizing k with
  | nil => rfl
  | text s rest ih => simp [nodesFrom, walk, ArenaNode.piece?, List.filter_cons, Piece.isNode, ih]
  | echo es rest ih => simp [nodesFrom, walk, ArenaNode.piece?, List.filter_cons, Piece.isNode, ih]
  | loop h inner rest ihi ihr =>
    simp [nodesFrom, walk, ArenaNode.piece?, List.filter_cons, Piece.isNode, ihi, ihr]

theorem pieces_prior (ls : List OpenLoop) (children : List Nat) (rest : Arena) :
    (prior ls ++ container children ls :: rest).tail.map ArenaNode.piece? =
      ((walkOpen ls).filter Piece.isNode).map some ++ rest.map ArenaNode.piece? := by
  induction ls generalizing children rest with
  | nil => rfl
  | cons l ls ih =>
    rw [prior_cons, List.append_assoc, List.cons_append, ih]
    simp [walkOpen, container, ArenaNode.piece?, List.filter_cons, Piece.isNode,
      Document.pieces_nodesFrom]

/-- The nodes but the root stand in the order in which a walk comes to them. -/
theorem Builder.pieces_inArena (b : Builder) :
    b.inArena.nodes.tail.map ArenaNode.piece? = (b.walk.filter Piece.isNode).map some := by
  rw [inArena, pieces_prior, Document.pieces_nodesFrom, walk, List.filter_append, List.map_append]

theorem exists_root (ls : List OpenLoop) (children : List Nat) (rest : Arena) :
    ∃ is ns, prior ls ++ container children ls :: rest = .document is :: ns := by
  induction ls generalizing children rest with
  | nil => exact ⟨children, rest, rfl⟩
  | cons l ls ih =>
    rw [prior_cons, List.append_assoc, List.cons_append]
    exact ih _ _

/-- The root of an arena is its only document. -/
theorem Builder.root_inArena (b : Builder) :
    ∃ is ns, b.inArena.nodes = .document is :: ns ∧ ∀ n ∈ ns, ∀ js, n ≠ .document js := by
  have hpieces := b.pieces_inArena
  obtain ⟨is, ns, hroot⟩ := exists_root b.loops (b.current.reverse.places (firstPlace b.loops))
    (b.current.reverse.nodesFrom (firstPlace b.loops))
  change b.inArena.nodes = _ at hroot
  refine ⟨is, ns, hroot, ?_⟩
  rintro n hn js rfl
  rw [hroot] at hpieces
  have hmem : ArenaNode.piece? (.document js) ∈ (b.walk.filter Piece.isNode).map some :=
    hpieces ▸ List.mem_map_of_mem hn
  obtain ⟨p, -, hp⟩ := List.mem_map.1 hmem
  cases hp

theorem Builder.prefix_inArena (b : Builder) :
    prior b.loops ++ [container (b.current.reverse.places (firstPlace b.loops)) b.loops] <+:
      b.inArena.nodes :=
  ⟨b.current.reverse.nodesFrom (firstPlace b.loops), by simp [inArena]⟩

theorem Builder.isTree_inArena (b : Builder) : b.inArena.nodes.IsTree := by
  refine Arena.isTree_of_lists b.root_inArena ?_
  have hdrop : b.current.reverse.nodesFrom (firstPlace b.loops) <+:
      b.inArena.nodes.drop (firstPlace b.loops) := by
    simp [inArena, firstPlace]
  have hlists := Arena.lists_root b.prefix_inArena (Arena.lists_places hdrop)
  rwa [Document.size_reverse, ← b.length_inArena, ← List.range_eq_range'] at hlists

/-! ## Counting nodes -/

/-- A tag whose first chunk is an equals sign, or whose only chunk begins with one. -/
def isEcho (body : Text) : Bool :=
  match Chunk.split body with
  | ['='] :: _ => true
  | ['=' :: _] => true
  | _ => false

def Token.isText : Token → Bool
  | .text _ => true
  | .tag _ => false

/-- How many tokens are texts. -/
def textTokens (ts : List Token) : Nat := ts.countP Token.isText

/-- How many tags are echoes. -/
def echoTags (bodies : List Text) : Nat := bodies.countP isEcho

theorem isEcho_iff {body : Text} :
    isEcho body ↔ ∃ chunks, TagForm.Reads (Chunk.split body) (.echo chunks) := by
  unfold isEcho
  constructor
  · intro h
    split at h
    · rename_i hs
      rw [hs]
      exact ⟨_, .echo (.spaced _)⟩
    · rename_i s hne hs
      rw [hs]
      cases s with
      | nil => exact ⟨_, .echo (.spaced _)⟩
      | cons c s => exact ⟨_, .echo (.joined c s)⟩
    · cases h
  · rintro ⟨chunks, h⟩
    generalize Chunk.split body = split at h
    cases h with
    | echo h => cases h <;> rfl

theorem Tag.Reads.isEcho_iff {body : Text} {t : Tag} (h : t.Reads body) :
    isEcho body ↔ ∃ es, t = .echo es := by
  rw [PageTemplate.isEcho_iff]
  constructor
  · rintro ⟨chunks, hform⟩
    cases h with
    | echo => exact ⟨_, rfl⟩
    | opening h => cases hform.unique h
    | closing h => cases hform.unique h
  · rintro ⟨es, rfl⟩
    cases h with
    | echo hform => exact ⟨_, hform⟩

/-- A tag makes a node if it is an echo or begins a loop. -/
theorem Tag.Reads.isNode_toNat {body : Text} {t : Tag} (h : t.Reads body) :
    (Piece.isNode (.tag t)).toNat = (isEcho body).toNat + (isFor body).toNat := by
  have hecho := h.isEcho_iff
  have hfor := h.isFor_iff
  cases t with
  | echo es => simp_all [Piece.isNode]
  | opening head => simp_all [Piece.isNode]
  | closing => simp_all [Piece.isNode]

theorem echoTags_cons (body : Text) (bodies : List Text) :
    echoTags (body :: bodies) = (isEcho body).toNat + echoTags bodies := by
  cases h : isEcho body <;> simp [echoTags, h, Nat.add_comm]

theorem forTags_cons (body : Text) (bodies : List Text) :
    forTags (body :: bodies) = (isFor body).toNat + forTags bodies := by
  cases h : isFor body <;> simp [forTags, h, Nat.add_comm]

/-- The tokens that make a node are the texts, the echoes and the tags that begin a loop. -/
theorem countP_isNode {ts : List Token} {ps : List Piece} (h : List.Forall₂ Token.Reads ts ps) :
    ps.countP Piece.isNode = textTokens ts + echoTags (bodiesOf ts) + forTags (bodiesOf ts) := by
  induction h with
  | nil => rfl
  | @cons t p ts ps hp _ ih =>
    cases hp with
    | text s =>
      have hpiece : (Piece.text s :: ps).countP Piece.isNode = ps.countP Piece.isNode + 1 := by
        simp [List.countP_cons, Piece.isNode]
      have htexts : textTokens (.text s :: ts) = textTokens ts + 1 := by
        simp [textTokens, List.countP_cons, Token.isText]
      have hbodies : bodiesOf (.text s :: ts) = bodiesOf ts := rfl
      rw [hpiece, htexts, hbodies, ih]
      omega
    | @tag body t ht =>
      have hpiece : (Piece.tag t :: ps).countP Piece.isNode =
          (Piece.isNode (.tag t)).toNat + ps.countP Piece.isNode := by
        cases h : Piece.isNode (.tag t) <;> simp [h, Nat.add_comm]
      have htexts : textTokens (.tag body :: ts) = textTokens ts := by
        simp [textTokens, Token.isText]
      have hbodies : bodiesOf (.tag body :: ts) = body :: bodiesOf ts := rfl
      rw [hpiece, htexts, hbodies, echoTags_cons, forTags_cons, ht.isNode_toNat, ih]
      omega

/-! ## Reading into an arena -/

/-- An arena that is a tree, with a path of open containers from the root down, each the last child
of the one above, after some tokens. The nodes stand in the order of the tokens that make them. -/
structure ArenaBuilder.Sound (b : ArenaBuilder) (ts : List Token) : Prop where
  tree : b.nodes.IsTree
  root : b.opened.getLast? = some 0
  chain : b.opened.IsChain b.nodes.IsLastLoop
  places : ∀ i ∈ b.opened, i < b.nodes.length
  depth : b.opened.length ≤ depthLimit + 1
  innermost : ∀ n, ∃ c, b.append n = .ok c
  pieces : ∃ ps, List.Forall₂ Token.Reads ts ps ∧
    b.nodes.tail.map ArenaNode.piece? = (ps.filter Piece.isNode).map some
  length : b.nodes.length = 1 + textTokens ts + echoTags (bodiesOf ts) + forTags (bodiesOf ts)

theorem getLast?_openPlaces (ls : List OpenLoop) : (openPlaces ls).getLast? = some 0 := by
  induction ls with
  | nil => rfl
  | cons l ls ih => rw [openPlaces, openPlaces_eq, List.getLast?_cons_cons, ← openPlaces_eq, ih]

theorem lt_of_mem_openPlaces {i : Nat} {ls : List OpenLoop} (h : i ∈ openPlaces ls) :
    i < firstPlace ls := by
  induction ls with
  | nil =>
    rw [List.mem_singleton.1 h]
    exact Nat.zero_lt_one
  | cons l ls ih =>
    rcases List.mem_cons.1 h with rfl | h
    · exact Nat.lt_succ_self _
    · have hi := ih h
      rw [firstPlace_cons]
      omega

theorem Builder.sound_inArena {b : Builder} {ts : List Token}
    (h : Builder.empty.addAll ts = .ok b) (hloops : b.loops.length ≤ depthLimit) :
    b.inArena.Sound ts := by
  obtain ⟨ps, hps, hwalk⟩ := walk_of_addAll h
  change b.walk = ps at hwalk
  have hpieces := b.pieces_inArena
  rw [hwalk] at hpieces
  refine ⟨b.isTree_inArena, getLast?_openPlaces _, Arena.chain_openPlaces b.prefix_inArena, ?_, ?_,
    fun n => ⟨_, b.append_inArena n⟩, ⟨ps, hps, hpieces⟩, ?_⟩
  · intro i hi
    rw [length_inArena]
    exact Nat.lt_of_lt_of_le (lt_of_mem_openPlaces hi) (Nat.le_add_right _ _)
  · change (openPlaces b.loops).length ≤ _
    rw [length_openPlaces]
    omega
  · have hlength := congrArg List.length hpieces
    rw [List.length_map, List.length_map, List.length_tail, ← List.countP_eq_length_filter,
      countP_isNode hps] at hlength
    have hpos : 0 < b.inArena.nodes.length := by
      rw [length_inArena, firstPlace]
      omega
    omega

theorem Document.isTree_arena (d : Document) : d.arena.IsTree := by
  have htree := (Builder.mk d.reverse []).isTree_inArena
  rw [Builder.inArena, reverse_reverse] at htree
  exact htree

theorem Document.length_loopPath_le {d : Document} {p : List Nat} (h : d.arena.LoopPath p) :
    p.length ≤ d.depth := by
  cases p with
  | nil => exact Nat.zero_le _
  | cons i q =>
    obtain ⟨head, is, hloop⟩ := h.exists_loop
    have hi := (List.getElem?_eq_some_iff.1 hloop).1
    have hlength : d.arena.length = 1 + d.size := by
      rw [arena, List.length_cons, length_nodesFrom, Nat.add_comm]
    have hpos : 1 ≤ i := by
      rw [Nat.one_le_iff_ne_zero]
      rintro rfl
      cases hloop
    exact h.length_le (List.prefix_refl _) hpos (hlength ▸ hi)

/-- What a template is read into is the arena of its document and of no other. A child is never
added to a leaf. After each token the arena is a tree and the open containers go down from its root,
and in the end no more loops are within each other than the limit. -/
theorem parseArena_sound (source : Text) :
    parseArena source = ((parse source).map Document.arena).mapError .parse ∧
      Function.Injective Document.arena ∧
      (∀ ts, ts <+: (scan source).tokens →
        ArenaBuilder.empty.addAll ts ≠ .error .leaf ∧
          ∀ b, ArenaBuilder.empty.addAll ts = .ok b → b.Sound ts) ∧
      ∀ a, parseArena source = .ok a →
        a.IsTree ∧ ∀ p, a.LoopPath p → p.length ≤ depthLimit := by
  refine ⟨parseArena_eq source, Document.arena_injective, ?_, ?_⟩
  · intro ts hts
    have hrun : ArenaBuilder.empty.addAll ts = _ := Builder.addAll_inArena (b := .empty) ts
    rw [hrun]
    cases hadd : Builder.empty.addAll ts with
    | error e => exact ⟨nofun, nofun⟩
    | ok b =>
      refine ⟨nofun, ?_⟩
      rintro _ ⟨⟩
      have hsound := Builder.sound_empty.addAll
        (fun t ht => sound_of_mem_scan t (hts.subset ht)) hadd
      exact Builder.sound_inArena hadd (Nat.le_trans (Nat.le_add_left _ _) hsound.depth)
  · intro a ha
    rw [parseArena_eq] at ha
    cases hparse : parse source with
    | error e =>
      rw [hparse] at ha
      cases ha
    | ok d =>
      rw [hparse] at ha
      cases ha
      exact ⟨d.isTree_arena,
        fun p hp => (Document.length_loopPath_le hp).trans (writable_of_parse hparse).2⟩

example :
    parseArena "a\x7b$FOR i 1 2$\x7db\x7b$=i$\x7d\x7b$END$\x7dc".toList = .ok
      [.document [1, 2, 5], .text ['a'],
        .loop ⟨['i'], .const (.int 1), .const (.int 2), none⟩ [3, 4], .text ['b'],
        .echo [.operand (.var ['i'])], .text ['c']] := by
  decide +kernel

end PageTemplate
