import Mathlib.Data.List.Forall2
import PageTemplate.Proofs.Document.Writable

/-! The walk through a document. What is met on it, depth first, is what the tokens of the
template say one by one, and no other document has the same walk. -/
namespace PageTemplate

/-- What is met on a walk: a text, or a tag. A loop is entered by its opening tag and left by
its closing one. -/
inductive Piece
  | text (content : Text)
  | tag (t : Tag)

/-- What a token says, without regard to those around it. -/
inductive Token.Reads : Token → Piece → Prop
  | text (s : Text) : Reads (.text s) (.text s)
  | tag {body : Text} {t : Tag} (h : t.Reads body) : Reads (.tag body) (.tag t)

/-- What is met in a document, depth first and in order. -/
def Document.walk : Document → List Piece
  | .nil => []
  | .text s rest => .text s :: rest.walk
  | .echo es rest => .tag (.echo es) :: rest.walk
  | .loop h inner rest => .tag (.opening h) :: (inner.walk ++ .tag .closing :: rest.walk)

/-- What is met before the innermost open loop is entered, and on entering it. -/
def walkOpen : List OpenLoop → List Piece
  | [] => []
  | l :: ls => walkOpen ls ++ l.before.reverse.walk ++ [.tag (.opening l.head)]

/-- What is met in a document that is not finished. -/
def Builder.walk (b : Builder) : List Piece := walkOpen b.loops ++ b.current.reverse.walk

/-! ## Tokens one by one -/

theorem TagForm.Reads.unique {chunks : List Text} {f g : TagForm} (hf : Reads chunks f)
    (hg : Reads chunks g) : f = g :=
  (reads_iff.1 hf).symm.trans (reads_iff.1 hg)

theorem LoopHead.Reads.unique {arguments : List Text} {h k : LoopHead}
    (hh : Reads arguments h) (hk : Reads arguments k) : h = k :=
  Except.ok.inj ((ofArguments_of_reads hh).symm.trans (ofArguments_of_reads hk))

/-- A tag body says one thing at most. -/
theorem Tag.Reads.unique {body : Text} {t u : Tag} (ht : Reads body t) (hu : Reads body u) :
    t = u := by
  cases ht with
  | echo hform helements =>
    cases hu with
    | echo hform' helements' =>
      cases hform.unique hform'
      rw [List.map_injective_iff.2 (Option.some_injective _) (helements.symm.trans helements')]
    | opening hform' => cases hform.unique hform'
    | closing hform' => cases hform.unique hform'
  | opening hform hhead =>
    cases hu with
    | echo hform' => cases hform.unique hform'
    | opening hform' hhead' =>
      cases hform.unique hform'
      rw [hhead.unique hhead']
    | closing hform' => cases hform.unique hform'
  | closing hform =>
    cases hu with
    | echo hform' => cases hform.unique hform'
    | opening hform' => cases hform.unique hform'
    | closing => rfl

theorem Token.reads_rightUnique : Relator.RightUnique Token.Reads := by
  intro t p q hp hq
  cases hp with
  | text s =>
    cases hq
    rfl
  | tag h =>
    cases hq with
    | tag h' => rw [h.unique h']

/-! ## Walks -/

namespace Document

theorem reverse_append (d e : Document) : (d ++ e).reverse = e.reverse ++ d.reverse := by
  induction d with
  | nil => simp
  | text s rest ih => simp [ih, append_assoc]
  | echo es rest ih => simp [ih, append_assoc]
  | loop h inner rest _ ih => simp [ih, append_assoc]

theorem reverse_reverse (d : Document) : d.reverse.reverse = d := by
  induction d with
  | nil => rfl
  | text s rest ih => simp [reverse_append, ih]
  | echo es rest ih => simp [reverse_append, ih]
  | loop h inner rest _ ih => simp [reverse_append, ih]

@[simp] theorem walk_append (d e : Document) : (d ++ e).walk = d.walk ++ e.walk := by
  induction d with
  | nil => rfl
  | text s rest ih => simp [walk, ih]
  | echo es rest ih => simp [walk, ih]
  | loop h inner rest _ ih => simp [walk, ih]

/-- Where the walk through the nodes of a loop, or of a whole document, is over. -/
def Leaves (ps : List Piece) : Prop := ps = [] ∨ ∃ qs, ps = .tag .closing :: qs

/-- A walk that is over before it begins is one through no nodes. -/
theorem eq_nil_of_leaves {d : Document} {ps qs : List Piece} (hps : Leaves ps)
    (h : d.walk ++ qs = ps) : d = nil := by
  subst h
  cases d with
  | nil => rfl
  | text s rest => simp [Leaves, walk] at hps
  | echo es rest => simp [Leaves, walk] at hps
  | loop h inner rest => simp [Leaves, walk] at hps

/-- Where a walk is over, it says which nodes it went through. -/
theorem walk_append_inj {d e : Document} {ps qs : List Piece} (hps : Leaves ps)
    (hqs : Leaves qs) (h : d.walk ++ ps = e.walk ++ qs) : d = e ∧ ps = qs := by
  induction d generalizing e ps qs with
  | nil =>
    obtain rfl := eq_nil_of_leaves hps h.symm
    exact ⟨rfl, h⟩
  | text s rest ih =>
    cases e with
    | nil => cases eq_nil_of_leaves hqs h
    | text s' rest' =>
      simp only [walk, List.cons_append, List.cons.injEq, Piece.text.injEq] at h
      obtain ⟨rfl, h⟩ := h
      obtain ⟨rfl, rfl⟩ := ih hps hqs h
      exact ⟨rfl, rfl⟩
    | echo es' rest' => simp [walk] at h
    | loop head' inner' rest' => simp [walk] at h
  | echo es rest ih =>
    cases e with
    | nil => cases eq_nil_of_leaves hqs h
    | text s' rest' => simp [walk] at h
    | echo es' rest' =>
      simp only [walk, List.cons_append, List.cons.injEq, Piece.tag.injEq, Tag.echo.injEq] at h
      obtain ⟨rfl, h⟩ := h
      obtain ⟨rfl, rfl⟩ := ih hps hqs h
      exact ⟨rfl, rfl⟩
    | loop head' inner' rest' => simp [walk] at h
  | loop head inner rest ihi ihr =>
    cases e with
    | nil => cases eq_nil_of_leaves hqs h
    | text s' rest' => simp [walk] at h
    | echo es' rest' => simp [walk] at h
    | loop head' inner' rest' =>
      simp only [walk, List.cons_append, List.append_assoc, List.cons.injEq, Piece.tag.injEq,
        Tag.opening.injEq] at h
      obtain ⟨rfl, h⟩ := h
      -- the closing tag is where the walk through the inner nodes is over
      obtain ⟨rfl, hrest⟩ := ihi (.inr ⟨_, rfl⟩) (.inr ⟨_, rfl⟩) h
      obtain ⟨rfl, rfl⟩ := ihr hps hqs (List.cons.inj hrest).2
      exact ⟨rfl, rfl⟩

/-- Two documents with one walk are the same, nested alike. -/
theorem walk_injective : Function.Injective walk := by
  intro d e h
  exact (walk_append_inj (.inl rfl) (.inl rfl) (congrArg (· ++ []) h)).1

/-- Tokens that say the walk through a loop and what follows it: a tag that opens the loop, those
of its nodes, a tag that closes it, and the others. -/
theorem tokens_of_walk_loop {head : LoopHead} {inner rest : Document} {ts : List Token}
    (h : List.Forall₂ Token.Reads ts (loop head inner rest).walk) :
    ∃ opening us closing vs, ts = .tag opening :: (us ++ .tag closing :: vs) ∧
      Tag.Reads opening (.opening head) ∧ List.Forall₂ Token.Reads us inner.walk ∧
      Tag.Reads closing .closing ∧ List.Forall₂ Token.Reads vs rest.walk := by
  obtain ⟨u, ts', hu, hafter, rfl⟩ := List.forall₂_cons_right_iff.1 h
  have hinner := List.forall₂_take_append _ _ _ hafter
  have hlater := List.forall₂_drop_append _ _ _ hafter
  obtain ⟨v, vs, hv, hrest, hdrop⟩ := List.forall₂_cons_right_iff.1 hlater
  cases hu with
  | tag hopening =>
    cases hv with
    | tag hclosing =>
      refine ⟨_, _, _, vs, ?_, hopening, hinner, hclosing, hrest⟩
      rw [← hdrop, List.take_append_drop]

end Document

/-! ## Builders -/

namespace Builder

variable {b b' : Builder}

theorem Takes.walk_eq {t : Tag} (h : b.Takes t b') : b'.walk = b.walk ++ [.tag t] := by
  cases h with
  | echo es => simp [walk, Document.walk]
  | opening => simp [walk, openLoop, walkOpen, Document.walk]
  | closing hloops => simp [walk, hloops, walkOpen, Document.walk]

/-- Each token adds what it says at the end of the walk, whatever loops are open. -/
theorem walk_of_add {t : Token} (h : b.add t = .ok b') :
    ∃ p, t.Reads p ∧ b'.walk = b.walk ++ [p] := by
  cases t with
  | text s =>
    cases h
    exact ⟨_, .text s, by simp [walk, Document.walk]⟩
  | tag body =>
    obtain ⟨t, ht, htakes⟩ := addTag_eq_ok_iff.1 h
    exact ⟨_, .tag ht, htakes.walk_eq⟩

theorem walk_of_addAll {ts : List Token} (h : b.addAll ts = .ok b') :
    ∃ ps, List.Forall₂ Token.Reads ts ps ∧ b'.walk = b.walk ++ ps := by
  induction ts generalizing b with
  | nil =>
    cases h
    exact ⟨[], .nil, (List.append_nil _).symm⟩
  | cons t ts ih =>
    obtain ⟨c, hadd, hrest⟩ := addAll_cons_eq_ok_iff.1 h
    obtain ⟨p, hp, hc⟩ := walk_of_add hadd
    obtain ⟨ps, hps, hb'⟩ := ih hrest
    refine ⟨p :: ps, .cons hp hps, ?_⟩
    rw [hb', hc, List.append_assoc, List.singleton_append]

theorem walk_of_finish {d : Document} (h : b.finish = .ok d) : b.walk = d.walk := by
  unfold finish at h
  split at h
  · rename_i hloops
    cases h
    simp [walk, hloops, walkOpen]
  · cases h

theorem addAll_of_takes {body : Text} {t : Tag} (ht : t.Reads body) (h : b.Takes t b')
    (ts : List Token) : b.addAll (.tag body :: ts) = b'.addAll ts := by
  rw [addAll_cons, add, addTag_of_takes ht h]
  rfl

/-- Tokens that say the walk through a document add its nodes, if they are not too deep. -/
theorem addAll_of_walk {d : Document} {ts : List Token} (b : Builder)
    (hdepth : b.loops.length + d.depth ≤ depthLimit)
    (h : List.Forall₂ Token.Reads ts d.walk) (us : List Token) :
    b.addAll (ts ++ us) = Builder.addAll ⟨d.reverseOnto b.current, b.loops⟩ us := by
  induction d generalizing ts b us with
  | nil =>
    cases h
    rfl
  | text s rest ih =>
    cases h with
    | cons ht h =>
      cases ht
      exact ih ⟨.text s b.current, b.loops⟩ hdepth h us
  | echo es rest ih =>
    cases h with
    | cons ht h =>
      cases ht with
      | tag ht =>
        rw [List.cons_append, addAll_of_takes ht (.echo es)]
        exact ih ⟨.echo es b.current, b.loops⟩ hdepth h us
  | loop head inner rest ihi ihr =>
    simp only [Document.depth] at hdepth
    have hloops : b.loops.length < depthLimit := by omega
    have hinner : (b.openLoop head).loops.length + inner.depth ≤ depthLimit := by
      simp only [openLoop, List.length_cons]
      omega
    have hrest : b.loops.length + rest.depth ≤ depthLimit := by omega
    obtain ⟨opening, us', closing, vs, rfl, ho, hi, hc, hr⟩ := Document.tokens_of_walk_loop h
    calc b.addAll (.tag opening :: (us' ++ .tag closing :: vs) ++ us)
        = (b.openLoop head).addAll (us' ++ .tag closing :: (vs ++ us)) := by
          rw [List.cons_append, addAll_of_takes ho (.opening hloops), List.append_assoc,
            List.cons_append]
      _ = Builder.addAll ⟨inner.reverse, ⟨head, b.current⟩ :: b.loops⟩
            (.tag closing :: (vs ++ us)) := ihi _ hinner hi _
      _ = Builder.addAll ⟨.loop head inner b.current, b.loops⟩ (vs ++ us) := by
          rw [addAll_of_takes hc (.closing rfl), Document.reverse_reverse]
      _ = Builder.addAll ⟨rest.reverseOnto (.loop head inner b.current), b.loops⟩ us :=
          ihr ⟨.loop head inner b.current, b.loops⟩ hrest hr us

end Builder

/-- A template is read as a document exactly when its tokens say, one by one, the walk through
that document, and no loop in it is too deep. -/
theorem parse_eq_ok_iff_reads {s : Text} {d : Document} :
    parse s = .ok d ↔ (scan s).fault = none ∧ d.depth ≤ depthLimit ∧
      List.Forall₂ Token.Reads (scan s).tokens d.walk := by
  constructor
  · intro h
    obtain ⟨hfault, b, hb, hfinish⟩ := parse_eq_ok_iff.1 h
    obtain ⟨ps, hps, hwalk⟩ := Builder.walk_of_addAll hb
    rw [Builder.walk_of_finish hfinish] at hwalk
    change d.walk = ps at hwalk
    exact ⟨hfault, (writable_of_parse h).2, hwalk ▸ hps⟩
  · rintro ⟨hfault, hdepth, htokens⟩
    have hadd := Builder.addAll_of_walk .empty (by simpa [Builder.empty] using hdepth) htokens []
    rw [List.append_nil] at hadd
    refine parse_eq_ok_iff.2 ⟨hfault, _, hadd, ?_⟩
    change Except.ok d.reverse.reverse = _
    rw [Document.reverse_reverse]

/-- A template is read as a document exactly when no loop in it is too deep and the tokens say the
walk through it, one by one and nothing else. No other document has that walk. -/
theorem parse_iff_walk {s : Text} {d : Document} :
    (parse s = .ok d ↔ (scan s).fault = none ∧ d.depth ≤ depthLimit ∧
      ∀ ps, List.Forall₂ Token.Reads (scan s).tokens ps ↔ ps = d.walk) ∧
    ∀ e : Document, e.walk = d.walk ↔ e = d := by
  refine ⟨?_, fun e => Document.walk_injective.eq_iff⟩
  rw [parse_eq_ok_iff_reads]
  refine and_congr_right fun _ => and_congr_right fun _ => ?_
  constructor
  · intro htokens ps
    constructor
    · intro hps
      exact Token.reads_rightUnique.forall₂ hps htokens
    · rintro rfl
      exact htokens
  · intro h
    exact (h d.walk).2 rfl

theorem parse_iff_walk_nested :
    let s := "a\x7b$FOR i 1 2$\x7d\x7b$=i$\x7d\x7b$for j 1 i$\x7db\x7b$end$\x7d\x7b$END$\x7d".toList
    let outer : LoopHead := ⟨['i'], .const (.int 1), .const (.int 2), none⟩
    let inner : LoopHead := ⟨['j'], .const (.int 1), .var ['i'], none⟩
    ∀ ps, List.Forall₂ Token.Reads (scan s).tokens ps ↔
      ps = [.text ['a'], .tag (.opening outer), .tag (.echo [.operand (.var ['i'])]),
        .tag (.opening inner), .text ['b'], .tag .closing, .tag .closing] := by
  intro s outer inner
  have h : parse s = .ok (.text ['a'] <| .loop outer
      (.echo [.operand (.var ['i'])] <| .loop inner (.text ['b'] .nil) .nil) .nil) := by
    decide +kernel
  exact (parse_iff_walk.1.1 h).2.2

end PageTemplate
