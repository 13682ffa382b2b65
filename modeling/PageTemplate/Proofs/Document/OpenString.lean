import PageTemplate.Proofs.Document.Acceptance
import PageTemplate.Proofs.Document.Echo
import PageTemplate.Proofs.Element.OpenString

/-! Templates with a string that no quote closes. None is read, unless the string ends with a quote
that a backslash protects. Every other string element has both of its quotes, but for that of an
echo joined to its equals sign. -/
namespace PageTemplate

/-- The elements that a tag gives: those of an echo, and the operands of a loop. -/
def Tag.elements : Tag → List Element
  | .echo es => es
  | .opening head => (head.start :: head.stop :: head.step.toList).map .operand
  | .closing => []

/-- A tag that is an echo joined to its equals sign. -/
def Joined (body : Text) : Prop := ∃ c s, Chunk.split body = ['=' :: c :: s]

/-! ## The chunks of a tag -/

section

variable {body w : Text} {t : Tag}

theorem exists_of_map_eq {chunks : List Text} {es : List Element}
    (h : chunks.map Element.ofChunk? = es.map some) (hw : w ∈ chunks) :
    ∃ e, Element.Reads w e := by
  have hmem := List.mem_map_of_mem (f := Element.ofChunk?) hw
  rw [h] at hmem
  obtain ⟨e, -, he⟩ := List.mem_map.1 hmem
  exact ⟨e, Element.ofChunk?_eq_some_iff.1 he.symm⟩

theorem mem_of_map_eq {chunks : List Text} {es : List Element} {e : Element}
    (h : chunks.map Element.ofChunk? = es.map some) (he : e ∈ es) :
    ∃ w ∈ chunks, Element.Reads w e := by
  have hmem := List.mem_map_of_mem (f := some) he
  rw [← h] at hmem
  obtain ⟨w, hw, hread⟩ := List.mem_map.1 hmem
  exact ⟨w, hw, Element.ofChunk?_eq_some_iff.1 hread⟩

/-- The chunks of a loop head are elements. -/
theorem LoopHead.Reads.elements {arguments : List Text} {head : LoopHead}
    (h : Reads arguments head) : arguments.map Element.ofChunk? =
      (.operand (.var head.name) :: (Tag.opening head).elements).map some := by
  cases h with
  | mk hname hstart hstop hstep =>
    simp [Tag.elements, hname, hstart, hstop, hstep]

/-- A chunk that begins with a quote is an element of the tag. -/
theorem Tag.Reads.exists_reads_of_quote {r : Text} (h : t.Reads body)
    (hw : '"' :: r ∈ Chunk.split body) : ∃ e, Element.Reads ('"' :: r) e := by
  have hword {word chunk : Text} (hspells : spells word chunk)
      (hor : word = forWord ∨ word = endWord) : '"' :: r ≠ chunk := by
    rintro rfl
    rcases hor with rfl | rfl <;> simp [forWord, endWord, spells] at hspells
  cases h with
  | echo hform helements =>
    generalize Chunk.split body = chunks at hform hw
    cases hform with
    | echo hecho =>
      cases hecho with
      | spaced chunks =>
        exact exists_of_map_eq helements ((List.mem_cons.1 hw).resolve_left (by simp))
      | joined c s => cases List.mem_singleton.1 hw
  | opening hform hhead =>
    generalize Chunk.split body = chunks at hform hw
    cases hform with
    | opening arguments hspells =>
      exact exists_of_map_eq hhead.elements
        ((List.mem_cons.1 hw).resolve_left (hword hspells (.inl rfl)))
  | closing hform =>
    generalize Chunk.split body = chunks at hform hw
    cases hform with
    | closing hspells => exact absurd (List.mem_singleton.1 hw) (hword hspells (.inr rfl))

/-- Unless an echo is joined, its elements come from chunks of the tag, as those of a loop do. -/
theorem Tag.Reads.exists_chunk {e : Element} (h : t.Reads body) (hjoined : ¬Joined body)
    (he : e ∈ t.elements) : ∃ w ∈ Chunk.split body, Element.Reads w e := by
  cases h with
  | echo hform helements =>
    obtain ⟨w, hw, hread⟩ := mem_of_map_eq helements he
    refine ⟨w, ?_, hread⟩
    generalize hsplit : Chunk.split body = chunks at hform
    cases hform with
    | echo hecho =>
      cases hecho with
      | spaced chunks => exact List.mem_cons_of_mem _ hw
      | joined c s => exact absurd ⟨c, s, hsplit⟩ hjoined
  | opening hform hhead =>
    obtain ⟨w, hw, hread⟩ := mem_of_map_eq hhead.elements (List.mem_cons_of_mem _ he)
    refine ⟨w, ?_, hread⟩
    generalize Chunk.split body = chunks at hform
    cases hform with
    | opening arguments hspells => exact List.mem_cons_of_mem _ hw
  | closing => cases he

end

/-! ## Another last chunk -/

section

variable {word v w : Text} {chunks : List Text}

/-- The last chunk has no part in what a tag is, unless it is the first as well. -/
theorem TagForm.Reads.concat {f : TagForm} (h : Reads (word :: chunks ++ [v]) f)
    (hf : f ≠ .unknown) (w : Text) :
    f = .echo (chunks ++ [v]) ∧ Reads (word :: chunks ++ [w]) (.echo (chunks ++ [w])) ∨
      f = .opening (chunks ++ [v]) ∧
        Reads (word :: chunks ++ [w]) (.opening (chunks ++ [w])) := by
  generalize hlist : word :: chunks ++ [v] = all at h
  cases h with
  | echo hecho =>
    cases hecho with
    | spaced rest =>
      obtain ⟨rfl, rfl⟩ := List.cons.inj hlist
      exact .inl ⟨rfl, .echo (.spaced _)⟩
    | joined c s => simp at hlist
  | opening rest hspells =>
    obtain ⟨rfl, rfl⟩ := List.cons.inj hlist
    exact .inr ⟨rfl, .opening _ hspells⟩
  | closing => simp at hlist
  | unknown => exact absurd rfl hf

/-- The last argument of a loop may be any operand. -/
theorem LoopHead.Reads.concat {head : LoopHead} {o : Operand} (h : Reads (chunks ++ [v]) head)
    (hw : Element.ofChunk? w = some (.operand o)) : ∃ head', Reads (chunks ++ [w]) head' := by
  generalize hlist : chunks ++ [v] = all at h
  cases h with
  | @mk chunk start stop steps head hname hstart hstop hstep =>
    obtain ⟨name, a, b, step⟩ := head
    cases step with
    | none =>
      obtain rfl : steps = [] := by simpa using hstep
      have hcut : chunks ++ [v] = [chunk, start] ++ [stop] := hlist
      obtain ⟨rfl, -⟩ := List.append_inj' hcut rfl
      exact ⟨⟨name, a, o, none⟩, .mk hname hstart hw rfl⟩
    | some c =>
      obtain ⟨last, rfl, -⟩ : ∃ last, steps = [last] ∧ _ := List.map_eq_singleton_iff.1 hstep
      have hcut : chunks ++ [v] = [chunk, start, stop] ++ [last] := hlist
      obtain ⟨rfl, -⟩ := List.append_inj' hcut rfl
      refine ⟨⟨name, a, b, some o⟩, .mk hname hstart hstop ?_⟩
      simp [hw]

end

theorem Tag.Reads.exists_form {body : Text} {t : Tag} (h : Reads body t) :
    ∃ f, f ≠ .unknown ∧ TagForm.Reads (Chunk.split body) f := by
  cases h with
  | echo hform => exact ⟨.echo _, by simp, hform⟩
  | opening hform => exact ⟨.opening _, by simp, hform⟩
  | closing hform => exact ⟨.closing, by simp, hform⟩

/-- A string for another at the end of a tag leaves it a tag. -/
theorem Tag.Reads.concat {body body' p q : Text} {chunks : List Text} {t : Tag}
    (h : Reads body t) (hbody : Chunk.split body = chunks ++ ['"' :: p])
    (hbody' : Chunk.split body' = chunks ++ ['"' :: q]) (hq : q.getLast? = some '"') :
    ∃ t', Reads body' t' := by
  have hread := Element.ofChunk?_eq_some_iff.2 (Element.reads_quote_iff.2 ⟨hq, rfl⟩)
  cases chunks with
  | nil =>
    -- a string alone is no tag
    have hunknown : TagForm.ofChunks ['"' :: p] = .unknown := by
      simp [TagForm.ofChunks, show '"'.toLower = '"' by decide]
    obtain ⟨f, hf, hform⟩ := h.exists_form
    rw [hbody, List.nil_append, TagForm.reads_iff, hunknown] at hform
    exact absurd hform.symm hf
  | cons word chunks =>
    cases h with
    | echo hform helements =>
      rw [hbody] at hform
      rcases hform.concat (by simp) ('"' :: q) with ⟨hecho, hform'⟩ | ⟨hopening, -⟩
      · cases hecho
        rw [List.map_append] at helements
        obtain ⟨es, last, -, hes, -⟩ := List.append_eq_map_iff.1 helements
        refine ⟨.echo (es ++ [.operand (.const (.str (Literal.unescape q.dropLast)))]),
          .echo (hbody' ▸ hform') ?_⟩
        rw [List.map_append, List.map_append, hes, List.map_singleton, hread, List.map_singleton]
      · cases hopening
    | opening hform hhead =>
      rw [hbody] at hform
      rcases hform.concat (by simp) ('"' :: q) with ⟨hecho, -⟩ | ⟨hopening, hform'⟩
      · cases hecho
      · cases hopening
        obtain ⟨head', hhead'⟩ := hhead.concat hread
        exact ⟨_, .opening (hbody' ▸ hform') hhead'⟩
    | closing hform =>
      rw [hbody] at hform
      rcases hform.concat (by simp) ('"' :: q) with ⟨hecho, -⟩ | ⟨hopening, -⟩
      · cases hecho
      · cases hopening

/-! ## Open strings -/

/-- A tag in which a string is left open says nothing, unless a protected quote ends the string. -/
theorem Tag.Reads.endsProtected {body r : Text} {t : Tag} (h : t.Reads body)
    (hopen : Chunk.LeftOpen body r) : Chunk.EndsProtected r := by
  obtain ⟨chunks, hsplit⟩ := hopen.split
  obtain ⟨-, -, -, hr⟩ := hopen
  exact (Element.exists_reads_open_iff hr).1
    (h.exists_reads_of_quote (hsplit ▸ List.mem_append_right _ List.mem_cons_self))

/-- A tag in which a string is left open says something just if a protected quote ends the string
and the tag says something once the string is closed. -/
theorem Tag.exists_reads_open_iff {body r : Text} (hopen : Chunk.LeftOpen body r) :
    (∃ t, Reads body t) ↔ Chunk.EndsProtected r ∧ ∃ t, Reads (body ++ ['"']) t := by
  constructor
  · rintro ⟨t, ht⟩
    have hends := ht.endsProtected hopen
    obtain ⟨chunks, hsplit, hsplit'⟩ := hopen.split_closed hends
    exact ⟨hends, ht.concat hsplit hsplit' (List.getLast?_concat ..)⟩
  · rintro ⟨hends, t, ht⟩
    obtain ⟨chunks, hsplit, hsplit'⟩ := hopen.split_closed hends
    obtain ⟨-, -, -, hr⟩ := hopen
    exact ht.concat hsplit' hsplit ((Chunk.endsProtected_iff hr).2 hends)

/-- The chunk that a string element comes from has both of its quotes, or is the string that is left
open with a protected quote at its end. -/
theorem Tag.Reads.closed_or_protected {body w s : Text} {t : Tag} (h : t.Reads body)
    (hw : w ∈ Chunk.split body) (hread : Element.Reads w (.operand (.const (.str s)))) :
    Chunk.IsClosed w ∨ ∃ r, Chunk.LeftOpen body r ∧ Chunk.EndsProtected r ∧ w = '"' :: r := by
  rcases Chunk.mem_split_cases hw with hhead | hclosed | ⟨r, hopen, rfl⟩
  · obtain ⟨r, rfl⟩ := hread.head_of_str
    exact absurd rfl hhead
  · exact .inl hclosed
  · exact .inr ⟨r, hopen, h.endsProtected hopen, rfl⟩

/-- A template in which a string is left open is not read, and every string element of a tag comes
from a chunk with both of its quotes, unless a protected quote stands at the end of the open string.
A tag with such a string says something just if it does once the string is closed. -/
theorem open_string_rejected (source : Text) :
    (∀ body ∈ tagBodies source, ∀ r, Chunk.LeftOpen body r →
        ((∃ t, Tag.Reads body t) ↔
            Chunk.EndsProtected r ∧ ∃ t, Tag.Reads (body ++ ['"']) t) ∧
          (¬Chunk.EndsProtected r → ∃ err, parse source = .error err)) ∧
      ∀ body ∈ tagBodies source, ∀ t : Tag, t.Reads body → ¬Joined body →
        ∀ s, .operand (.const (.str s)) ∈ t.elements →
          ∃ w ∈ Chunk.split body, Element.Reads w (.operand (.const (.str s))) ∧
            (Chunk.IsClosed w ∨
              ∃ r, Chunk.LeftOpen body r ∧ Chunk.EndsProtected r ∧ w = '"' :: r) := by
  constructor
  · intro body hbody r hopen
    refine ⟨Tag.exists_reads_open_iff hopen, fun hends => ?_⟩
    rcases accepted_or_rejected source with haccepted | ⟨err, hrejected⟩
    · obtain ⟨t, ht⟩ := haccepted.regular.tags body hbody
      exact absurd (ht.endsProtected hopen) hends
    · exact ⟨err, parse_of_rejected hrejected⟩
  · intro body _ t ht hjoined s hs
    obtain ⟨w, hw, hread⟩ := ht.exists_chunk hjoined hs
    exact ⟨w, hw, hread, ht.closed_or_protected hw hread⟩

/-- A string that an echo leaves open, apart from the equals sign. -/
theorem leftOpen_echo {r : Text} (h : Chunk.Open r) :
    Chunk.LeftOpen ('=' :: ' ' :: '"' :: r) r := by
  refine ⟨['=', ' '], ?_, rfl, h⟩
  exact .word (c := '=') (w := []) (by decide) (by simp [Text.isSpace]) (by decide) .nil

theorem open_string_rejected_behind_closed :
    let source := spacedEcho ['"', 'a', '"'] ++ spacedEcho ['"', 'b']
    tagBodies source = [['=', ' ', '"', 'a', '"'], ['=', ' ', '"', 'b']] ∧
      Chunk.LeftOpen ['=', ' ', '"', 'b'] ['b'] ∧ ¬Chunk.EndsProtected ['b'] ∧
      (∃ err, parse source = .error err) ∧
      ∃ w ∈ Chunk.split ['=', ' ', '"', 'a', '"'],
        Element.Reads w (.operand (.const (.str ['a']))) ∧
          (Chunk.IsClosed w ∨ ∃ r, Chunk.LeftOpen ['=', ' ', '"', 'a', '"'] r ∧
            Chunk.EndsProtected r ∧ w = '"' :: r) := by
  intro source
  have hbodies : tagBodies source = [['=', ' ', '"', 'a', '"'], ['=', ' ', '"', 'b']] := by
    decide +kernel
  have hopen : Chunk.Open ['b'] := (Chunk.Inside.char (by decide) (by decide) .nil).isOpen
  have hends : ¬Chunk.EndsProtected ['b'] := by
    rw [← Chunk.endsProtected_iff hopen]
    decide
  have hreads : Tag.Reads ['=', ' ', '"', 'a', '"'] (.echo [.operand (.const (.str ['a']))]) :=
    .echo (.echo (.spaced [['"', 'a', '"']])) (by decide +kernel)
  have hjoined : ¬Joined ['=', ' ', '"', 'a', '"'] := by
    rintro ⟨c, s, h⟩
    cases h
  obtain ⟨hrejected, hclosed⟩ := open_string_rejected source
  rw [hbodies] at hrejected hclosed
  exact ⟨hbodies, leftOpen_echo hopen, hends,
    (hrejected _ (by simp) _ (leftOpen_echo hopen)).2 hends,
    hclosed _ (by simp) _ hreads hjoined _ List.mem_cons_self⟩

/-- A string is left open by a protected quote, and the template is read. -/
theorem parse_open_string_protected :
    tagBodies (spacedEcho ['"', 'a', '\\', '"']) = [['=', ' ', '"', 'a', '\\', '"']] ∧
      Chunk.LeftOpen ['=', ' ', '"', 'a', '\\', '"'] ['a', '\\', '"'] ∧
      parse (spacedEcho ['"', 'a', '\\', '"']) =
        .ok (.echo [.operand (.const (.str ['a', '\\']))] .nil) := by
  have hinside : Chunk.Inside ['a', '\\', '"'] :=
    .char (by decide) (by decide) (.pair '"' .nil)
  exact ⟨by decide +kernel, leftOpen_echo hinside.isOpen, by decide +kernel⟩

end PageTemplate
