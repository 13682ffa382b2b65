import PageTemplate.Proofs.Document.Grammar
import PageTemplate.Proofs.Element.Source

/-! Documents that can be written. What a template is read as has no empty text, no text in a
tag that would close the tag, and no more loops around each other than may be open. -/
namespace PageTemplate

/-- A loop head that a tag can say. -/
structure LoopHead.Writable (h : LoopHead) : Prop where
  name : isIdentifier h.name
  start : h.start.Writable
  stop : h.stop.Writable
  step : ∀ o ∈ h.step, o.Writable

namespace Document

/-- No text is empty, and tags can say what is in them. -/
def Writable : Document → Prop
  | .nil => True
  | .text s rest => s ≠ [] ∧ rest.Writable
  | .echo es rest => (∀ e ∈ es, e.Writable) ∧ rest.Writable
  | .loop h inner rest => h.Writable ∧ inner.Writable ∧ rest.Writable

/-- How many loops stand around each other. -/
def depth : Document → Nat
  | .nil => 0
  | .text _ rest => rest.depth
  | .echo _ rest => rest.depth
  | .loop _ inner rest => max (inner.depth + 1) rest.depth

theorem writable_append {d e : Document} : (d ++ e).Writable ↔ d.Writable ∧ e.Writable := by
  induction d with
  | nil => simp [Writable]
  | text s rest ih => simp [Writable, ih, and_assoc]
  | echo es rest ih => simp [Writable, ih, and_assoc]
  | loop h inner rest _ ih => simp [Writable, ih, and_assoc]

theorem depth_append (d e : Document) : (d ++ e).depth = max d.depth e.depth := by
  induction d with
  | nil => simp [depth]
  | text s rest ih => simp [depth, ih]
  | echo es rest ih => simp [depth, ih]
  | loop h inner rest _ ih => simp [depth, ih, Nat.max_assoc]

theorem writable_reverse {d : Document} : d.reverse.Writable ↔ d.Writable := by
  induction d with
  | nil => rfl
  | text s rest ih => simp [writable_append, Writable, ih, and_comm]
  | echo es rest ih => simp [writable_append, Writable, ih, and_comm]
  | loop h inner rest _ ih =>
    simp only [reverse_loop, writable_append, Writable, ih, and_true]
    constructor
    · rintro ⟨hr, hh, hi⟩
      exact ⟨hh, hi, hr⟩
    · rintro ⟨hh, hi, hr⟩
      exact ⟨hr, hh, hi⟩

theorem depth_reverse (d : Document) : d.reverse.depth = d.depth := by
  induction d with
  | nil => rfl
  | text s rest ih => simp [depth_append, depth, ih]
  | echo es rest ih => simp [depth_append, depth, ih]
  | loop h inner rest _ ih => simp [depth_append, depth, ih, Nat.max_comm]

end Document

/-! ## Tokens -/

/-- A token that a template can have: a text that is not empty, or a tag that is not closed
before its end. -/
def Token.Sound : Token → Prop
  | .text s => s ≠ []
  | .tag body => ¬Closes body

theorem Scan.sound_of_mem_emit {mode : Mode} {s : Text} {after : Scan}
    (ht : ∀ t ∈ after.tokens, t.Sound) (t : Token)
    (h : t ∈ (emit mode (mode.run s).content after).tokens) : t.Sound := by
  unfold emit at h
  split at h
  · exact ht t h
  · rename_i hne
    rcases List.mem_cons.1 h with rfl | h
    · cases mode with
      | text => exact hne
      | tag =>
        intro hc
        exact TokenRun.not_closes_tag_content s (hc.mono (Text.trim_isInfix _))
    · exact ht t h

theorem Scan.sound_of_mem {size : Nat} {mode : Mode} {s : Text} :
    ∀ t ∈ (ofRest size mode s).tokens, t.Sound := by
  fun_induction ofRest size mode s with
  | case1 mode s r hstop => exact sound_of_mem_emit (by simp)
  | case2 mode s r c hstop => simp
  | case3 mode s r rest hstop ih => exact sound_of_mem_emit ih

theorem sound_of_mem_scan {s : Text} : ∀ t ∈ (scan s).tokens, t.Sound := Scan.sound_of_mem

/-! ## Tags -/

theorem TagForm.Reads.part_of_echo {body : Text} {chunks : List Text}
    (h : TagForm.Reads (Chunk.split body) (.echo chunks)) : ∀ c ∈ chunks, c <:+: body := by
  intro c hc
  generalize hsplit : Chunk.split body = split at h
  cases h with
  | echo h =>
    cases h with
    | spaced =>
      apply Chunk.infix_of_mem_split
      rw [hsplit]
      exact List.mem_cons_of_mem _ hc
    | joined d s =>
      rw [List.mem_singleton.1 hc]
      have hin : ('=' :: d :: s) <:+: body := by
        apply Chunk.infix_of_mem_split
        rw [hsplit]
        exact List.mem_singleton_self _
      exact (List.suffix_cons _ _).isInfix.trans hin

theorem TagForm.Reads.part_of_opening {body : Text} {arguments : List Text}
    (h : TagForm.Reads (Chunk.split body) (.opening arguments)) :
    ∀ c ∈ arguments, c <:+: body := by
  intro c hc
  generalize hsplit : Chunk.split body = split at h
  cases h with
  | opening _ h =>
    apply Chunk.infix_of_mem_split
    rw [hsplit]
    exact List.mem_cons_of_mem _ hc

theorem writable_of_part {body chunk : Text} {e : Element} (hbody : ¬Closes body)
    (hchunk : chunk <:+: body) (h : Element.ofChunk? chunk = some e) : e.Writable :=
  Element.writable_of_ofChunk? h fun hc => hbody (hc.mono hchunk)

/-- The elements of an echo that was read can be written. -/
theorem writable_of_readEcho {body : Text} {es : List Element} (hbody : ¬Closes body)
    (h : Tag.Reads body (.echo es)) : ∀ e ∈ es, e.Writable := by
  intro e he
  cases h with
  | @echo chunks _ hform helements =>
    have hmem : some e ∈ chunks.map Element.ofChunk? := by
      rw [helements]
      exact List.mem_map_of_mem he
    obtain ⟨c, hc, hce⟩ := List.mem_map.1 hmem
    exact writable_of_part hbody (hform.part_of_echo c hc) hce

/-- A loop head that was read can be written. -/
theorem writable_of_readHead {body : Text} {head : LoopHead} (hbody : ¬Closes body)
    (h : Tag.Reads body (.opening head)) : head.Writable := by
  cases h with
  | opening hform hhead =>
    have hpart := hform.part_of_opening
    cases hhead with
    | @mk chunk start stop steps _ hname hstart hstop hstep =>
      refine ⟨writable_of_part hbody (hpart chunk (by simp)) hname,
        writable_of_part hbody (hpart start (by simp)) hstart,
        writable_of_part hbody (hpart stop (by simp)) hstop, ?_⟩
      intro o ho
      have hmem : some (Element.operand o) ∈ steps.map Element.ofChunk? := by
        rw [hstep]
        exact List.mem_map.2 ⟨o, Option.mem_toList.2 ho, rfl⟩
      obtain ⟨c, hc, hco⟩ := List.mem_map.1 hmem
      exact writable_of_part hbody (hpart c (by simp [hc])) hco

/-! ## Builders -/

/-- Open loops with writable heads and nodes, none of them too deep where it stands. -/
def SoundLoops : List OpenLoop → Prop
  | [] => True
  | l :: ls =>
    l.head.Writable ∧ l.before.Writable ∧ l.before.depth + ls.length ≤ depthLimit ∧ SoundLoops ls

/-- A builder whose document so far can be written. -/
structure Builder.Sound (b : Builder) : Prop where
  current : b.current.Writable
  depth : b.current.depth + b.loops.length ≤ depthLimit
  loops : SoundLoops b.loops

namespace Builder

theorem sound_empty : Sound empty :=
  ⟨trivial, by decide, trivial⟩

theorem Sound.takes {b b' : Builder} {body : Text} {t : Tag} (hb : b.Sound)
    (hbody : ¬Closes body) (ht : t.Reads body) (h : b.Takes t b') : b'.Sound := by
  cases h with
  | echo es => exact ⟨⟨writable_of_readEcho hbody ht, hb.current⟩, hb.depth, hb.loops⟩
  | opening hloops =>
    refine ⟨trivial, ?_, writable_of_readHead hbody ht, hb.current, hb.depth, hb.loops⟩
    simp only [openLoop, Document.depth, List.length_cons]
    omega
  | @closing l ls hloops =>
    have hs := hb.loops
    have hd := hb.depth
    rw [hloops] at hs hd
    obtain ⟨hhead, hbefore, hdepth, hls⟩ := hs
    refine ⟨⟨hhead, Document.writable_reverse.2 hb.current, hbefore⟩, ?_, hls⟩
    simp only [Document.depth, Document.depth_reverse, List.length_cons] at hd ⊢
    omega

theorem Sound.add {b b' : Builder} {t : Token} (hb : b.Sound) (ht : t.Sound)
    (h : b.add t = .ok b') : b'.Sound := by
  cases t with
  | text s =>
    cases h
    exact ⟨⟨ht, hb.current⟩, hb.depth, hb.loops⟩
  | tag body =>
    obtain ⟨tag, htag, htakes⟩ := addTag_eq_ok_iff.1 h
    exact hb.takes ht htag htakes

theorem addAll_cons (b : Builder) (t : Token) (ts : List Token) :
    b.addAll (t :: ts) = (b.add t).bind (·.addAll ts) :=
  rfl

theorem addAll_cons_eq_ok_iff {b b' : Builder} {t : Token} {ts : List Token} :
    b.addAll (t :: ts) = .ok b' ↔ ∃ c, b.add t = .ok c ∧ c.addAll ts = .ok b' := by
  rw [addAll_cons]
  cases b.add t <;> simp [Except.bind]

theorem Sound.addAll {b b' : Builder} {ts : List Token} (hb : b.Sound) (hts : ∀ t ∈ ts, t.Sound)
    (h : b.addAll ts = .ok b') : b'.Sound := by
  induction ts generalizing b with
  | nil =>
    cases h
    exact hb
  | cons t ts ih =>
    obtain ⟨c, hadd, hrest⟩ := addAll_cons_eq_ok_iff.1 h
    exact ih (hb.add (hts t (by simp)) hadd) (fun u hu => hts u (by simp [hu])) hrest

end Builder

/-! ## Parsed documents -/

theorem parse_eq_ok_iff {s : Text} {d : Document} :
    parse s = .ok d ↔ (scan s).fault = none ∧
      ∃ b, Builder.empty.addAll (scan s).tokens = .ok b ∧ b.finish = .ok d := by
  rw [parse_eq]
  cases Builder.empty.addAll (scan s).tokens with
  | error err => simp [Except.bind]
  | ok b => cases (scan s).fault <;> simp [Except.bind]

/-- What a template is read as can be written, with no more loops around each other than the
limit. -/
theorem writable_of_parse {s : Text} {d : Document} (h : parse s = .ok d) :
    d.Writable ∧ d.depth ≤ depthLimit := by
  obtain ⟨-, b, hb, hfinish⟩ := parse_eq_ok_iff.1 h
  have hs := Builder.sound_empty.addAll sound_of_mem_scan hb
  unfold Builder.finish at hfinish
  split at hfinish
  · cases hfinish
    have hd := hs.depth
    refine ⟨Document.writable_reverse.2 hs.current, ?_⟩
    rw [Document.depth_reverse]
    omega
  · cases hfinish

end PageTemplate
