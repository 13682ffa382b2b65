import Mathlib.Data.List.Infix
import PageTemplate.Document.Builder

/-! What a tag may say, and what is wrong with one that says nothing. A tag is an echo, a
loop head or the end of a loop by its chunks alone; how many loops are open counts only for
the last two. -/
namespace PageTemplate

/-! ## Words -/

/-- Whether a chunk is a word of capitals, each letter in either case. -/
def spells : Text → Text → Bool
  | [], [] => true
  | l :: word, c :: chunk => (c == l || c == l.toLower) && spells word chunk
  | _, _ => false

def forWord : Text := ['F', 'O', 'R']

def endWord : Text := ['E', 'N', 'D']

theorem toNat_toLower (c : Char) :
    c.toLower.toNat = if 65 ≤ c.toNat ∧ c.toNat ≤ 90 then c.toNat + 32 else c.toNat := by
  unfold Char.toLower
  split
  · rename_i h
    have hc : 65 ≤ c.toNat ∧ c.toNat ≤ 90 := h
    rw [if_pos hc]
    change (c.val + 32).toNat = c.toNat + 32
    rw [UInt32.toNat_add]
    change (c.toNat + 32) % _ = _
    omega
  · rename_i h
    have hc : ¬(65 ≤ c.toNat ∧ c.toNat ≤ 90) := h
    rw [if_neg hc]

theorem toLower_eq_toLower_iff {c l : Char} (h : 65 ≤ l.toNat ∧ l.toNat ≤ 90) :
    c.toLower = l.toLower ↔ c = l ∨ c = l.toLower := by
  have hl : l.toLower.toNat = l.toNat + 32 := by rw [toNat_toLower, if_pos h]
  simp only [← Char.toNat_inj, hl, toNat_toLower]
  split <;> omega

theorem spells_iff {word chunk : Text} (h : ∀ l ∈ word, 65 ≤ l.toNat ∧ l.toNat ≤ 90) :
    spells word chunk ↔ chunk.map Char.toLower = word.map Char.toLower := by
  induction word generalizing chunk with
  | nil => cases chunk <;> simp [spells]
  | cons l word ih =>
    cases chunk with
    | nil => simp [spells]
    | cons c chunk =>
      have hl := toLower_eq_toLower_iff (c := c) (h l (by simp))
      simp only [spells, Bool.and_eq_true, Bool.or_eq_true, beq_iff_eq, List.map_cons,
        List.cons.injEq, hl, ih fun m hm => h m (List.mem_cons_of_mem l hm)]

theorem spells_forWord_iff (chunk : Text) :
    spells forWord chunk ↔ chunk.map Char.toLower = ['f', 'o', 'r'] :=
  spells_iff (by simp [forWord])

theorem spells_endWord_iff (chunk : Text) :
    spells endWord chunk ↔ chunk.map Char.toLower = ['e', 'n', 'd'] :=
  spells_iff (by simp [endWord])

/-! ## Forms of tags -/

/-- The chunks of an echo: those after an equals sign, or the rest of the only chunk. -/
inductive EchoForm : List Text → List Text → Prop
  | spaced (chunks : List Text) : EchoForm (['='] :: chunks) chunks
  | joined (c : Char) (s : Text) : EchoForm ['=' :: c :: s] [c :: s]

/-- What a tag is by its chunks. -/
inductive TagForm.Reads : List Text → TagForm → Prop
  | echo {chunks elements : List Text} (h : EchoForm chunks elements) :
      Reads chunks (.echo elements)
  | opening {word : Text} (arguments : List Text) (h : spells forWord word) :
      Reads (word :: arguments) (.opening arguments)
  | closing {word : Text} (h : spells endWord word) : Reads [word] .closing
  | unknown {chunks : List Text} (hecho : ∀ elements, ¬EchoForm chunks elements)
      (hfor : ∀ word arguments, chunks = word :: arguments → ¬spells forWord word)
      (hend : ∀ word, chunks = [word] → ¬spells endWord word) : Reads chunks .unknown

namespace TagForm

theorem ofChunks_of_echo {chunks elements : List Text} (h : EchoForm chunks elements) :
    ofChunks chunks = .echo elements := by
  cases h with
  | spaced => simp [ofChunks]
  | joined c s => simp [ofChunks]

/-- A chunk that spells a word does not begin with an equals sign. -/
theorem ne_equals_of_spells {word chunk s : Text} (h : spells word chunk)
    (hword : word = forWord ∨ word = endWord) : chunk ≠ '=' :: s := by
  rintro rfl
  rcases hword with rfl | rfl
  · simp [forWord, spells] at h
  · simp [endWord, spells] at h

theorem ofChunks_word {word : Text} {arguments : List Text} (h : ∀ s, word ≠ '=' :: s) :
    ofChunks (word :: arguments) =
      if spells forWord word then .opening arguments
      else if spells endWord word ∧ arguments = [] then .closing
      else .unknown := by
  simp only [spells_forWord_iff, spells_endWord_iff]
  rw [ofChunks, if_neg (h [])]
  exact fun s hs _ => h s hs

theorem reads_unknown_nil : Reads [] .unknown := by
  refine .unknown ?_ ?_ ?_
  · rintro cs ⟨⟩
  · rintro word arguments ⟨⟩
  · rintro word ⟨⟩

/-- After a joined equals sign nothing may follow. -/
theorem reads_unknown_equals (c : Char) (s : Text) (chunk : Text) (chunks : List Text) :
    Reads (('=' :: c :: s) :: chunk :: chunks) .unknown := by
  refine .unknown ?_ ?_ ?_
  · rintro cs ⟨⟩
  · rintro word arguments h hword
    exact ne_equals_of_spells hword (.inl rfl) (List.cons.inj h).1.symm
  · rintro word ⟨⟩

theorem ofChunks_unknown_equals (c : Char) (s : Text) (chunk : Text) (chunks : List Text) :
    ofChunks (('=' :: c :: s) :: chunk :: chunks) = .unknown := by
  simp [ofChunks, show '='.toLower = '=' by decide]

theorem reads_ofChunks (chunks : List Text) : Reads chunks (ofChunks chunks) := by
  cases chunks with
  | nil => exact reads_unknown_nil
  | cons word arguments =>
    by_cases heq : ∃ s, word = '=' :: s
    · obtain ⟨s, rfl⟩ := heq
      cases s with
      | nil =>
        rw [ofChunks_of_echo (.spaced arguments)]
        exact .echo (.spaced arguments)
      | cons c s =>
        cases arguments with
        | nil =>
          rw [ofChunks_of_echo (.joined c s)]
          exact .echo (.joined c s)
        | cons chunk chunks =>
          rw [ofChunks_unknown_equals]
          exact reads_unknown_equals c s chunk chunks
    · rw [ofChunks_word fun s hs => heq ⟨s, hs⟩]
      split
      · rename_i hf
        exact .opening arguments hf
      · rename_i hf
        split
        · rename_i he
          rw [he.2]
          exact .closing he.1
        · rename_i he
          refine .unknown ?_ ?_ ?_
          · rintro cs (_ | _)
            · exact heq ⟨[], rfl⟩
            · exact heq ⟨_, rfl⟩
          · rintro w args h hw
            cases h
            exact hf hw
          · rintro w h hw
            cases h
            exact he ⟨hw, rfl⟩

theorem reads_iff {chunks : List Text} {f : TagForm} : Reads chunks f ↔ ofChunks chunks = f := by
  constructor
  · intro h
    cases h with
    | echo h => exact ofChunks_of_echo h
    | opening arguments h =>
      rw [ofChunks_word fun s => ne_equals_of_spells h (.inl rfl), if_pos h]
    | @closing word h =>
      have hf : ¬spells forWord word := by
        rw [spells_forWord_iff, (spells_endWord_iff word).1 h]
        simp
      rw [ofChunks_word fun s => ne_equals_of_spells h (.inr rfl), if_neg hf, if_pos ⟨h, rfl⟩]
    | unknown hecho hfor hend =>
      have hr := reads_ofChunks chunks
      generalize ofChunks chunks = f at hr
      cases hr with
      | echo h => exact absurd h (hecho _)
      | opening arguments h => exact absurd h (hfor _ _ rfl)
      | closing h => exact absurd h (hend _ rfl)
      | unknown => rfl
  · rintro rfl
    exact reads_ofChunks chunks

end TagForm

/-! ## Readers one after another -/

section Readers

variable {α β ε : Type} {f : α → Except ε β}

theorem mapM_eq_ok_iff {xs : List α} {ys : List β} :
    xs.mapM f = .ok ys ↔ xs.map f = ys.map .ok := by
  induction xs generalizing ys with
  | nil => cases ys <;> simp [pure, Except.pure]
  | cons x xs ih =>
    rw [List.mapM_cons]
    constructor
    · intro h
      cases hx : f x with
      | error e =>
        rw [hx] at h
        cases h
      | ok y =>
        cases hxs : xs.mapM f with
        | error e =>
          rw [hx, hxs] at h
          cases h
        | ok zs =>
          rw [hx, hxs] at h
          cases h
          rw [List.map_cons, List.map_cons, hx, ih.1 hxs]
    · intro h
      cases ys with
      | nil => cases h
      | cons y ys =>
        obtain ⟨hx, hxs⟩ := List.cons.inj h
        rw [hx, ih.2 hxs]
        rfl

/-- The first that fails is the one that is reported. -/
theorem mapM_eq_error_iff {xs : List α} {err : ε} :
    xs.mapM f = .error err ↔ ∃ before x after, xs = before ++ x :: after ∧
      (∀ z ∈ before, ∃ y, f z = .ok y) ∧ f x = .error err := by
  induction xs with
  | nil => simp [pure, Except.pure]
  | cons x xs ih =>
    rw [List.mapM_cons]
    constructor
    · intro h
      cases hx : f x with
      | error e =>
        rw [hx] at h
        cases h
        exact ⟨[], x, xs, rfl, by simp, hx⟩
      | ok y =>
        cases hxs : xs.mapM f with
        | ok ys =>
          rw [hx, hxs] at h
          cases h
        | error e =>
          rw [hx, hxs] at h
          cases h
          obtain ⟨before, w, after, rfl, hbefore, hw⟩ := ih.1 hxs
          exact ⟨x :: before, w, after, rfl, List.forall_mem_cons.2 ⟨⟨y, hx⟩, hbefore⟩, hw⟩
    · rintro ⟨before, w, after, heq, hbefore, hw⟩
      cases before with
      | nil =>
        cases heq
        rw [hw]
        rfl
      | cons b before =>
        cases heq
        obtain ⟨⟨y, hy⟩, hbefore⟩ := List.forall_mem_cons.1 hbefore
        rw [hy, ih.2 ⟨before, w, after, rfl, hbefore, hw⟩]
        rfl

/-- Two ways to tell what each of a list is read as tell the same of the list. -/
theorem map_eq_map_iff {γ δ : Type} {g : α → γ} {h : α → δ} {k : β → γ} {l : β → δ}
    (hiff : ∀ x y, g x = k y ↔ h x = l y) {xs : List α} {ys : List β} :
    xs.map g = ys.map k ↔ xs.map h = ys.map l := by
  induction xs generalizing ys with
  | nil => cases ys <;> simp
  | cons x xs ih => cases ys <;> simp [hiff, ih]

end Readers

/-! ## Elements and loop heads -/

theorem readElement_eq_ok_iff {chunk : Text} {e : Element} :
    readElement chunk = .ok e ↔ Element.ofChunk? chunk = some e := by
  cases h : Element.ofChunk? chunk <;> simp [readElement, h]

theorem readElement_eq_error_iff {chunk : Text} {err : ParseError} :
    readElement chunk = .error err ↔
      Element.ofChunk? chunk = none ∧ err = .noElement chunk := by
  cases h : Element.ofChunk? chunk <;> simp [readElement, h, eq_comm]

theorem readElements_eq_mapM (chunks : List Text) :
    readElements chunks = chunks.mapM readElement := by
  induction chunks with
  | nil => rfl
  | cons chunk chunks ih => rw [List.mapM_cons, readElements, ih]

theorem readElements_eq_ok_iff {chunks : List Text} {es : List Element} :
    readElements chunks = .ok es ↔ chunks.map Element.ofChunk? = es.map some := by
  rw [readElements_eq_mapM, mapM_eq_ok_iff]
  exact map_eq_map_iff fun _ _ => readElement_eq_ok_iff

/-- The first chunk that is no element is the one that is reported. -/
theorem readElements_eq_error_iff {chunks : List Text} {err : ParseError} :
    readElements chunks = .error err ↔
      ∃ before chunk after, chunks = before ++ chunk :: after ∧
        (∀ c ∈ before, ∃ e, Element.ofChunk? c = some e) ∧
        Element.ofChunk? chunk = none ∧ err = .noElement chunk := by
  rw [readElements_eq_mapM, mapM_eq_error_iff]
  simp only [readElement_eq_ok_iff, readElement_eq_error_iff]

namespace LoopHead

theorem readName_eq_ok_iff {chunk name : Text} :
    readName chunk = .ok name ↔ Element.ofChunk? chunk = some (.operand (.var name)) := by
  unfold readName
  split <;> simp_all

theorem readName_eq_error_iff {chunk : Text} {err : ParseError} :
    readName chunk = .error err ↔
      (∀ name, Element.ofChunk? chunk ≠ some (.operand (.var name))) ∧
        err = .loopVariable chunk := by
  unfold readName
  split <;> simp_all [eq_comm]

theorem readArgument_eq_ok_iff {chunk : Text} {o : Operand} :
    readArgument chunk = .ok o ↔ Element.ofChunk? chunk = some (.operand o) := by
  unfold readArgument
  split <;> simp_all

theorem readArgument_eq_error_iff {chunk : Text} {err : ParseError} :
    readArgument chunk = .error err ↔
      (∀ o, Element.ofChunk? chunk ≠ some (.operand o)) ∧ err = .loopArgument chunk := by
  unfold readArgument
  split <;> simp_all [eq_comm]

/-- What the arguments of a loop head say: a variable, its start and end, and a step if there
is one. -/
inductive Reads : List Text → LoopHead → Prop
  | mk {chunk start stop : Text} {steps : List Text} {head : LoopHead}
      (hname : Element.ofChunk? chunk = some (.operand (.var head.name)))
      (hstart : Element.ofChunk? start = some (.operand head.start))
      (hstop : Element.ofChunk? stop = some (.operand head.stop))
      (hstep : steps.map Element.ofChunk? = head.step.toList.map fun o => some (.operand o)) :
      Reads (chunk :: start :: stop :: steps) head

/-- What is wrong with the arguments of a loop head: their number, the first one, or the first
of the others that is no operand. -/
inductive Wrong : List Text → ParseError → Prop
  | arity {arguments : List Text} (h3 : arguments.length ≠ 3) (h4 : arguments.length ≠ 4) :
      Wrong arguments (.loopArity arguments.length)
  | notVariable {chunk : Text} {arguments : List Text}
      (hlength : arguments.length = 2 ∨ arguments.length = 3)
      (h : ∀ name, Element.ofChunk? chunk ≠ some (.operand (.var name))) :
      Wrong (chunk :: arguments) (.loopVariable chunk)
  | argument {chunk name bad : Text} {before after : List Text}
      (hlength : (before ++ bad :: after).length = 2 ∨ (before ++ bad :: after).length = 3)
      (hname : Element.ofChunk? chunk = some (.operand (.var name)))
      (hbefore : ∀ c ∈ before, ∃ o, Element.ofChunk? c = some (.operand o))
      (hbad : ∀ o, Element.ofChunk? bad ≠ some (.operand o)) :
      Wrong (chunk :: (before ++ bad :: after)) (.loopArgument bad)

/-- Arguments of the right number are a name and operands. As many operands are read as there
are chunks for them, so the last case is never met. -/
theorem ofArguments_cons (chunk : Text) {arguments : List Text}
    (hlength : arguments.length = 2 ∨ arguments.length = 3) :
    ofArguments (chunk :: arguments) = (do
      let name ← readName chunk
      match ← arguments.mapM readArgument with
      | start :: stop :: steps => .ok ⟨name, start, stop, steps.head?⟩
      | _ => .error (.loopArity arguments.length)) := by
  rcases hlength with hlength | hlength
  · obtain ⟨a, b, rfl⟩ := List.length_eq_two.1 hlength
    simp only [ofArguments, List.mapM_cons, List.mapM_nil]
    cases readName chunk <;> cases readArgument a <;> cases readArgument b <;> rfl
  · obtain ⟨a, b, c, rfl⟩ := List.length_eq_three.1 hlength
    simp only [ofArguments, List.mapM_cons, List.mapM_nil]
    cases readName chunk <;> cases readArgument a <;> cases readArgument b <;>
      cases readArgument c <;> rfl

theorem readArguments_eq_ok_iff {chunks : List Text} {os : List Operand} :
    chunks.mapM readArgument = .ok os ↔
      chunks.map Element.ofChunk? = os.map fun o => some (.operand o) := by
  rw [mapM_eq_ok_iff]
  exact map_eq_map_iff fun _ _ => readArgument_eq_ok_iff

theorem ofArguments_of_reads {arguments : List Text} {head : LoopHead}
    (h : Reads arguments head) : ofArguments arguments = .ok head := by
  cases h with
  | @mk chunk start stop steps head hname hstart hstop hstep =>
    have hread : (start :: stop :: steps).mapM readArgument =
        .ok (head.start :: head.stop :: head.step.toList) := by
      rw [readArguments_eq_ok_iff, List.map_cons, List.map_cons, hstart, hstop, hstep]
      rfl
    have hsteps : steps.length = head.step.toList.length := by
      simpa using congrArg List.length hstep
    obtain ⟨name, a, b, step⟩ := head
    have hlength : (start :: stop :: steps).length = 2 ∨ (start :: stop :: steps).length = 3 := by
      cases step <;> simp [hsteps]
    rw [ofArguments_cons chunk hlength, readName_eq_ok_iff.2 hname, hread]
    cases step <;> rfl

theorem ofArguments_of_wrong {arguments : List Text} {err : ParseError}
    (h : Wrong arguments err) : ofArguments arguments = .error err := by
  cases h with
  | arity h3 h4 =>
    unfold ofArguments
    split
    · simp at h3
    · simp at h4
    · rfl
  | notVariable hlength h =>
    rw [ofArguments_cons _ hlength, readName_eq_error_iff.2 ⟨h, rfl⟩]
    rfl
  | @argument chunk name bad before after hlength hname hbefore hbad =>
    have hread : (before ++ bad :: after).mapM readArgument = .error (.loopArgument bad) := by
      have hbad := readArgument_eq_error_iff.2 ⟨hbad, rfl⟩
      refine mapM_eq_error_iff.2 ⟨before, bad, after, rfl, ?_, hbad⟩
      exact fun c hc => (hbefore c hc).imp fun _ => readArgument_eq_ok_iff.2
    rw [ofArguments_cons _ hlength, readName_eq_ok_iff.2 hname, hread]
    rfl

/-- The arguments say a loop head or something is wrong with them. -/
theorem reads_or_wrong (arguments : List Text) :
    (∃ head, Reads arguments head) ∨ ∃ err, Wrong arguments err := by
  by_cases hlength : arguments.length = 3 ∨ arguments.length = 4
  · cases arguments with
    | nil => simp at hlength
    | cons chunk arguments =>
      have hlength : arguments.length = 2 ∨ arguments.length = 3 := by simpa using hlength
      by_cases hname : ∃ name, Element.ofChunk? chunk = some (.operand (.var name))
      · obtain ⟨name, hname⟩ := hname
        cases hread : arguments.mapM readArgument with
        | ok os =>
          have hos := readArguments_eq_ok_iff.1 hread
          have hos' : os.length = arguments.length := by
            simpa using (congrArg List.length hos).symm
          rcases hlength with hlength | hlength
          · obtain ⟨a, b, rfl⟩ := List.length_eq_two.1 hlength
            obtain ⟨start, stop, rfl⟩ := List.length_eq_two.1 (hos'.trans hlength)
            simp only [List.map_cons, List.map_nil, List.cons.injEq, and_true] at hos
            exact .inl ⟨⟨name, start, stop, none⟩, .mk hname hos.1 hos.2 rfl⟩
          · obtain ⟨a, b, c, rfl⟩ := List.length_eq_three.1 hlength
            obtain ⟨start, stop, step, rfl⟩ := List.length_eq_three.1 (hos'.trans hlength)
            simp only [List.map_cons, List.map_nil, List.cons.injEq, and_true] at hos
            refine .inl ⟨⟨name, start, stop, some step⟩, .mk hname hos.1 hos.2.1 ?_⟩
            simpa using hos.2.2
        | error err =>
          obtain ⟨before, bad, after, rfl, hbefore, hbad⟩ := mapM_eq_error_iff.1 hread
          refine .inr ⟨_, .argument hlength hname ?_ (readArgument_eq_error_iff.1 hbad).1⟩
          exact fun c hc => (hbefore c hc).imp fun _ => readArgument_eq_ok_iff.1
      · exact .inr ⟨_, .notVariable hlength fun name h => hname ⟨name, h⟩⟩
  · exact .inr ⟨_, .arity (fun h => hlength (.inl h)) fun h => hlength (.inr h)⟩

end LoopHead

/-! ## Tags -/

/-- A tag that says something. -/
inductive Tag
  | echo (elements : List Element)
  | opening (head : LoopHead)
  | closing

/-- What a tag body says. -/
inductive Tag.Reads (body : Text) : Tag → Prop
  | echo {chunks : List Text} {elements : List Element}
      (hform : TagForm.Reads (Chunk.split body) (.echo chunks))
      (helements : chunks.map Element.ofChunk? = elements.map some) : Reads body (.echo elements)
  | opening {arguments : List Text} {head : LoopHead}
      (hform : TagForm.Reads (Chunk.split body) (.opening arguments))
      (hhead : LoopHead.Reads arguments head) : Reads body (.opening head)
  | closing (hform : TagForm.Reads (Chunk.split body) .closing) : Reads body .closing

/-- What is wrong with a tag body where some loops are open. -/
inductive Tag.Wrong (loops : Nat) (body : Text) : ParseError → Prop
  | unknown (hform : TagForm.Reads (Chunk.split body) .unknown) :
      Wrong loops body (.unknownTag body)
  | noElement {before after : List Text} {chunk : Text}
      (hform : TagForm.Reads (Chunk.split body) (.echo (before ++ chunk :: after)))
      (hbefore : ∀ c ∈ before, ∃ e, Element.ofChunk? c = some e)
      (hchunk : Element.ofChunk? chunk = none) : Wrong loops body (.noElement chunk)
  | tooDeep {arguments : List Text}
      (hform : TagForm.Reads (Chunk.split body) (.opening arguments))
      (hloops : depthLimit ≤ loops) : Wrong loops body (.tooDeep depthLimit)
  | head {arguments : List Text} {err : ParseError}
      (hform : TagForm.Reads (Chunk.split body) (.opening arguments))
      (hloops : loops < depthLimit) (hhead : LoopHead.Wrong arguments err) : Wrong loops body err
  | strayEnd (hform : TagForm.Reads (Chunk.split body) .closing) (hloops : loops = 0) :
      Wrong loops body .strayEnd

/-- Whether a tag may stand where some loops are open. -/
def Tag.Fits (loops : Nat) : Tag → Prop
  | .echo _ => True
  | .opening _ => loops < depthLimit
  | .closing => 0 < loops

namespace Tag

/-- A tag says something that may stand where it is, or something is wrong with it. -/
theorem fits_or_wrong (loops : Nat) (body : Text) :
    (∃ t, Reads body t ∧ t.Fits loops) ∨ ∃ err, Wrong loops body err := by
  cases hform : TagForm.ofChunks (Chunk.split body) with
  | echo chunks =>
    have hform := TagForm.reads_iff.2 hform
    cases hread : readElements chunks with
    | ok es => exact .inl ⟨_, .echo hform (readElements_eq_ok_iff.1 hread), trivial⟩
    | error err =>
      obtain ⟨before, chunk, after, rfl, hb, hc, rfl⟩ := readElements_eq_error_iff.1 hread
      exact .inr ⟨_, .noElement hform hb hc⟩
  | opening arguments =>
    have hform := TagForm.reads_iff.2 hform
    rcases Nat.lt_or_ge loops depthLimit with hloops | hloops
    · rcases LoopHead.reads_or_wrong arguments with ⟨head, hhead⟩ | ⟨err, hhead⟩
      · exact .inl ⟨_, .opening hform hhead, hloops⟩
      · exact .inr ⟨err, .head hform hloops hhead⟩
    · exact .inr ⟨_, .tooDeep hform hloops⟩
  | closing =>
    have hform := TagForm.reads_iff.2 hform
    rcases Nat.eq_zero_or_pos loops with hloops | hloops
    · exact .inr ⟨_, .strayEnd hform hloops⟩
    · exact .inl ⟨_, .closing hform, hloops⟩
  | unknown => exact .inr ⟨_, .unknown (TagForm.reads_iff.2 hform)⟩

end Tag

/-- What a tag does to a builder. -/
inductive Builder.Takes (b : Builder) : Tag → Builder → Prop
  | echo (elements : List Element) :
      Takes b (.echo elements) { b with current := .echo elements b.current }
  | opening {head : LoopHead} (hloops : b.loops.length < depthLimit) :
      Takes b (.opening head) (b.openLoop head)
  | closing {l : OpenLoop} {ls : List OpenLoop} (hloops : b.loops = l :: ls) :
      Takes b .closing ⟨.loop l.head b.current.reverse l.before, ls⟩

namespace Builder

variable {b b' : Builder} {body : Text}

theorem exists_takes_of_fits {t : Tag} (h : t.Fits b.loops.length) : ∃ b', b.Takes t b' := by
  cases t with
  | echo es => exact ⟨_, .echo es⟩
  | opening head => exact ⟨_, .opening h⟩
  | closing =>
    obtain ⟨l, ls, hloops⟩ := List.exists_cons_of_length_pos h
    exact ⟨_, .closing hloops⟩

theorem addTag_of_takes {t : Tag} (ht : t.Reads body) (h : b.Takes t b') :
    b.addTag body = .ok b' := by
  unfold addTag
  cases ht with
  | echo hform helements =>
    cases h with
    | echo =>
      rw [TagForm.reads_iff.1 hform]
      simp only [readElements_eq_ok_iff.2 helements]
      rfl
  | opening hform hhead =>
    cases h with
    | opening hloops =>
      rw [TagForm.reads_iff.1 hform]
      simp only [if_neg (Nat.not_le.2 hloops), LoopHead.ofArguments_of_reads hhead]
      rfl
  | closing hform =>
    cases h with
    | closing hloops =>
      rw [TagForm.reads_iff.1 hform]
      simp only [closeLoop, hloops]

theorem addTag_of_wrong {err : ParseError} (h : Tag.Wrong b.loops.length body err) :
    b.addTag body = .error err := by
  unfold addTag
  cases h with
  | unknown hform => rw [TagForm.reads_iff.1 hform]
  | noElement hform hbefore hchunk =>
    rw [TagForm.reads_iff.1 hform]
    simp only [readElements_eq_error_iff.2 ⟨_, _, _, rfl, hbefore, hchunk, rfl⟩]
    rfl
  | tooDeep hform hloops =>
    rw [TagForm.reads_iff.1 hform]
    simp only [if_pos hloops]
  | head hform hloops hhead =>
    rw [TagForm.reads_iff.1 hform]
    simp only [if_neg (Nat.not_le.2 hloops), LoopHead.ofArguments_of_wrong hhead]
    rfl
  | strayEnd hform hloops =>
    rw [TagForm.reads_iff.1 hform]
    simp only [closeLoop, List.eq_nil_of_length_eq_zero hloops]

/-- Nothing is wrong with a tag that may stand where it is. -/
theorem not_wrong_of_fits {loops : Nat} {t : Tag} {err : ParseError} (ht : t.Reads body)
    (hfits : t.Fits loops) : ¬Tag.Wrong loops body err := by
  intro hw
  let b : Builder := ⟨.nil, List.replicate loops ⟨⟨[], .var [], .var [], none⟩, .nil⟩⟩
  have hb : b.loops.length = loops := List.length_replicate
  rw [← hb] at hfits hw
  obtain ⟨b', hb'⟩ := exists_takes_of_fits hfits
  have hok := addTag_of_takes ht hb'
  rw [addTag_of_wrong hw] at hok
  cases hok

theorem addTag_eq_ok_iff :
    b.addTag body = .ok b' ↔ ∃ t, Tag.Reads body t ∧ b.Takes t b' := by
  constructor
  · intro h
    rcases Tag.fits_or_wrong b.loops.length body with ⟨t, ht, hfits⟩ | ⟨err, hw⟩
    · obtain ⟨c, hc⟩ := exists_takes_of_fits hfits
      rw [addTag_of_takes ht hc] at h
      cases h
      exact ⟨t, ht, hc⟩
    · rw [addTag_of_wrong hw] at h
      cases h
  · rintro ⟨t, ht, h⟩
    exact addTag_of_takes ht h

end Builder

theorem parse_eq (s : Text) :
    parse s = (Builder.empty.addAll (scan s).tokens).bind fun b =>
      match (scan s).fault with
      | some fault => .error (.scan fault)
      | none => b.finish :=
  rfl

end PageTemplate
