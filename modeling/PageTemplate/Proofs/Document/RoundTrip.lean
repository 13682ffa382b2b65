import PageTemplate.Proofs.Document.Walk
import PageTemplate.Proofs.Document.Written

/-! Writing and reading back. A document that was read is written as a template that is read
as the same document. -/
namespace PageTemplate

/-! ## Written tags -/

theorem reads_echoToken {es : List Element} (h : ∀ e ∈ es, e.Writable) :
    Tag.Reads (Chunk.unsplit (echoChunks es)) (.echo es) := by
  apply Tag.Reads.echo
  · rw [split_of_isWritten (isWritten_of_mem_echoChunks h)]
    exact .echo (.spaced _)
  · rw [List.map_map]
    exact List.map_congr_left fun e he => Element.ofChunk?_source (h e he).legible

theorem LoopHead.reads_chunks {head : LoopHead} (h : head.Writable) :
    Reads (head.name :: head.start.source :: head.stop.source ::
      head.step.toList.map Operand.source) head := by
  have hread : ∀ {o : Operand}, o.Writable → Element.ofChunk? o.source = some (.operand o) :=
    fun {o} ho => Element.ofChunk?_source (Element.Writable.legible (e := .operand o) ho)
  refine .mk (hread (o := .var head.name) h.name) (hread h.start) (hread h.stop) ?_
  rw [List.map_map]
  exact List.map_congr_left fun o ho => hread (h.step o (Option.mem_toList.1 ho))

theorem reads_headToken {head : LoopHead} (h : head.Writable) :
    Tag.Reads (Chunk.unsplit head.chunks) (.opening head) := by
  refine .opening ?_ (LoopHead.reads_chunks h)
  rw [split_of_isWritten (LoopHead.isWritten_of_mem_chunks h)]
  exact .opening _ (by decide)

theorem reads_endToken : Tag.Reads endWord .closing := by
  have hword : spells endWord endWord := by decide
  exact .closing (.closing hword)

/-- The tokens of a written document say the walk through it. -/
theorem Document.reads_tokens {d : Document} (hd : d.Writable) :
    List.Forall₂ Token.Reads d.tokens d.walk := by
  induction d with
  | nil => exact .nil
  | text s rest ih => exact .cons (.text s) (ih hd.2)
  | echo es rest ih => exact .cons (.tag (reads_echoToken hd.1)) (ih hd.2)
  | loop head inner rest ihi ihr =>
    have hend : List.Forall₂ Token.Reads (endToken :: rest.tokens)
        (.tag .closing :: rest.walk) := .cons (.tag reads_endToken) (ihr hd.2.2)
    exact .cons (.tag (reads_headToken hd.1)) (List.rel_append (ihi hd.2.1) hend)

/-! ## Round trip -/

/-- A document that can be written is read back from its source. -/
theorem parse_of_writable {d : Document} (hd : d.Writable) (hdepth : d.depth ≤ depthLimit) :
    parse d.source = .ok d := by
  rw [parse_eq_ok_iff_reads, scan_source hd]
  exact ⟨rfl, hdepth, Document.reads_tokens hd⟩

/-- Every template that is read is read as a document whose source is read as the same
document. -/
theorem parse_source_of_parse {s : Text} {d : Document} (h : parse s = .ok d) :
    parse d.source = .ok d := by
  obtain ⟨hd, hdepth⟩ := writable_of_parse h
  exact parse_of_writable hd hdepth

theorem parse_source_of_parse_mixed :
    ∃ d, parse ("a\x7b$$\x7d\\\x7b$b\\\\\x7b$ for i 2.50 \"\\r\\n\\r\n\\\"$\t\x7d\" $\x7d".toList ++
        "\x7b$=i$\x7d\x7b$ End $\x7d\x7b$= 7 @f x".toList) = .ok d ∧
      parse d.source = .ok d := by
  have h : parse ("a\x7b$$\x7d\\\x7b$b\\\\\x7b$ for i 2.50 \"\\r\\n\\r\n\\\"$\t\x7d\" $\x7d".toList ++
        "\x7b$=i$\x7d\x7b$ End $\x7d\x7b$= 7 @f x".toList) =
      .ok (.text ['a'] <| .text ['{', '$', 'b', '\\'] <|
        .loop ⟨['i'], .const (.double 2.5),
            .const (.str ['\n', '\r', '\n', '"', '$', '\t', '}']), none⟩
          (.echo [.operand (.var ['i'])] .nil) <|
        .echo [.operand (.const (.int 7)), .fn ['f'], .operand (.var ['x'])] .nil) := by
    decide +kernel
  exact ⟨_, h, parse_source_of_parse h⟩

end PageTemplate
