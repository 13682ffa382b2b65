import PageTemplate.CommandLine
import PageTemplate.Context.Basic
import PageTemplate.Context.Capture
import PageTemplate.Context.Parameters
import PageTemplate.Document.Basic
import PageTemplate.Document.Builder
import PageTemplate.Document.Source
import PageTemplate.Document.Tag
import PageTemplate.Element.Basic
import PageTemplate.Element.Chunk
import PageTemplate.Element.Literal
import PageTemplate.Element.OfChunk
import PageTemplate.Main
import PageTemplate.Number.Decimal
import PageTemplate.Number.Double
import PageTemplate.Number.Numeral
import PageTemplate.Number.Pattern
import PageTemplate.Number.Rounding
import PageTemplate.Number.Shortest
import PageTemplate.Program
import PageTemplate.Render.Builtin
import PageTemplate.Render.Document
import PageTemplate.Render.Echo
import PageTemplate.Render.Stack
import PageTemplate.Response.Basic
import PageTemplate.Response.Encoding
import PageTemplate.Response.Header
import PageTemplate.Response.Sink
import PageTemplate.Settings.Basic
import PageTemplate.Settings.Directive
import PageTemplate.Settings.Line
import PageTemplate.Source.Delimiter
import PageTemplate.Source.Scan
import PageTemplate.Source.Scanner
import PageTemplate.Source.Token
import PageTemplate.Text.Path
import PageTemplate.Text.Quoted
import PageTemplate.Text.Space
import PageTemplate.Text.Unprintable
import PageTemplate.Value.Basic
import PageTemplate.Value.Bindings
import PageTemplate.Value.Cell
import PageTemplate.Value.NamedStacks
import PageTemplate.Value.Registry
import PageTemplate.Proofs.Number.Binary
import PageTemplate.Proofs.Number.Exact
import PageTemplate.Proofs.Number.Decimal
import PageTemplate.Proofs.Number.ReadBack
import PageTemplate.Proofs.Element.Literal
import PageTemplate.Proofs.Source.Closing
import PageTemplate.Proofs.Element.Chunk
import PageTemplate.Proofs.Element.Source
import PageTemplate.Proofs.Document.Grammar
import PageTemplate.Proofs.Document.Writable
import PageTemplate.Proofs.Document.Written
import PageTemplate.Proofs.Document.RoundTrip
import PageTemplate.Proofs.Render.Bindings
import PageTemplate.Proofs.Render.Concatenation
import PageTemplate.Proofs.Document.Acceptance
import PageTemplate.Proofs.Render.Lookup
import PageTemplate.Proofs.Render.Scoping
import PageTemplate.Proofs.Document.Substitution
import PageTemplate.Proofs.Number.Whole
import PageTemplate.Proofs.Render.Outcome
import PageTemplate.Proofs.Render.Substitution
import PageTemplate.Proofs.Render.Renaming
import PageTemplate.Proofs.Render.Unrolling
import PageTemplate.Proofs.Render.Lockstep
import PageTemplate.Proofs.Render.Journal
import PageTemplate.Proofs.Response.Protocol
import PageTemplate.Proofs.Response.Agreement
import PageTemplate.Proofs.Source.Scanner
import PageTemplate.Proofs.Document.Walk
import PageTemplate.Proofs.Render.Isolation
import PageTemplate.Proofs.Response.Truncation
import PageTemplate.Proofs.Source.Spelling
import PageTemplate.Proofs.Settings.Argument
import PageTemplate.Proofs.Settings.Entry
import PageTemplate.Proofs.Settings.Writable
import PageTemplate.Proofs.Settings.RoundTrip
import PageTemplate.Proofs.Render.Restoration
import PageTemplate.Proofs.Render.Arity
import PageTemplate.Proofs.Render.Depth
import PageTemplate.Proofs.Render.Frame
import PageTemplate.Proofs.Number.Integer
import PageTemplate.Proofs.Response.Framing
import PageTemplate.Proofs.Settings.Response
import PageTemplate.Proofs.Program.Tour
import PageTemplate.Proofs.Render.Expression
import PageTemplate.Proofs.Number.Layout
import PageTemplate.Proofs.Number.Rounding
import PageTemplate.Proofs.Element.Quoted
import PageTemplate.Proofs.Document.Echo
import PageTemplate.Proofs.Element.Grammar
import PageTemplate.Document.Arena
import PageTemplate.Proofs.Document.Arena
import PageTemplate.Proofs.Document.Tree
import PageTemplate.Proofs.Number.Quoting
import PageTemplate.Proofs.Element.OpenString
import PageTemplate.Proofs.Document.OpenString
import PageTemplate.Proofs.Number.Nearest
import PageTemplate.Proofs.Number.Narrowing
import PageTemplate.Proofs.Render.Counting
import PageTemplate.Proofs.Element.NormalForm
import PageTemplate.Proofs.Source.Reading
import PageTemplate.Proofs.Settings.BadLines
import PageTemplate.Proofs.CommandLine.Spelling
import PageTemplate.Proofs.Value.Registry
import PageTemplate.Proofs.Render.Turns
import PageTemplate.Proofs.Document.Scanning
