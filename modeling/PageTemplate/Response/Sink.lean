/-! Byte sinks. A sink with a limit takes what fits and refuses the rest. -/
namespace PageTemplate

/-- The bytes taken so far, and how many more fit if there is a limit. -/
structure Sink where
  bytes : Array UInt8
  room : Option Nat
deriving DecidableEq

namespace Sink

def unlimited : Sink := ⟨#[], none⟩

def limited (n : Nat) : Sink := ⟨#[], some n⟩

/-- Writes as much as fits, and tells whether that was all. -/
def write (data : List UInt8) : Sink → Bool × Sink
  | ⟨bytes, none⟩ => (true, ⟨bytes ++ data, none⟩)
  | ⟨bytes, some n⟩ =>
    (data.length ≤ n, ⟨bytes ++ data.take n, some (n - data.length)⟩)

theorem bytes_append_append (bytes : Array UInt8) (a b : List UInt8) :
    bytes ++ a ++ b = bytes ++ (a ++ b) :=
  Array.ext' (by simp)

/-- Writing in two parts takes the same bytes as writing at once. -/
theorem write_append (a b : List UInt8) (s : Sink) :
    (write (a ++ b) s).2 = (write b (write a s).2).2 := by
  obtain ⟨bytes, room⟩ := s
  cases room with
  | none => simp [write, bytes_append_append]
  | some n => simp [write, List.take_append, Nat.sub_sub, bytes_append_append]

end Sink
end PageTemplate
