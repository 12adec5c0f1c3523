/-
This file says where a word stands in a file. Lines count from one, as an author
counts them, and columns from zero; line zero stands for no place at all.
-/

namespace Idl

/-- Where a word stands: its line, counted from one, its column, counted from zero, and its
length, both in characters. -/
structure Span where
  line : UInt32
  column : UInt32
  length : UInt32
deriving DecidableEq, Repr

/-- The place of what was never written in a file. -/
def Span.nowhere : Span := ⟨0, 0, 0⟩

end Idl
