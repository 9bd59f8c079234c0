/-!
# Reckon — places in a source

Tokens and faults say where they stand by a byte offset into a named source. Nothing here reads
the source: a hand-made token may claim any place at all.
-/

namespace Reckon

/-- A byte offset into the source of the given name. -/
structure Position where
  offset : Nat
  file : String
deriving DecidableEq, Repr

/-- The stretch of a source from `start` up to, and without, `stop`. -/
structure Span where
  start : Position
  stop : Position
deriving DecidableEq, Repr

/-- The span of `length` bytes from an offset. -/
def Span.ofLength (file : String) (offset length : Nat) : Span :=
  ⟨⟨offset, file⟩, ⟨offset + length, file⟩⟩

/-- The empty span at a position. -/
def Span.emptyAt (position : Position) : Span := ⟨position, position⟩

end Reckon
