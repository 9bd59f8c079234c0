/-!
# Reckon — double precision numbers

Numbers of the language are binary64 numbers, kept by their 64 bits: a sign, eleven bits of
exponent and 52 of fraction. Two things are meant by "equal": to have the same bits, which is `=`,
and to be the same number, which is `same`. The two differ at zero, which has two signs, and at
NaN, which is not the same number as anything.

* `same_iff_eq` — on numbers with a clear sign bit that are no NaN the two agree.
-/

namespace Reckon

/-- A binary64 number, by its bits. -/
structure Double where
  bits : UInt64
deriving DecidableEq, Repr

namespace Double

/-- What the sign bit counts: the 63 bits below it hold the naturals below this one. -/
def signWeight : Nat := 0x8000000000000000

/-- What the lowest bit of the exponent field counts: the 52 bits below it are the fraction. -/
def exponentWeight : Nat := 0x10000000000000

/-- The bits below the sign. They order the numbers of one sign by size. -/
def magnitude (x : Double) : Nat := x.bits.toNat % signWeight

/-- Whether the sign bit is set. -/
def isNegative (x : Double) : Bool := decide (signWeight ≤ x.bits.toNat)

/-- The magnitude of infinity, above that of all numbers and below that of every NaN. -/
def infinite : Nat := 0x7FF0000000000000

/-- Whether the number is none. -/
def isNaN (x : Double) : Bool := decide (infinite < x.magnitude)

/-- The number with a clear sign bit and the given magnitude. -/
def ofMagnitude (n : Nat) : Double := ⟨UInt64.ofNat n⟩

/-- The NaN that a text names. -/
def nan : Double := ⟨0x7FF8000000000000⟩

/-- The number with the other sign. -/
def negate (x : Double) : Double := ⟨x.bits ^^^ 0x8000000000000000⟩

/-- Whether two are the same number: zeros of either sign are, a NaN never is. -/
def same (x y : Double) : Bool :=
  !x.isNaN && !y.isNaN && (x.bits == y.bits || (x.magnitude == 0 && y.magnitude == 0))

/-- On numbers with a clear sign bit that are no NaN, to be the same number is to have the same
bits. -/
theorem same_iff_eq {x y : Double} (hx : x.isNegative = false) (hy : y.isNegative = false)
    (hxn : x.isNaN = false) (hyn : y.isNaN = false) : x.same y = true ↔ x = y := by
  obtain ⟨a⟩ := x
  obtain ⟨b⟩ := y
  simp only [isNegative, decide_eq_false_iff_not, Nat.not_le] at hx hy
  simp only [same, hxn, hyn, magnitude, Bool.not_false, Bool.true_and, Bool.or_eq_true,
    Bool.and_eq_true, beq_iff_eq, Double.mk.injEq]
  unfold signWeight at *
  constructor
  · rintro (h | ⟨ha, hb⟩)
    · exact h
    · apply UInt64.toNat_inj.mp
      omega
  · exact .inl

-- ---------------------------------------------------------------------------
-- The value of a finite number
-- ---------------------------------------------------------------------------

/-- The exponent field. -/
def exponentField (x : Double) : Nat := x.magnitude / exponentWeight

/-- The fraction field. -/
def fractionField (x : Double) : Nat := x.magnitude % exponentWeight

/-- The significand: a finite number is `significand * 2 ^ scale`, up to its sign. -/
def significand (x : Double) : Nat :=
  if x.exponentField = 0 then x.fractionField else exponentWeight + x.fractionField

/-- The power of two that the significand counts. -/
def scale (x : Double) : Int :=
  if x.exponentField = 0 then -1074 else (x.exponentField : Int) - 1075

/-- Whether the number below is half as far away as the number above, as it is at the powers of
two. -/
def isBoundary (x : Double) : Bool := x.fractionField == 0 && decide (1 < x.exponentField)

end Double

end Reckon
