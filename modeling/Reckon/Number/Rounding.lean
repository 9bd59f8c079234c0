import Reckon.Number.Double

/-!
# Reckon — rounding a quotient

The double nearest to a quotient of natural numbers, an exact half going to the even neighbour.
All of it is exact arithmetic on natural numbers, so it says itself what it rounds to.

* `roundHalfEven_near` — the rounded quotient is within half a unit.
* `nearest_isNaN`, `nearest_isNegative` — the result is a number or infinity, and not negative.
-/

namespace Reckon

/-- The natural number nearest to `num / den`, a half going to the even one. -/
def roundHalfEven (num den : Nat) : Nat :=
  let whole := num / den
  let part := num % den
  if 2 * part < den then whole
  else if den < 2 * part then whole + 1
  else if whole % 2 = 0 then whole else whole + 1

/-- The rounded quotient is within half a unit of the exact one. -/
theorem roundHalfEven_near (num den : Nat) (h : 0 < den) :
    2 * (roundHalfEven num den * den) ≤ 2 * num + den ∧
      2 * num ≤ 2 * (roundHalfEven num den * den) + den := by
  have hsplit := Nat.div_add_mod num den
  have hpart := Nat.mod_lt num h
  have hsucc : (num / den + 1) * den = den * (num / den) + den := by
    rw [Nat.add_mul, Nat.mul_comm]; simp
  have hsame : num / den * den = den * (num / den) := Nat.mul_comm ..
  simp only [roundHalfEven]
  generalize num % den = part at *
  generalize den * (num / den) = below at *
  split
  · omega
  · split
    · omega
    · split <;> omega

namespace Double

/-- The power of two that the significand of the double nearest to `num / den` counts: the one
that leaves 53 binary digits, or the least there is. -/
def scaleOf (num den : Nat) : Int :=
  let estimate : Int := (Nat.log2 num : Int) - Nat.log2 den
  let short := num * Nat.pow 2 (-estimate).toNat < den * Nat.pow 2 estimate.toNat
  max (-1074) (estimate - if short then 53 else 52)

/-- The double nearest to `num / den`; infinity from the middle above the greatest one on. -/
def nearest (num den : Nat) : Double :=
  let scale := scaleOf num den
  let significand :=
    roundHalfEven (num * Nat.pow 2 (-scale).toNat) (den * Nat.pow 2 scale.toNat)
  ofMagnitude (min (significand + (scale + 1074).toNat * exponentWeight) infinite)

/-- Up to infinity a magnitude leaves the sign bit clear. -/
theorem magnitude_ofMagnitude {n : Nat} (h : n ≤ infinite) : (ofMagnitude n).magnitude = n := by
  have hn : n < 0x8000000000000000 := by unfold infinite at h; omega
  simp only [magnitude, signWeight, ofMagnitude, UInt64.toNat_ofNat']
  omega

/-- Up to infinity it is a number, or infinity itself. -/
theorem ofMagnitude_isNaN {n : Nat} (h : n ≤ infinite) : (ofMagnitude n).isNaN = false := by
  simp [isNaN, magnitude_ofMagnitude h, h]

theorem ofMagnitude_isNegative {n : Nat} (h : n ≤ infinite) :
    (ofMagnitude n).isNegative = false := by
  have hn : n < 0x8000000000000000 := by unfold infinite at h; omega
  simp only [isNegative, signWeight, ofMagnitude, UInt64.toNat_ofNat', decide_eq_false_iff_not]
  omega

/-- A quotient is rounded to a number or to infinity. -/
theorem nearest_isNaN (num den : Nat) : (nearest num den).isNaN = false :=
  ofMagnitude_isNaN (Nat.min_le_right ..)

/-- And to no negative one. -/
theorem nearest_isNegative (num den : Nat) : (nearest num den).isNegative = false :=
  ofMagnitude_isNegative (Nat.min_le_right ..)

end Double

end Reckon
