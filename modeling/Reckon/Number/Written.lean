import Reckon.Number.Shortest

/-!
# Reckon — how numbers are written

A number is written with the fewest digits that are read back as it, and always with a point or an
exponent, so that it is told apart from a count. From `10 ^ -4` up to `10 ^ 16` the digits stand
where they count; outside, the first digit stands before the point and an exponent follows, without
a plus sign.
-/

namespace Reckon

/-- A decimal without the zeros at its end. -/
def Decimal.strip (x : Decimal) : Decimal :=
  let digits := Nat.toDigits 10 x.digits
  let kept := (digits.reverse.dropWhile (· == '0')).reverse
  ⟨Numeral.value kept, x.exponent + (digits.length - kept.length : Nat)⟩

/-- A decimal other than zero, with its digits where they count or with an exponent. -/
def Decimal.written (x : Decimal) : List Char :=
  let x := x.strip
  let digits := Nat.toDigits 10 x.digits
  let before := x.exponent + digits.length
  if -4 < before ∧ before ≤ 16 then
    let front := digits.take before.toNat
    let zeros := List.replicate (-before).toNat '0'
    let filled := front ++ List.replicate (before.toNat - digits.length) '0'
    let back := zeros ++ digits.drop before.toNat
    (if filled = [] then ['0'] else filled) ++ '.' :: (if back = [] then ['0'] else back)
  else
    let fraction := if digits.length ≤ 1 then [] else '.' :: digits.drop 1
    digits.take 1 ++ fraction ++ 'e' :: (toString (before - 1)).toList

/-- The text of a number. -/
def Double.written (x : Double) : String :=
  if x.isNaN then "NaN"
  else
    let digits :=
      if x.magnitude = Double.infinite then "inf"
      else if x.magnitude = 0 then "0.0"
      else String.ofList x.shortest.written
    if x.isNegative then "-" ++ digits else digits

end Reckon
