import Reckon.Number.Numeral

/-!
# Reckon — the shortest decimal of a number

The decimal with the fewest digits that is read back as a given double, of those the one nearest to
it, and of two that are equally near the greater one. The reals that are read as a double reach
half way to its two neighbours, with the ends if its significand is even. A decimal with few digits
lies in that interval exactly if one of the two decimals of as many digits around the double does.
-/

namespace Reckon

namespace Double

/-- A finite number other than zero as a quotient of natural numbers, with the ends of the reals
that are read as it: all three over the one denominator `den`. -/
structure Interval where
  low : Nat
  value : Nat
  high : Nat
  den : Nat
  closed : Bool

/-- The reals that are read as the number. -/
def interval (x : Double) : Interval :=
  let m := x.significand
  let unit := Nat.pow 2 x.scale.toNat
  { low := (4 * m - if x.isBoundary then 1 else 2) * unit
    value := 4 * m * unit
    high := (4 * m + 2) * unit
    den := 4 * Nat.pow 2 (-x.scale).toNat
    closed := m % 2 == 0 }

/-- Whether a decimal lies in the interval. -/
def Interval.holds (i : Interval) (d : Decimal) : Bool :=
  let point := d.digits * Nat.pow 10 d.exponent.toNat * i.den
  let down := Nat.pow 10 (-d.exponent).toNat
  if i.closed then decide (i.low * down ≤ point) && decide (point ≤ i.high * down)
  else decide (i.low * down < point) && decide (point < i.high * down)

/-- The least `k` such that the value is below `10 ^ k`. -/
def Interval.digitsBefore (i : Interval) : Int :=
  if i.den ≤ i.value then (Decimal.digitCount (i.value / i.den) : Int)
  else 1 - (Decimal.digitCount ((i.den - 1) / i.value) : Int)

/-- The decimal at the given power of ten that is nearest to the value, of those that lie in the
interval; the greater one of two that are equally near. -/
def Interval.nearestAt? (i : Interval) (exponent : Int) : Option Decimal :=
  let num := i.value * Nat.pow 10 (-exponent).toNat
  let den := i.den * Nat.pow 10 exponent.toNat
  let below : Decimal := ⟨num / den, exponent⟩
  let above : Decimal := ⟨num / den + 1, exponent⟩
  match i.holds below, i.holds above with
  | true, true => if 2 * (num % den) < den then some below else some above
  | true, false => some below
  | false, true => some above
  | false, false => none

/-- The shortest decimal that is read back as the number, which is finite and not zero. At most
seventeen digits are needed; where fewer tries are not enough the exact value is taken. -/
def shortest (x : Double) : Decimal :=
  let i := x.interval
  let tries := (List.range 17).map fun (n : Nat) => i.digitsBefore - (n + 1)
  (tries.findSome? i.nearestAt?).getD
    ⟨i.value * Nat.pow 10 1076 / i.den, -1076⟩

end Double

end Reckon
