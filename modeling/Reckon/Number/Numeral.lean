import Reckon.Number.Rounding

/-!
# Reckon — numerals

The texts that are read as numbers, and the numbers they are read as. A numeral may begin with one
sign. After it comes one of the words `inf`, `infinity` and `nan` in any mixture of case, or a
decimal numeral: digits with a point somewhere among, before or behind them, and possibly an
exponent of ten. A decimal numeral is read as the double nearest to its exact value.

* `Decimal.toDouble_isNaN`, `Decimal.toDouble_isNegative` — a decimal without a sign is read as a
  number or infinity, and not as a negative one.
-/

namespace Reckon

/-- The number `digits * 10 ^ exponent`. -/
structure Decimal where
  digits : Nat
  exponent : Int
deriving DecidableEq, Repr

namespace Decimal

/-- The number of decimal digits of `n`, at least one. -/
def digitCount (n : Nat) : Nat := (Nat.toDigits 10 n).length

/-- The double nearest to the decimal. The first two cases are no more than shortcuts: from
`10 ^ 310` on everything is infinity, and below `10 ^ -330` everything is zero. -/
def toDouble (x : Decimal) : Double :=
  let size := x.exponent + digitCount x.digits
  if x.digits = 0 ∨ size < -330 then .ofMagnitude 0
  else if 310 < size then .ofMagnitude Double.infinite
  else .nearest (x.digits * Nat.pow 10 x.exponent.toNat) (Nat.pow 10 (-x.exponent).toNat)

/-- A decimal is never read as NaN. -/
theorem toDouble_isNaN (x : Decimal) : x.toDouble.isNaN = false := by
  simp only [toDouble]
  split
  · exact Double.ofMagnitude_isNaN (Nat.zero_le _)
  · split
    · exact Double.ofMagnitude_isNaN (Nat.le_refl _)
    · exact Double.nearest_isNaN ..

/-- Nor as a negative number. -/
theorem toDouble_isNegative (x : Decimal) : x.toDouble.isNegative = false := by
  simp only [toDouble]
  split
  · exact Double.ofMagnitude_isNegative (Nat.zero_le _)
  · split
    · exact Double.ofMagnitude_isNegative (Nat.le_refl _)
    · exact Double.nearest_isNegative ..

end Decimal

namespace Numeral

/-- The number that decimal digits write. -/
def value (digits : List Char) : Nat :=
  digits.foldl (fun n d => 10 * n + (d.toNat - '0'.toNat)) 0

/-- One decimal digit or more. -/
def natural? (text : List Char) : Option Nat :=
  if text ≠ [] ∧ text.all Char.isDigit then some (value text) else none

/-- Digits, with a sign or without. -/
def integer? : List Char → Option Int
  | '+' :: digits => (natural? digits).map Int.ofNat
  | '-' :: digits => (natural? digits).map fun n => -(n : Int)
  | digits => (natural? digits).map Int.ofNat

/-- The exponent at the end of a decimal numeral: none is zero. -/
def exponent? : List Char → Option Int
  | [] => some 0
  | c :: text => if c = 'e' ∨ c = 'E' then integer? text else none

/-- The digits behind the point that a text may begin with, and what follows them. -/
def places : List Char → List Char × List Char
  | '.' :: text => (text.takeWhile Char.isDigit, text.dropWhile Char.isDigit)
  | text => ([], text)

/-- A decimal numeral: at least one digit before or behind the point. -/
def decimal? (text : List Char) : Option Decimal :=
  let whole := text.takeWhile Char.isDigit
  let tail := places (text.dropWhile Char.isDigit)
  if whole = [] ∧ tail.1 = [] then none
  else (exponent? tail.2).map fun e => ⟨value (whole ++ tail.1), e - tail.1.length⟩

/-- The numbers that are written as a word, in any mixture of case. -/
def word? (text : List Char) : Option Double :=
  let lower := String.ofList (text.map Char.toLower)
  if lower = "inf" ∨ lower = "infinity" then some (.ofMagnitude Double.infinite)
  else if lower = "nan" then some .nan
  else none

/-- A numeral without a sign. -/
def unsigned? (text : List Char) : Option Double :=
  match decimal? text with
  | some decimal => some decimal.toDouble
  | none => word? text

/-- The number that a text is read as, if it is a numeral. -/
def read? (text : String) : Option Double :=
  match text.toList with
  | '+' :: rest => unsigned? rest
  | '-' :: rest => (unsigned? rest).map Double.negate
  | rest => unsigned? rest

end Numeral

end Reckon
