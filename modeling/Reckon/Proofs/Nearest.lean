import Mathlib.Algebra.Order.Field.Power
import Mathlib.Data.Int.Log
import Mathlib.Data.Rat.Floor
import Mathlib.Tactic.Linarith
import Mathlib.Tactic.NormNum.Pow
import Mathlib.Tactic.Positivity
import Mathlib.Tactic.Ring
import Reckon.Number.Numeral

/-!
# Reckon — which rationals are read as a double

The rationals that are read as a finite number are those that are nearer to it than to the numbers
next to it, and half way to a neighbour those whose significand is even. A number is the same
distance from both of its neighbours, but for the powers of two, below which the numbers lie twice
as close. Rounding finds the power of two that the significand counts by the size of the rational;
this may be the one below, where the rational lies under a power of two that it is rounded up to.

* `scaleOf_eq` — the power of two, by the size of the quotient.
* `Reads` — the rationals that are read as a number.
* `nearest_of_reads` — a quotient among them is rounded to the number.
* `toDouble_of_reads` — so a decimal among them is read as it.
-/

namespace Reckon

-- ---------------------------------------------------------------------------
-- Rounding to a natural number
-- ---------------------------------------------------------------------------

/-- A quotient is rounded to a number that is at most half a unit away, and less if that is odd. -/
theorem roundHalfEven_eq {num den n : Nat} (hden : 0 < den) (hlow : 2 * n * den ≤ 2 * num + den)
    (hhigh : 2 * num ≤ (2 * n + 1) * den)
    (hodd : n % 2 = 1 → 2 * n * den < 2 * num + den ∧ 2 * num < (2 * n + 1) * den) :
    roundHalfEven num den = n := by
  have hsplit := Nat.div_add_mod num den
  have hpart := Nat.mod_lt num hden
  rw [roundHalfEven]
  generalize num % den = part at *
  generalize num / den = whole at *
  -- the rounded number is the whole part of the quotient, or the next one
  have hle : whole ≤ n := by
    have hlt : whole * (2 * den) < (n + 1) * (2 * den) := by nlinarith
    exact Nat.lt_succ_iff.mp (Nat.lt_of_mul_lt_mul_right hlt)
  have hge : n ≤ whole + 1 := by
    have hlt : n * (2 * den) < (whole + 2) * (2 * den) := by nlinarith
    exact Nat.lt_succ_iff.mp (Nat.lt_of_mul_lt_mul_right hlt)
  obtain rfl | rfl : n = whole ∨ n = whole + 1 := by omega
  · have hparts : 2 * part ≤ den := by nlinarith
    by_cases htie : 2 * part < den
    · simp only [htie, if_true]
    · have heven : ¬ n % 2 = 1 := by
        intro h
        have := (hodd h).2
        nlinarith
      simp only [htie, if_false]
      rw [if_neg (by omega), if_pos (by omega)]
  · have hparts : den ≤ 2 * part := by nlinarith
    rw [if_neg (by omega)]
    by_cases htie : den < 2 * part
    · rw [if_pos htie]
    · have heven : ¬ (whole + 1) % 2 = 1 := by
        intro h
        have := (hodd h).1
        nlinarith
      rw [if_neg htie, if_neg (by omega)]

-- ---------------------------------------------------------------------------
-- Quotients and powers
-- ---------------------------------------------------------------------------

/-- A power with any exponent, as a quotient of two that are natural numbers. -/
theorem zpow_eq_div {b : Nat} (hb : b ≠ 0) (z : Int) :
    (b : ℚ) ^ z = (b ^ z.toNat : Nat) / (b ^ (-z).toNat : Nat) := by
  have hb' : (b : ℚ) ≠ 0 := Nat.cast_ne_zero.mpr hb
  push_cast
  rw [← zpow_natCast, ← zpow_natCast, ← zpow_sub₀ hb']
  congr 1
  omega

/-- A quotient over a power is a quotient of natural numbers. -/
theorem div_div_zpow {b : Nat} (hb : b ≠ 0) (num den : Nat) (z : Int) :
    (num : ℚ) / den / (b : ℚ) ^ z = (num * b ^ (-z).toNat : Nat) / (den * b ^ z.toNat : Nat) := by
  rw [zpow_eq_div hb, div_div_div_eq]
  push_cast
  rfl

/-- To compare a quotient with a power is to compare natural numbers. -/
theorem div_lt_zpow_iff {b num den : Nat} (hb : b ≠ 0) (hden : 0 < den) (z : Int) :
    (num : ℚ) / den < (b : ℚ) ^ z ↔ num * b ^ (-z).toNat < den * b ^ z.toNat := by
  have hden' : (0 : ℚ) < den := Nat.cast_pos.mpr hden
  have hpow : (0 : ℚ) < (b ^ (-z).toNat : Nat) :=
    Nat.cast_pos.mpr (Nat.pow_pos (Nat.pos_of_ne_zero hb))
  rw [zpow_eq_div hb, div_lt_div_iff₀ hden' hpow, mul_comm _ (den : ℚ), ← Nat.cast_mul,
    ← Nat.cast_mul, Nat.cast_lt]

namespace Double

/-- The size of a quotient, from the sizes of its two parts. -/
theorem log_div_eq {num den : Nat} (hnum : 0 < num) (hden : 0 < den) :
    Int.log 2 ((num : ℚ) / den) =
      (Nat.log2 num : Int) - Nat.log2 den -
        if (num : ℚ) / den < (2 : ℚ) ^ ((Nat.log2 num : Int) - Nat.log2 den) then 1 else 0 := by
  have hpos : (0 : ℚ) < num / den := by positivity
  have hnumLow : (2 : ℚ) ^ (Nat.log2 num : Int) ≤ num := by
    exact_mod_cast Nat.log2_self_le hnum.ne'
  have hnumHigh : (num : ℚ) < 2 ^ ((Nat.log2 num : Int) + 1) := by
    exact_mod_cast Nat.lt_log2_self
  have hdenLow : (2 : ℚ) ^ (Nat.log2 den : Int) ≤ den := by
    exact_mod_cast Nat.log2_self_le hden.ne'
  have hdenHigh : (den : ℚ) < 2 ^ ((Nat.log2 den : Int) + 1) := by
    exact_mod_cast Nat.lt_log2_self
  have hden' : (0 : ℚ) < den := Nat.cast_pos.mpr hden
  set estimate : Int := (Nat.log2 num : Int) - Nat.log2 den with hestimate
  have hlow : (2 : ℚ) ^ (estimate - 1) ≤ num / den := by
    rw [le_div_iff₀ hden']
    calc (2 : ℚ) ^ (estimate - 1) * den ≤ 2 ^ (estimate - 1) * 2 ^ ((Nat.log2 den : Int) + 1) := by
          gcongr
      _ = 2 ^ (Nat.log2 num : Int) := by
          rw [← zpow_add₀ two_ne_zero]
          congr 1
          omega
      _ ≤ num := hnumLow
  have hhigh : (num : ℚ) / den < 2 ^ (estimate + 1) := by
    rw [div_lt_iff₀ hden']
    calc (num : ℚ) < 2 ^ ((Nat.log2 num : Int) + 1) := hnumHigh
      _ = 2 ^ (estimate + 1) * 2 ^ (Nat.log2 den : Int) := by
          rw [← zpow_add₀ two_ne_zero]
          congr 1
          omega
      _ ≤ 2 ^ (estimate + 1) * den := by gcongr
  have hle := (Int.zpow_le_iff_le_log (b := 2) one_lt_two hpos).mp hlow
  have hlt := (Int.lt_zpow_iff_log_lt (b := 2) one_lt_two hpos).mp hhigh
  have hshort := Int.lt_zpow_iff_log_lt (b := 2) (x := estimate) one_lt_two hpos
  push_cast at hshort
  split
  · next h =>
    have := hshort.mp h
    omega
  · next h =>
    have := mt hshort.mpr h
    omega

/-- The power of two that is counted leaves 53 digits, or it is the least one there is. -/
theorem scaleOf_eq {num den : Nat} (hnum : 0 < num) (hden : 0 < den) :
    scaleOf num den = max (-1074) (Int.log 2 ((num : ℚ) / den) - 52) := by
  rw [log_div_eq hnum hden]
  simp only [scaleOf]
  have hshort : (num : ℚ) / den < (2 : Nat) ^ ((Nat.log2 num : Int) - Nat.log2 den) ↔ _ :=
    div_lt_zpow_iff two_ne_zero hden _
  simp only [Nat.cast_ofNat] at hshort
  simp only [hshort, Nat.pow_eq]
  split <;> omega

-- ---------------------------------------------------------------------------
-- The rationals that are read as a number
-- ---------------------------------------------------------------------------

/-- How far the rationals that are read as a number reach below it, in units of its significand. -/
def below (x : Double) : ℚ := if x.isBoundary then 1 / 4 else 1 / 2

/-- The rational lies at most half way to the next number on either side, and not at half if the
significand is odd. -/
structure Reads (x : Double) (q : ℚ) : Prop where
  low  : (x.significand - x.below) * 2 ^ x.scale ≤ q
  high : q ≤ (x.significand + 1 / 2) * 2 ^ x.scale
  odd  : x.significand % 2 = 1 → (x.significand - x.below) * 2 ^ x.scale < q ∧
           q < (x.significand + 1 / 2) * 2 ^ x.scale

section

variable {x : Double}

/-- The bits of a number are its significand and its power of two, counted from the least. -/
theorem magnitude_eq (x : Double) :
    x.magnitude = x.significand + (x.scale + 1074).toNat * exponentWeight := by
  have hsplit := Nat.div_add_mod' x.magnitude exponentWeight
  rw [significand, scale, fractionField]
  split
  · next hfield =>
    rw [exponentField] at hfield
    rw [hfield] at hsplit
    simpa using hsplit.symm
  · next hfield =>
    have hscale : ((x.exponentField : Int) - 1075 + 1074).toNat + 1 = x.exponentField := by omega
    rw [exponentField] at hscale hfield ⊢
    rw [← hscale, add_mul] at hsplit
    omega

theorem fractionField_lt (x : Double) : x.fractionField < exponentWeight :=
  Nat.mod_lt _ (by decide)

/-- A significand has 53 digits at most. -/
theorem significand_lt (x : Double) : x.significand < 2 ^ 53 := by
  have hfraction := x.fractionField_lt
  unfold exponentWeight at hfraction
  rw [significand, exponentWeight]
  split <;> omega

/-- And it counts no smaller power of two than this. -/
theorem scale_ge (x : Double) : -1074 ≤ x.scale := by
  rw [scale]
  split <;> omega

/-- Above the least power of two the significand has all its digits. -/
theorem significand_ge (h : -1074 < x.scale) : 2 ^ 52 ≤ x.significand := by
  rw [scale] at h
  rw [significand, exponentWeight]
  split at h
  · omega
  · next hfield =>
    rw [if_neg hfield]
    omega

/-- And if it is the least one that it can be, the number is a power of two. -/
theorem isBoundary_of_significand (h : -1074 < x.scale) (hleast : x.significand = 2 ^ 52) :
    x.isBoundary = true := by
  rw [scale] at h
  rw [significand, exponentWeight] at hleast
  split at h
  · omega
  · next hfield =>
    rw [if_neg hfield] at hleast
    rw [isBoundary, Bool.and_eq_true, beq_iff_eq, decide_eq_true_eq]
    omega

/-- Only zero has the significand zero. -/
theorem significand_pos (h : 0 < x.magnitude) : 0 < x.significand := by
  have hge := x.scale_ge
  rcases hge.lt_or_eq with hlt | heq
  · have := significand_ge hlt
    omega
  · rw [magnitude_eq, ← heq] at h
    simpa using h

end

/-- The quotient is rounded to a number of units. -/
theorem nearest_eq {num den n : Nat} {unit : Int} (hden : 0 < den)
    (hunit : scaleOf num den = unit)
    (hlow : ((n : ℚ) - 1 / 2) * 2 ^ unit ≤ num / den)
    (hhigh : (num : ℚ) / den ≤ (n + 1 / 2) * 2 ^ unit)
    (hodd : n % 2 = 1 → ((n : ℚ) - 1 / 2) * 2 ^ unit < num / den ∧
      (num : ℚ) / den < (n + 1 / 2) * 2 ^ unit) :
    nearest num den = ofMagnitude (min (n + (unit + 1074).toNat * exponentWeight) infinite) := by
  have hpow : (0 : ℚ) < 2 ^ unit := by positivity
  have hden' : 0 < den * 2 ^ unit.toNat := by positivity
  have hcast : (0 : ℚ) < (den * 2 ^ unit.toNat : Nat) := Nat.cast_pos.mpr hden'
  have hdiv : (num : ℚ) / den / 2 ^ unit =
      (num * 2 ^ (-unit).toNat : Nat) / (den * 2 ^ unit.toNat : Nat) := by
    exact_mod_cast div_div_zpow two_ne_zero num den unit
  -- all bounds are told in units first, and then as quotients of natural numbers
  rw [← le_div_iff₀ hpow, hdiv, le_div_iff₀ hcast] at hlow
  rw [← div_le_iff₀ hpow, hdiv, div_le_iff₀ hcast] at hhigh
  rw [← lt_div_iff₀ hpow, ← div_lt_iff₀ hpow, hdiv, lt_div_iff₀ hcast, div_lt_iff₀ hcast] at hodd
  simp only [nearest, hunit, Nat.pow_eq]
  rw [roundHalfEven_eq hden']
  · have : (2 * n * (den * 2 ^ unit.toNat) : ℚ) ≤ 2 * (num * 2 ^ (-unit).toNat) +
        den * 2 ^ unit.toNat := by
      push_cast at hlow
      linarith
    exact_mod_cast this
  · have : (2 * (num * 2 ^ (-unit).toNat) : ℚ) ≤ (2 * n + 1) * (den * 2 ^ unit.toNat) := by
      push_cast at hhigh
      linarith
    exact_mod_cast this
  · intro h
    obtain ⟨hlow, hhigh⟩ := hodd h
    push_cast at hlow hhigh
    have hlow' : (2 * n * (den * 2 ^ unit.toNat) : ℚ) < 2 * (num * 2 ^ (-unit).toNat) +
        den * 2 ^ unit.toNat := by linarith
    have hhigh' : (2 * (num * 2 ^ (-unit).toNat) : ℚ) < (2 * n + 1) * (den * 2 ^ unit.toNat) := by
      linarith
    exact ⟨by exact_mod_cast hlow', by exact_mod_cast hhigh'⟩

section

variable {x : Double} {num den : Nat}

/-- Below, a number reaches no further than above. -/
theorem below_le (x : Double) : x.below ≤ 1 / 2 := by
  rw [below]
  split <;> norm_num

/-- What is read as a number other than zero is positive. -/
theorem Reads.pos {q : ℚ} (h : x.Reads q) (hpos : 0 < x.magnitude) : 0 < q := by
  have hsignificand : (1 : ℚ) ≤ x.significand := by exact_mod_cast significand_pos hpos
  have hbelow := x.below_le
  have hpow : (0 : ℚ) < 2 ^ x.scale := by positivity
  have hunits : (0 : ℚ) < x.significand - x.below := by linarith
  exact lt_of_lt_of_le (mul_pos hunits hpow) h.low

/-- Where the power of two is that of the number, the quotient is rounded to its significand. -/
theorem Reads.nearest_of_scale (h : x.Reads (num / den)) (hden : 0 < den)
    (hfinite : x.magnitude < infinite) (hscale : scaleOf num den = x.scale) :
    nearest num den = ofMagnitude x.magnitude := by
  have hbelow := x.below_le
  have hpow : (0 : ℚ) < 2 ^ x.scale := by positivity
  have hunits : ((x.significand : ℚ) - 1 / 2) * 2 ^ x.scale ≤
      (x.significand - x.below) * 2 ^ x.scale := by
    gcongr
  rw [nearest_eq hden hscale (hunits.trans h.low) h.high fun hodd =>
      ⟨lt_of_le_of_lt hunits (h.odd hodd).1, (h.odd hodd).2⟩, ← magnitude_eq,
    Nat.min_eq_left hfinite.le]

/-- A quotient below a power of two that it is rounded up to counts units half as large. -/
theorem Reads.nearest_of_lt (h : x.Reads (num / den)) (hden : 0 < den)
    (hfinite : x.magnitude < infinite) (hscale : -1074 < x.scale)
    (hunit : scaleOf num den = x.scale - 1) (hboundary : x.significand = 2 ^ 52)
    (hlt : (num : ℚ) / den < 2 ^ (x.scale + 52)) :
    nearest num den = ofMagnitude x.magnitude := by
  have hbelow : x.below = 1 / 4 := by
    rw [below, if_pos (isBoundary_of_significand hscale hboundary)]
  have hhalf : (2 : ℚ) ^ x.scale = 2 * 2 ^ (x.scale - 1) := by
    rw [zpow_sub_one₀ two_ne_zero]
    ring
  have hpow : (0 : ℚ) < 2 ^ (x.scale - 1) := by positivity
  have hlow := h.low
  rw [hbelow, hboundary, hhalf] at hlow
  rw [zpow_add₀ two_ne_zero, hhalf] at hlt
  norm_num at hlow hlt
  rw [nearest_eq (n := 2 ^ 53) hden hunit]
  · have hmagnitude := magnitude_eq x
    rw [hboundary] at hmagnitude
    have hunits : (x.scale + 1074).toNat = (x.scale - 1 + 1074).toNat + 1 := by omega
    rw [hunits, add_mul] at hmagnitude
    rw [hmagnitude] at hfinite ⊢
    congr 1
    rw [Nat.min_eq_left] <;> unfold exponentWeight at * <;> omega
  · push_cast
    norm_num
    linarith
  · push_cast
    norm_num
    linarith
  · intro hodd
    exact absurd hodd (by norm_num)

/-- **Rounding.** A quotient that is read as a finite number is rounded to it. -/
theorem nearest_of_reads (hpos : 0 < x.magnitude) (hfinite : x.magnitude < infinite)
    (hnum : 0 < num) (hden : 0 < den) (h : x.Reads (num / den)) :
    nearest num den = ofMagnitude x.magnitude := by
  have hq := h.pos hpos
  have hpow : (0 : ℚ) < 2 ^ x.scale := by positivity
  have hscale := scaleOf_eq hnum hden
  have hsignificand : (x.significand : ℚ) + 1 ≤ 2 ^ 53 := by exact_mod_cast x.significand_lt
  have hhigh : (num : ℚ) / den < (2 : Nat) ^ (x.scale + 53) := by
    calc (num : ℚ) / den ≤ (x.significand + 1 / 2) * 2 ^ x.scale := h.high
      _ < 2 ^ 53 * 2 ^ x.scale := by gcongr; linarith
      _ = (2 : Nat) ^ (x.scale + 53) := by
          rw [zpow_add₀ (by norm_num)]
          push_cast
          ring
  have hlogHigh := (Int.lt_zpow_iff_log_lt one_lt_two hq).mp hhigh
  rcases x.scale_ge.lt_or_eq with hnormal | hleast
  · rcases le_or_gt ((2 : Nat) ^ (x.scale + 52) : ℚ) (num / den) with hge | hlt
    · have hlog := (Int.zpow_le_iff_le_log one_lt_two hq).mp hge
      exact h.nearest_of_scale hden hfinite (by omega)
    · -- so far below its number a quotient lies only next to a power of two
      have hlt' : (num : ℚ) / den < 2 ^ 52 * 2 ^ x.scale := by
        rw [zpow_add₀ (by norm_num)] at hlt
        push_cast at hlt
        linarith
      have hunits := lt_of_mul_lt_mul_right (lt_of_le_of_lt h.low hlt') hpow.le
      have hbelow := x.below_le
      have hleast : x.significand = 2 ^ 52 := by
        have hge := significand_ge hnormal
        have hle : (x.significand : ℚ) < (2 ^ 52 + 1 : Nat) := by
          push_cast
          linarith
        have := Nat.cast_lt.mp hle
        omega
      have hlog : x.scale + 51 ≤ Int.log 2 ((num : ℚ) / den) := by
        rw [← Int.zpow_le_iff_le_log one_lt_two hq, zpow_add₀ (by norm_num)]
        refine le_trans ?_ h.low
        rw [hleast]
        push_cast
        nlinarith
      have hlogLt := (Int.lt_zpow_iff_log_lt one_lt_two hq).mp hlt
      exact h.nearest_of_lt hden hfinite hnormal (by omega) hleast (by exact_mod_cast hlt)
  · exact h.nearest_of_scale hden hfinite (by omega)

end

end Double

-- ---------------------------------------------------------------------------
-- Decimals
-- ---------------------------------------------------------------------------

namespace Decimal

/-- The number that a decimal is. -/
def value (d : Decimal) : ℚ := d.digits * 10 ^ d.exponent

/-- A decimal is a quotient of natural numbers. -/
theorem value_eq_div (d : Decimal) :
    d.value = (d.digits * 10 ^ d.exponent.toNat : Nat) / (10 ^ (-d.exponent).toNat : Nat) := by
  have hpow := zpow_eq_div (b := 10) (by norm_num) d.exponent
  push_cast at hpow ⊢
  rw [value, hpow, mul_div_assoc]

theorem digitCount_pos (n : Nat) : 0 < digitCount n :=
  List.length_pos_iff.mpr Nat.toDigits_ne_nil

/-- A number is below the power of ten with one digit more. -/
theorem lt_pow_digitCount (n : Nat) : n < 10 ^ digitCount n :=
  (Nat.length_toDigits_le_iff (by norm_num) (digitCount_pos n)).mp le_rfl

/-- And not below the one with as many digits. -/
theorem pow_digitCount_le {n : Nat} (h : 0 < n) : 10 ^ (digitCount n - 1) ≤ n := by
  by_contra hlt
  rw [not_le] at hlt
  rcases Nat.eq_zero_or_pos (digitCount n - 1) with hzero | hpos
  · rw [hzero] at hlt
    omega
  · have hle := (Nat.length_toDigits_le_iff (by norm_num) hpos).mpr hlt
    have hcount := digitCount_pos n
    rw [digitCount] at hle hcount
    omega

/-- The number of digits before the point tells the size of a decimal. -/
theorem value_bounds {d : Decimal} (h : 0 < d.digits) :
    (10 : ℚ) ^ (d.exponent + digitCount d.digits - 1) ≤ d.value ∧
      d.value < 10 ^ (d.exponent + digitCount d.digits) := by
  have hten : (10 : ℚ) ≠ 0 := by norm_num
  have hpow : (0 : ℚ) < 10 ^ d.exponent := by positivity
  have hcount := digitCount_pos d.digits
  have hlow : (10 : ℚ) ^ ((digitCount d.digits - 1 : Nat) : Int) ≤ d.digits := by
    exact_mod_cast pow_digitCount_le h
  have hhigh : (d.digits : ℚ) < 10 ^ (digitCount d.digits : Int) := by
    exact_mod_cast lt_pow_digitCount d.digits
  have hexponent : d.exponent + digitCount d.digits - 1 =
      ((digitCount d.digits - 1 : Nat) : Int) + d.exponent := by omega
  constructor
  · rw [hexponent, zpow_add₀ hten, value]
    gcongr
  · rw [add_comm, zpow_add₀ hten, value]
    gcongr

end Decimal

namespace Double

variable {x : Double} {d : Decimal}

/-- The greatest numbers count this power of two. -/
theorem scale_le (h : x.magnitude < infinite) : x.scale ≤ 971 := by
  have hfield : x.exponentField < 2047 := Nat.div_lt_of_lt_mul h
  rw [scale]
  split <;> omega

/-- What is taken for zero at once is less than half of the least number. -/
theorem ten_pow_lt : (10 : ℚ) ^ (-330 : Int) < 1 / 2 * 2 ^ (-1074 : Int) := by
  have hnat : 2 ^ 1075 < 10 ^ 330 := by decide +kernel
  have hpow : (2 : ℚ) ^ 1075 < 10 ^ 330 := by exact_mod_cast hnat
  have hhalf : (1 / 2 : ℚ) * 2 ^ (-1074 : Int) = (2 ^ 1075)⁻¹ := by
    rw [one_div, ← zpow_neg_one, ← zpow_add₀ two_ne_zero]
    exact zpow_neg 2 1075
  rw [hhalf, show (10 : ℚ) ^ (-330 : Int) = (10 ^ 330)⁻¹ from zpow_neg 10 330]
  exact inv_strictAnti₀ (by positivity) hpow

/-- What is taken for infinite at once is beyond the greatest number and its neighbour. -/
theorem lt_ten_pow : (2 : ℚ) ^ 53 * 2 ^ (971 : Int) < 10 ^ (310 : Int) := by
  have hnat : 2 ^ 53 * 2 ^ 971 < 10 ^ 310 := by decide +kernel
  exact_mod_cast hnat

/-- What is read as a number is not so small that it is taken for zero at once. -/
theorem Reads.size_ge (h : x.Reads d.value) (hpos : 0 < x.magnitude)
    (hdigits : 0 < d.digits) : ¬ d.exponent + Decimal.digitCount d.digits < -330 := by
  intro hsize
  have hsignificand : (1 : ℚ) ≤ x.significand := by exact_mod_cast significand_pos hpos
  have hbelow := x.below_le
  have hvalue : d.value < (10 : ℚ) ^ (-330 : Int) :=
    lt_of_lt_of_le (Decimal.value_bounds hdigits).2
      (zpow_le_zpow_right₀ (by norm_num) hsize.le)
  have hleast : (1 / 2 : ℚ) * 2 ^ (-1074 : Int) ≤ d.value := by
    calc (1 / 2 : ℚ) * 2 ^ (-1074 : Int) ≤ (x.significand - x.below) * 2 ^ x.scale :=
          mul_le_mul (by linarith) (zpow_le_zpow_right₀ one_le_two x.scale_ge) (by positivity)
            (by linarith)
      _ ≤ d.value := h.low
  exact absurd (hleast.trans_lt hvalue) (not_lt.mpr ten_pow_lt.le)

/-- Nor so large that it is taken for infinite. -/
theorem Reads.size_le (h : x.Reads d.value) (hfinite : x.magnitude < infinite)
    (hdigits : 0 < d.digits) : ¬ 310 < d.exponent + Decimal.digitCount d.digits := by
  intro hsize
  have hsignificand : (x.significand : ℚ) + 1 ≤ 2 ^ 53 := by exact_mod_cast x.significand_lt
  have hvalue : (10 : ℚ) ^ (310 : Int) ≤ d.value :=
    le_trans (zpow_le_zpow_right₀ (by norm_num) (by omega)) (Decimal.value_bounds hdigits).1
  have hgreatest : d.value ≤ 2 ^ 53 * 2 ^ (971 : Int) := by
    calc d.value ≤ (x.significand + 1 / 2) * 2 ^ x.scale := h.high
      _ ≤ 2 ^ 53 * 2 ^ (971 : Int) :=
          mul_le_mul (by linarith) (zpow_le_zpow_right₀ one_le_two (scale_le hfinite))
            (by positivity) (by positivity)
  exact absurd (hvalue.trans hgreatest) (not_le.mpr lt_ten_pow)

/-- A decimal that lies among the rationals of a number is read as it. -/
theorem toDouble_of_reads (hpos : 0 < x.magnitude) (hfinite : x.magnitude < infinite)
    (h : x.Reads d.value) : d.toDouble = ofMagnitude x.magnitude := by
  have hvalue := h.pos hpos
  have hdigits : 0 < d.digits := by
    rw [Nat.pos_iff_ne_zero]
    intro hzero
    rw [Decimal.value, hzero, Nat.cast_zero, zero_mul] at hvalue
    exact lt_irrefl 0 hvalue
  simp only [Decimal.toDouble, Nat.pow_eq]
  rw [if_neg (not_or.mpr ⟨hdigits.ne', h.size_ge hpos hdigits⟩),
    if_neg (h.size_le hfinite hdigits)]
  rw [Decimal.value_eq_div] at h
  exact nearest_of_reads hpos hfinite (by positivity) (by positivity) h

end Double

end Reckon
