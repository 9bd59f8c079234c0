import Mathlib.Data.List.TakeWhile
import Mathlib.Data.Nat.Cast.Field
import Reckon.Number.Written
import Reckon.Proofs.Nearest

/-!
# Reckon — a number is read back from its text

A written number is read as the same number again. The decimal that is looked for lies among the
rationals that are read as the number, and is rounded to it; stripped of the zeros at its end it
keeps its value; and both ways to write it are read as a decimal of that value.

* `reads_shortest` — the shortest decimal is read as its number.
* `decimal?_written` — a written decimal is read with its value.
* `read?_written` — every number is read back from its text.
-/

namespace Reckon

-- ---------------------------------------------------------------------------
-- The shortest decimal
-- ---------------------------------------------------------------------------

namespace Double

section

variable {x : Double} {d : Decimal}

theorem interval_den_pos (x : Double) : 0 < x.interval.den :=
  Nat.mul_pos (by decide) (Nat.pow_pos (by decide))

/-- What is counted in quarters of a unit, over the denominator of the interval. -/
theorem quarters_div_den (x : Double) (count : Nat) :
    ((count * Nat.pow 2 x.scale.toNat : Nat) : ℚ) / x.interval.den = count / 4 * 2 ^ x.scale := by
  have hpow := zpow_eq_div (b := 2) two_ne_zero x.scale
  push_cast at hpow
  rw [hpow]
  simp only [interval, Nat.pow_eq]
  push_cast
  rw [div_mul_div_comm]

/-- The ends of the interval are those of the rationals that are read as the number. -/
theorem interval_low (h : 0 < x.magnitude) :
    (x.interval.low : ℚ) / x.interval.den = (x.significand - x.below) * 2 ^ x.scale := by
  have hpos := significand_pos h
  have hlow : ((4 * x.significand - if x.isBoundary then 1 else 2 : Nat) : ℚ) =
      4 * (x.significand - x.below) := by
    rw [below]
    split <;> (rw [Nat.cast_sub (by omega)]; push_cast; ring)
  have hquarters := x.quarters_div_den (4 * x.significand - if x.isBoundary then 1 else 2)
  rw [hlow, mul_div_cancel_left₀ _ four_ne_zero] at hquarters
  exact hquarters

theorem interval_high (x : Double) :
    (x.interval.high : ℚ) / x.interval.den = (x.significand + 1 / 2) * 2 ^ x.scale := by
  have hhigh : ((4 * x.significand + 2 : Nat) : ℚ) = 4 * (x.significand + 1 / 2) := by
    push_cast
    ring
  have hquarters := x.quarters_div_den (4 * x.significand + 2)
  rw [hhigh, mul_div_cancel_left₀ _ four_ne_zero] at hquarters
  exact hquarters

theorem interval_value (x : Double) :
    (x.interval.value : ℚ) / x.interval.den = x.significand * 2 ^ x.scale := by
  have hvalue : ((4 * x.significand : Nat) : ℚ) = 4 * x.significand := by push_cast; rfl
  have hquarters := x.quarters_div_den (4 * x.significand)
  rw [hvalue, mul_div_cancel_left₀ _ four_ne_zero] at hquarters
  exact hquarters

/-- What lies in the interval is read as the number. -/
theorem reads_of_holds (hpos : 0 < x.magnitude) (h : x.interval.holds d = true) :
    x.Reads d.value := by
  have hden : (0 : ℚ) < x.interval.den := Nat.cast_pos.mpr x.interval_den_pos
  have hdown : (0 : ℚ) < (10 ^ (-d.exponent).toNat : Nat) := by positivity
  have hclosed : x.interval.closed = (x.significand % 2 == 0) := rfl
  simp only [Interval.holds, Nat.pow_eq, hclosed] at h
  have hlow := interval_low hpos
  have hhigh := x.interval_high
  -- the ends belong to the interval if the significand is even
  split at h
  · next heven =>
    rw [beq_iff_eq] at heven
    rw [Bool.and_eq_true, decide_eq_true_eq, decide_eq_true_eq] at h
    refine ⟨?_, ?_, fun hodd => by omega⟩
    · rw [← hlow, d.value_eq_div, div_le_div_iff₀ hden hdown]
      exact_mod_cast h.1
    · rw [← hhigh, d.value_eq_div, div_le_div_iff₀ hdown hden]
      exact_mod_cast h.2
  · rw [Bool.and_eq_true, decide_eq_true_eq, decide_eq_true_eq] at h
    have hlt : (x.significand - x.below) * 2 ^ x.scale < d.value := by
      rw [← hlow, d.value_eq_div, div_lt_div_iff₀ hden hdown]
      exact_mod_cast h.1
    have hgt : d.value < (x.significand + 1 / 2) * 2 ^ x.scale := by
      rw [← hhigh, d.value_eq_div, div_lt_div_iff₀ hdown hden]
      exact_mod_cast h.2
    exact ⟨hlt.le, hgt.le, fun _ => ⟨hlt, hgt⟩⟩

/-- The number itself is among the rationals that are read as it. -/
theorem reads_self (x : Double) : x.Reads (x.significand * 2 ^ x.scale) := by
  have hpow : (0 : ℚ) < 2 ^ x.scale := by positivity
  have hbelow : 0 < x.below := by
    rw [below]
    split <;> norm_num
  have hlow : (x.significand - x.below) * 2 ^ x.scale < x.significand * 2 ^ x.scale := by
    gcongr
    linarith
  have hhigh : (x.significand : ℚ) * 2 ^ x.scale < (x.significand + 1 / 2) * 2 ^ x.scale := by
    gcongr
    linarith
  exact ⟨hlow.le, hhigh.le, fun _ => ⟨hlow, hhigh⟩⟩

theorem holds_of_nearestAt? {i : Interval} {exponent : Int} (h : i.nearestAt? exponent = some d) :
    i.holds d = true := by
  simp only [Interval.nearestAt?] at h
  split at h
  · next hbelow habove =>
    split at h
    · exact Option.some.inj h ▸ hbelow
    · exact Option.some.inj h ▸ habove
  · next hbelow _ => exact Option.some.inj h ▸ hbelow
  · next _ habove => exact Option.some.inj h ▸ habove
  · exact absurd h (by simp)

/-- Cut off behind the last digit that it has, a number is told exactly. -/
theorem reads_exact {power count : Nat} {exponent : Int} (hpower : power = 10 ^ count)
    (hexponent : exponent = -count) (h : (-x.scale).toNat + 2 ≤ count) :
    x.Reads (Decimal.value ⟨x.interval.value * power / x.interval.den, exponent⟩) := by
  have hden : x.interval.den = 2 ^ ((-x.scale).toNat + 2) := by
    simp only [interval, Nat.pow_eq]
    ring
  -- all powers of two below the point are among the powers of ten that were multiplied in
  have hdvd : x.interval.den ∣ x.interval.value * 10 ^ count := by
    have hpow : x.interval.den ∣ 2 ^ count := hden ▸ pow_dvd_pow 2 h
    exact Dvd.dvd.mul_left (hpow.trans (pow_dvd_pow_of_dvd (by norm_num) count)) _
  have hten : (10 : ℚ) ^ count ≠ 0 := pow_ne_zero _ (by norm_num)
  have hcast : (x.interval.den : ℚ) ≠ 0 := Nat.cast_ne_zero.mpr x.interval_den_pos.ne'
  have hvalue : Decimal.value ⟨x.interval.value * 10 ^ count / x.interval.den, -count⟩ =
      x.significand * 2 ^ x.scale := by
    rw [← interval_value, Decimal.value, Nat.cast_div hdvd hcast, zpow_neg, zpow_natCast]
    push_cast
    rw [mul_div_right_comm, mul_inv_cancel_right₀ hten]
  rw [hpower, hexponent, hvalue]
  exact x.reads_self

/-- Of the tries each lies in the interval, and the exact value is there if none is found. -/
theorem reads_shortest (hpos : 0 < x.magnitude) : x.Reads x.shortest.value := by
  simp only [shortest]
  cases hfind : List.findSome? x.interval.nearestAt?
      ((List.range 17).map fun (n : Nat) => x.interval.digitsBefore - (n + 1)) with
  | some d =>
    obtain ⟨exponent, -, hnearest⟩ := List.exists_of_findSome?_eq_some hfind
    -- a try was taken because it lies in the interval
    exact reads_of_holds hpos (holds_of_nearestAt? hnearest)
  | none =>
    have hscale := x.scale_ge
    -- the least power of two there is needs no more digits than this
    have hexponent : (-1076 : Int) = -((1076 : Nat) : Int) := rfl
    exact reads_exact (by decide +kernel) hexponent (by omega)

end

end Double

-- ---------------------------------------------------------------------------
-- Digits
-- ---------------------------------------------------------------------------

namespace Numeral

theorem value_toDigits (n : Nat) : value (Nat.toDigits 10 n) = n :=
  Nat.ofDigitChars_toDigits (by norm_num) le_rfl

/-- Zeros behind a number make it greater by a power of ten. -/
theorem value_append_zeros (digits : List Char) (n : Nat) :
    value (digits ++ List.replicate n '0') = 10 ^ n * value digits := by
  have happend := Nat.ofDigitChars_append (b := 10) (l := digits) (m := List.replicate n '0') 0
  rw [Nat.ofDigitChars_replicate_zero] at happend
  exact happend

/-- Zeros in front of a number mean nothing. -/
theorem value_zeros_append (digits : List Char) (n : Nat) :
    value (List.replicate n '0' ++ digits) = value digits := by
  have happend := Nat.ofDigitChars_append (b := 10) (l := List.replicate n '0') (m := digits) 0
  rw [Nat.ofDigitChars_replicate_zero, Nat.mul_zero] at happend
  exact happend

/-- All digits are decimal. -/
def AllDigits (text : List Char) : Prop := ∀ c ∈ text, c.isDigit = true

theorem allDigits_toDigits (n : Nat) : AllDigits (Nat.toDigits 10 n) :=
  fun _ h => Nat.isDigit_of_mem_toDigits (by norm_num) le_rfl h

theorem allDigits_zeros (n : Nat) : AllDigits (List.replicate n '0') := by
  intro c h
  rw [List.eq_of_mem_replicate h]
  rfl

theorem AllDigits.append {text more : List Char} (h : AllDigits text) (hmore : AllDigits more) :
    AllDigits (text ++ more) := by
  intro c hmem
  rcases List.mem_append.mp hmem with hmem | hmem
  · exact h c hmem
  · exact hmore c hmem

theorem AllDigits.take {text : List Char} (h : AllDigits text) (n : Nat) :
    AllDigits (text.take n) := fun c hmem => h c (List.mem_of_mem_take hmem)

theorem AllDigits.drop {text : List Char} (h : AllDigits text) (n : Nat) :
    AllDigits (text.drop n) := fun c hmem => h c (List.mem_of_mem_drop hmem)

/-- The digits that a text begins with end where something else begins. -/
theorem AllDigits.span {digits tail : List Char} (h : AllDigits digits)
    (htail : ∀ c ∈ tail.head?, c.isDigit = false) :
    (digits ++ tail).takeWhile Char.isDigit = digits ∧
      (digits ++ tail).dropWhile Char.isDigit = tail := by
  rw [List.takeWhile_append_of_pos h, List.dropWhile_append_of_pos h]
  cases tail with
  | nil => simp
  | cons c tail => simp [htail c rfl]

theorem natural?_toDigits (n : Nat) : natural? (Nat.toDigits 10 n) = some n := by
  rw [natural?, if_pos ⟨Nat.toDigits_ne_nil, List.all_eq_true.mpr (allDigits_toDigits n)⟩,
    value_toDigits]

/-- An exponent is read back. -/
theorem integer?_toString (z : Int) : integer? (toString z).toList = some z := by
  rw [Int.toString_eq_repr]
  cases z with
  | ofNat n =>
    have htext : (Int.repr (.ofNat n)).toList = Nat.toDigits 10 n := Nat.toList_repr
    rw [htext, integer?.eq_def]
    split
    · next digits hsign =>
      have := allDigits_toDigits n '+' (by simp [hsign])
      exact absurd this (by decide)
    · next digits hsign =>
      have := allDigits_toDigits n '-' (by simp [hsign])
      exact absurd this (by decide)
    · rw [natural?_toDigits]
      rfl
  | negSucc n =>
    have htext : (Int.repr (.negSucc n)).toList = '-' :: Nat.toDigits 10 (n + 1) := by
      rw [Int.repr, String.toList_append, Nat.toList_repr]
      rfl
    rw [htext, integer?, natural?_toDigits]
    rfl

section

variable {whole fraction tail : List Char} {exponent : Int}

/-- A numeral with a point is read with all its digits, counted back by those behind it. -/
theorem decimal?_point (hwhole : AllDigits whole) (hfraction : AllDigits fraction)
    (hne : whole ≠ []) (htail : ∀ c ∈ tail.head?, c.isDigit = false)
    (hexponent : exponent? tail = some exponent) :
    decimal? (whole ++ '.' :: (fraction ++ tail)) =
      some ⟨value (whole ++ fraction), exponent - fraction.length⟩ := by
  have hpoint : ∀ c ∈ ('.' :: (fraction ++ tail)).head?, c.isDigit = false := by simp
  obtain ⟨htake, hdrop⟩ := hwhole.span hpoint
  obtain ⟨htake', hdrop'⟩ := hfraction.span htail
  simp only [decimal?, htake, hdrop, places, htake', hdrop', hexponent, Option.map_some]
  rw [if_neg fun h => hne h.1]

theorem decimal?_places (hwhole : AllDigits whole) (hfraction : AllDigits fraction)
    (hne : whole ≠ []) :
    decimal? (whole ++ '.' :: fraction) =
      some ⟨value (whole ++ fraction), 0 - fraction.length⟩ := by
  have hend : ∀ c ∈ ([] : List Char).head?, c.isDigit = false := by simp
  have hread := decimal?_point hwhole hfraction hne hend rfl
  rwa [List.append_nil] at hread

/-- And one without a point as it stands. -/
theorem decimal?_whole (hwhole : AllDigits whole) (hne : whole ≠ [])
    (hexponent : exponent? ('e' :: tail) = some exponent) :
    decimal? (whole ++ 'e' :: tail) = some ⟨value whole, exponent⟩ := by
  have hletter : ∀ c ∈ ('e' :: tail).head?, c.isDigit = false := by simp
  obtain ⟨htake, hdrop⟩ := hwhole.span hletter
  have hplaces : places ('e' :: tail) = ([], 'e' :: tail) := rfl
  simp only [decimal?, htake, hdrop, hplaces, hexponent, Option.map_some, List.append_nil]
  rw [if_neg fun h => hne h.1]
  simp

/-- No decimal begins with a sign. -/
theorem not_sign_of_decimal? {text : List Char} {d : Decimal} (h : decimal? text = some d) :
    ∀ c ∈ text.head?, c ≠ '+' ∧ c ≠ '-' := by
  intro c hc
  cases text with
  | nil => exact absurd hc (by simp)
  | cons first rest =>
    obtain rfl : first = c := by simpa using hc
    constructor <;> (rintro rfl; simp [decimal?, places] at h)

theorem exponent?_toString (z : Int) : exponent? ('e' :: (toString z).toList) = some z := by
  rw [exponent?, if_pos (.inl rfl), integer?_toString]

end

end Numeral

-- ---------------------------------------------------------------------------
-- Decimals
-- ---------------------------------------------------------------------------

namespace Decimal

/-- Without the zeros at its end a decimal has the same value. -/
theorem value_strip (d : Decimal) : d.strip.value = d.value := by
  have hsplit : Nat.toDigits 10 d.digits =
      ((Nat.toDigits 10 d.digits).reverse.dropWhile (· == '0')).reverse ++
        List.replicate ((Nat.toDigits 10 d.digits).reverse.takeWhile (· == '0')).length '0' := by
    -- what was stripped is all zeros
    have hzeros : (Nat.toDigits 10 d.digits).reverse.takeWhile (· == '0') =
        List.replicate ((Nat.toDigits 10 d.digits).reverse.takeWhile (· == '0')).length '0' :=
      List.eq_replicate_iff.mpr ⟨rfl, fun c h => by simpa using List.mem_takeWhile_imp h⟩
    rw [← List.reverse_inj, List.reverse_append, List.reverse_replicate, List.reverse_reverse,
      ← hzeros, List.takeWhile_append_dropWhile]
  simp only [strip]
  generalize ((Nat.toDigits 10 d.digits).reverse.dropWhile (· == '0')).reverse = kept at hsplit ⊢
  generalize ((Nat.toDigits 10 d.digits).reverse.takeWhile (· == '0')).length = zeros at hsplit
  have hdigits := Numeral.value_toDigits d.digits
  -- the exponent was raised by as many as were stripped
  have hlength : (Nat.toDigits 10 d.digits).length - kept.length = zeros := by
    rw [hsplit, List.length_append, List.length_replicate, Nat.add_sub_cancel_left]
  rw [hsplit, Numeral.value_append_zeros] at hdigits
  rw [hlength, value, value, ← hdigits, zpow_add₀ (by norm_num), zpow_natCast]
  push_cast
  ring

theorem value_mk (digits : Nat) (exponent : Int) :
    value ⟨digits, exponent⟩ = digits * 10 ^ exponent := rfl

section

variable {digits : List Char}

/-- Digits with the point where it counts are read with their value, whether it stands in front of
them, among them or behind them. -/
theorem decimal?_positional (h : Numeral.AllDigits digits) (hne : digits ≠ []) (before : Int) :
    ∃ d, Numeral.decimal?
        ((if digits.take before.toNat ++ List.replicate (before.toNat - digits.length) '0' = []
          then ['0']
          else digits.take before.toNat ++ List.replicate (before.toNat - digits.length) '0') ++
        '.' :: (if List.replicate (-before).toNat '0' ++ digits.drop before.toNat = [] then ['0']
          else List.replicate (-before).toNat '0' ++ digits.drop before.toNat)) = some d ∧
      d.value = Numeral.value digits * 10 ^ (before - digits.length) := by
  have hten : (10 : ℚ) ≠ 0 := by norm_num
  have hpos : 0 < digits.length := List.length_pos_iff.mpr hne
  rcases le_or_gt before 0 with hfront | hfront
  -- the point is in front of the digits: zeros fill the places in between
  · have hzero : before.toNat = 0 := by omega
    have hback := (Numeral.allDigits_zeros (-before).toNat).append h
    have hread := Numeral.decimal?_places (Numeral.allDigits_zeros 1) hback (by simp)
    simp only [hzero, List.take_zero, List.drop_zero, Nat.zero_sub, List.replicate_zero,
      List.append_nil, if_true]
    rw [if_neg (by simp [hne])]
    refine ⟨_, hread, ?_⟩
    rw [value_mk, ← List.append_assoc, ← List.replicate_add, Numeral.value_zeros_append]
    congr 2
    rw [List.length_append, List.length_replicate]
    omega
  · have hnone : (-before).toNat = 0 := by omega
    rw [hnone, List.replicate_zero, List.nil_append]
    rcases lt_or_ge before digits.length with hlt | hge
    -- the point is among the digits: they are the same ones, on both sides of it
    · have hsub : before.toNat - digits.length = 0 := by omega
      have hback : digits.drop before.toNat ≠ [] := by
        rw [ne_eq, List.drop_eq_nil_iff]
        omega
      have hwhole : digits.take before.toNat ≠ [] := by
        rw [ne_eq, List.take_eq_nil_iff, not_or]
        exact ⟨by omega, hne⟩
      have hread := Numeral.decimal?_places (h.take before.toNat) (h.drop before.toNat) hwhole
      rw [List.take_append_drop] at hread
      rw [hsub, List.replicate_zero, List.append_nil, if_neg hwhole, if_neg hback]
      refine ⟨_, hread, ?_⟩
      rw [value_mk, List.length_drop]
      congr 2
      omega
    -- the point is behind the digits: zeros are added, and one more behind the point
    · have htake : digits.take before.toNat = digits := List.take_of_length_le (by omega)
      have hdrop : digits.drop before.toNat = [] := List.drop_of_length_le (by omega)
      have hwhole := h.append (Numeral.allDigits_zeros (before.toNat - digits.length))
      have hread := Numeral.decimal?_places hwhole (Numeral.allDigits_zeros 1) (by simp [hne])
      rw [htake, hdrop, if_neg (by simp [hne]), if_pos rfl]
      refine ⟨_, hread, ?_⟩
      rw [value_mk, List.append_assoc, ← List.replicate_add, Numeral.value_append_zeros]
      have hexponent : before - digits.length =
          (before.toNat - digits.length + 1 : Nat) + (-1) := by omega
      rw [hexponent, zpow_add₀ hten, zpow_natCast]
      push_cast
      simp
      ring

/-- And digits with an exponent. -/
theorem decimal?_scientific (h : Numeral.AllDigits digits) (hne : digits ≠ []) (exponent : Int) :
    ∃ d, Numeral.decimal? (digits.take 1 ++ (if digits.length ≤ 1 then [] else '.' :: digits.drop 1)
        ++ 'e' :: (toString exponent).toList) = some d ∧
      d.value = Numeral.value digits * 10 ^ (exponent + 1 - digits.length) := by
  have hpos : 0 < digits.length := List.length_pos_iff.mpr hne
  have hexponent := Numeral.exponent?_toString exponent
  have hwhole : digits.take 1 ≠ [] := by
    rw [ne_eq, List.take_eq_nil_iff]
    simp [hne]
  split
  · next hone =>
    -- a single digit has no point behind it
    have htake : digits.take 1 = digits := List.take_of_length_le hone
    rw [List.append_nil, htake]
    refine ⟨_, Numeral.decimal?_whole h hne hexponent, ?_⟩
    rw [value_mk]
    congr 2
    omega
  · have hread := Numeral.decimal?_point (h.take 1) (h.drop 1) hwhole (by simp) hexponent
    rw [List.take_append_drop] at hread
    rw [List.append_assoc, List.cons_append]
    refine ⟨_, hread, ?_⟩
    rw [value_mk, List.length_drop]
    congr 2
    omega

end

/-- Both forms of a decimal are read with its value. -/
theorem decimal?_written (d : Decimal) :
    ∃ d', Numeral.decimal? d.written = some d' ∧ d'.value = d.value := by
  rw [← value_strip]
  simp only [written]
  generalize d.strip = d
  have hdigits := Numeral.allDigits_toDigits d.digits
  have hvalue := Numeral.value_toDigits d.digits
  have hpos : 0 < (Nat.toDigits 10 d.digits).length := digitCount_pos d.digits
  generalize Nat.toDigits 10 d.digits = digits at *
  have hne : digits ≠ [] := List.length_pos_iff.mp hpos
  split
  · obtain ⟨d', hread, hd'⟩ := decimal?_positional hdigits hne (d.exponent + digits.length)
    refine ⟨d', hread, ?_⟩
    rw [hd', hvalue, add_sub_cancel_right, value]
  · obtain ⟨d', hread, hd'⟩ := decimal?_scientific hdigits hne (d.exponent + digits.length - 1)
    refine ⟨d', hread, ?_⟩
    rw [hd', hvalue, sub_add_cancel, add_sub_cancel_right, value]

end Decimal

-- ---------------------------------------------------------------------------
-- Numbers
-- ---------------------------------------------------------------------------

namespace Double

/-- A number with a clear sign is told by its magnitude. -/
theorem ofMagnitude_magnitude {x : Double} (h : x.isNegative = false) :
    ofMagnitude x.magnitude = x := by
  rw [isNegative, decide_eq_false_iff_not, not_le] at h
  rw [magnitude, Nat.mod_eq_of_lt h, ofMagnitude, UInt64.ofNat_toNat]

theorem xor_two_pow {n k : Nat} (h : n < 2 ^ k) : n ^^^ 2 ^ k = 2 ^ k + n := by
  apply Nat.eq_of_testBit_eq
  intro i
  rw [Nat.testBit_xor, Nat.testBit_two_pow]
  rcases lt_trichotomy i k with hlt | rfl | hgt
  · rw [Nat.testBit_two_pow_add_gt hlt, decide_eq_false (by omega), Bool.xor_false]
  · rw [Nat.testBit_two_pow_add_eq, decide_eq_true rfl, Bool.xor_true]
  · have hpow : 2 ^ (k + 1) ≤ 2 ^ i := Nat.pow_le_pow_right (by decide) hgt
    rw [Nat.pow_succ] at hpow
    -- above the added bit, neither number has one
    rw [Nat.testBit_lt_two_pow (by omega), Nat.testBit_lt_two_pow (by omega),
      decide_eq_false (by omega), Bool.xor_false]

/-- And one with its sign set is the other number of its magnitude. -/
theorem negate_ofMagnitude {x : Double} (h : x.isNegative = true) :
    (ofMagnitude x.magnitude).negate = x := by
  obtain ⟨bits⟩ := x
  rw [isNegative, decide_eq_true_eq] at h
  have hbits := bits.toNat_lt
  simp only [negate, ofMagnitude, magnitude, Double.mk.injEq] at h ⊢
  apply UInt64.toNat_inj.mp
  have hlt : bits.toNat % signWeight < 2 ^ 63 := Nat.mod_lt _ (by decide)
  have hsize : bits.toNat % signWeight < UInt64.size := by
    rw [UInt64.size]
    omega
  have hweight : UInt64.toNat 0x8000000000000000 = 2 ^ 63 := rfl
  rw [UInt64.toNat_xor, UInt64.toNat_ofNat_of_lt' hsize, hweight, xor_two_pow hlt]
  unfold signWeight at *
  omega

/-- What is written without regard to the sign is read as the number without its sign. -/
theorem unsigned?_written (x : Double) (h : x.isNaN = false) :
    ∃ text : List Char, (∀ c ∈ text.head?, c ≠ '+' ∧ c ≠ '-') ∧
      Numeral.unsigned? text = some (ofMagnitude x.magnitude) ∧
      x.written.toList = if x.isNegative then '-' :: text else text := by
  -- the sign is written in front of whatever the rest is
  have hsigned : ∀ digits : String, (if x.isNegative then "-" ++ digits else digits).toList =
      if x.isNegative then '-' :: digits.toList else digits.toList := by
    intro digits
    split
    · rw [String.toList_append]
      rfl
    · rfl
  simp only [written, h, Bool.false_eq_true, if_false]
  by_cases hinfinite : x.magnitude = infinite
  · simp only [hinfinite, if_true]
    exact ⟨['i', 'n', 'f'], by simp, rfl, hsigned "inf"⟩
  · simp only [hinfinite, if_false]
    by_cases hzero : x.magnitude = 0
    · simp only [hzero, if_true]
      exact ⟨['0', '.', '0'], by simp, rfl, hsigned "0.0"⟩
    · simp only [hzero, if_false]
      have hpos : 0 < x.magnitude := by omega
      have hfinite : x.magnitude < infinite := by
        rw [isNaN, decide_eq_false_iff_not] at h
        omega
      -- the text is read as a decimal, and this is rounded to the number
      obtain ⟨d, hread, hvalue⟩ := x.shortest.decimal?_written
      have hreads := reads_shortest hpos
      rw [← hvalue] at hreads
      refine ⟨x.shortest.written, Numeral.not_sign_of_decimal? hread, ?_, ?_⟩
      · rw [Numeral.unsigned?, hread]
        exact congrArg some (toDouble_of_reads hpos hfinite hreads)
      · rw [hsigned, String.toList_ofList]

/-- A numeral without a sign is read as it stands. -/
theorem read?_of_unsigned {text : String} (h : ∀ c ∈ text.toList.head?, c ≠ '+' ∧ c ≠ '-') :
    Numeral.read? text = Numeral.unsigned? text.toList := by
  rw [Numeral.read?]
  split
  · next rest htext =>
    rw [htext] at h
    exact absurd rfl (h _ rfl).1
  · next rest htext =>
    rw [htext] at h
    exact absurd rfl (h _ rfl).2
  · rfl

/-- **Numbers are read back.** -/
theorem read?_written (x : Double) (h : x.isNaN = false) :
    Numeral.read? x.written = some x := by
  obtain ⟨text, hfront, hread, hwritten⟩ := x.unsigned?_written h
  cases hsign : x.isNegative with
  | false =>
    rw [hsign, if_neg (by simp)] at hwritten
    rw [← hwritten] at hfront hread
    rw [read?_of_unsigned hfront, hread, ofMagnitude_magnitude hsign]
  | true =>
    rw [hsign, if_pos rfl] at hwritten
    rw [Numeral.read?, hwritten]
    simp only [hread, Option.map_some, negate_ofMagnitude hsign]

end Double

end Reckon
