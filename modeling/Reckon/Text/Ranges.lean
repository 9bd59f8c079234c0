/-!
# Reckon — character sets by code point

A set of characters is kept as an ascending list of inclusive ranges of code points. Membership
walks the list and stops at the first range that begins after the character.

* `inRanges_iff` — over an ascending list, stopping early misses nothing: a code point is found
  exactly when one of the ranges holds it.
-/

namespace Reckon.Text

/-- Whether `n` lies in one of the ranges, which are given in ascending order. -/
def inRanges (n : Nat) : List (Nat × Nat) → Bool
  | [] => false
  | (lo, hi) :: later => decide (lo ≤ n) && (decide (n ≤ hi) || inRanges n later)

/-- Whether every range begins above all earlier ones and `floor`. -/
def ascendingFrom (floor : Nat) : List (Nat × Nat) → Bool
  | [] => true
  | (lo, hi) :: later => decide (floor ≤ lo) && decide (lo ≤ hi) && ascendingFrom (hi + 1) later

/-- No range of an ascending list begins below its floor. -/
theorem le_of_mem_of_ascendingFrom {floor : Nat} {ranges : List (Nat × Nat)}
    (h : ascendingFrom floor ranges = true) {r : Nat × Nat} (hr : r ∈ ranges) : floor ≤ r.1 := by
  induction ranges generalizing floor with
  | nil => simp at hr
  | cons head later ih =>
    obtain ⟨lo, hi⟩ := head
    simp only [ascendingFrom, Bool.and_eq_true, decide_eq_true_eq] at h
    rcases List.mem_cons.mp hr with rfl | hmem
    · exact h.1.1
    · have := ih h.2 hmem
      omega

/-- Membership in an ascending list of ranges is membership in one of them. -/
theorem inRanges_iff {floor n : Nat} {ranges : List (Nat × Nat)}
    (h : ascendingFrom floor ranges = true) :
    inRanges n ranges = true ↔ ∃ r ∈ ranges, r.1 ≤ n ∧ n ≤ r.2 := by
  induction ranges generalizing floor with
  | nil => simp [inRanges]
  | cons head later ih =>
    obtain ⟨lo, hi⟩ := head
    simp only [ascendingFrom, Bool.and_eq_true, decide_eq_true_eq] at h
    simp only [inRanges, Bool.and_eq_true, Bool.or_eq_true, decide_eq_true_eq, ih h.2,
      List.mem_cons, exists_eq_or_imp]
    constructor
    · rintro ⟨hlo, hhi | hlater⟩
      · exact .inl ⟨hlo, hhi⟩
      · exact .inr hlater
    · rintro (⟨hlo, hhi⟩ | ⟨r, hr, hle, hge⟩)
      · exact ⟨hlo, .inl hhi⟩
      · have := le_of_mem_of_ascendingFrom h.2 hr
        exact ⟨by omega, .inr ⟨r, hr, hle, hge⟩⟩

end Reckon.Text
