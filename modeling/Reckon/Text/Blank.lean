import Reckon.Text.Ranges

/-!
# Reckon — blank characters

The characters of the Unicode property White_Space, and the trimming of a text by them. Between
tokens of the language only four of these are layout; the whole class matters where a text is
trimmed before it is read or shown.

* `trimEnd_spec` — what is cut off the end is blank, and what is kept does not end in a blank.
-/

namespace Reckon.Text

/-- The ranges of the blank characters, ascending: 25 characters. -/
def blankRanges : List (Nat × Nat) :=
  [(0x9, 0xD), (0x20, 0x20), (0x85, 0x85), (0xA0, 0xA0), (0x1680, 0x1680), (0x2000, 0x200A),
  (0x2028, 0x2029), (0x202F, 0x202F), (0x205F, 0x205F), (0x3000, 0x3000)]

theorem blankRanges_ascending : ascendingFrom 0 blankRanges = true := by decide

/-- Whether a character is white space in the sense of Unicode. -/
def isBlank (c : Char) : Bool := inRanges c.toNat blankRanges

/-- Blank characters are those of the ranges. -/
theorem isBlank_iff {c : Char} :
    isBlank c = true ↔ ∃ range ∈ blankRanges, range.1 ≤ c.toNat ∧ c.toNat ≤ range.2 :=
  inRanges_iff blankRanges_ascending

/-- A text without the blanks it begins with. -/
def trimStart (text : List Char) : List Char := text.dropWhile isBlank

/-- A text without the blanks it ends with. -/
def trimEnd : List Char → List Char
  | [] => []
  | c :: rest =>
    match trimEnd rest with
    | [] => if isBlank c then [] else [c]
    | kept => c :: kept

/-- A text without the blanks at its two ends. -/
def trim (text : List Char) : List Char := trimEnd (trimStart text)

/-- A text vanishes if it is all blank. -/
theorem trimEnd_eq_nil_iff {text : List Char} :
    trimEnd text = [] ↔ ∀ c ∈ text, isBlank c = true := by
  induction text with
  | nil => simp [trimEnd]
  | cons c rest ih =>
    simp only [trimEnd, List.mem_cons, forall_eq_or_imp, ← ih]
    split <;> simp_all

/-- Blanks at the end of a text do not count. -/
theorem trimEnd_append_blanks {back : List Char} (h : ∀ c ∈ back, isBlank c = true)
    (text : List Char) : trimEnd (text ++ back) = trimEnd text := by
  induction text with
  | nil => exact trimEnd_eq_nil_iff.mpr h
  | cons c text ih => rw [List.cons_append, trimEnd, trimEnd, ih]

/-- Trimming the end drops blanks and nothing else, and no blank is left there. -/
theorem trimEnd_spec (text : List Char) :
    ∃ dropped, text = trimEnd text ++ dropped ∧ (∀ c ∈ dropped, isBlank c = true) ∧
      ∀ c, (trimEnd text).getLast? = some c → isBlank c = false := by
  induction text with
  | nil => exact ⟨[], by simp [trimEnd]⟩
  | cons c rest ih =>
    obtain ⟨dropped, hsplit, hblank, hlast⟩ := ih
    cases hrest : trimEnd rest with
    | nil =>
      by_cases hc : isBlank c = true
      · refine ⟨c :: rest, by simp [trimEnd, hrest, hc], ?_, by simp [trimEnd, hrest, hc]⟩
        intro x hx
        rcases List.mem_cons.mp hx with rfl | hx
        · exact hc
        · exact trimEnd_eq_nil_iff.mp hrest x hx
      · refine ⟨rest, by simp [trimEnd, hrest, hc], trimEnd_eq_nil_iff.mp hrest, ?_⟩
        simp_all [trimEnd]
    | cons k kept =>
      refine ⟨dropped, ?_, hblank, ?_⟩
      · rw [hrest] at hsplit
        simp only [trimEnd, hrest, List.cons_append]
        exact congrArg _ hsplit
      · intro x hx
        simp only [trimEnd, hrest, List.getLast?_cons_cons] at hx
        exact hlast x (by rw [hrest]; exact hx)

end Reckon.Text
