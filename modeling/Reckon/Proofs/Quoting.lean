import Mathlib.Data.List.Forall2
import Reckon.Text.Quoted

/-!
# Reckon — what is written between quotes

The forms of the characters in a quoted text are told here by a relation, one rule for each form.
Every character has one form and no other, so this also tells what a whole text is quoted as.

* `Escaped`, `Quotes` — the forms of characters and of texts.
* `quotes_iff` — a text is quoted so and in no other way.
-/

namespace Reckon.Text

/-- How a character is written between quotes: the two signs that mean something there and four of
the controls behind a backslash, what is hidden by its number in hexadecimal digits, and everything
else as itself. -/
inductive Escaped : Char → List Char → Prop
  | quote          : Escaped '"' ['\\', '"']
  | backslash      : Escaped '\\' ['\\', '\\']
  | newline        : Escaped '\n' ['\\', 'n']
  | carriageReturn : Escaped '\r' ['\\', 'r']
  | tab            : Escaped '\t' ['\\', 't']
  | null           : Escaped '\x00' ['\\', '0']
  | hidden {c : Char} (hnamed : c ∉ ['\n', '\r', '\t', '\x00']) (hhidden : isHidden c = true) :
      Escaped c ('\\' :: 'u' :: '\x7b' :: Nat.toDigits 16 c.toNat ++ ['\x7d'])
  | shown {c : Char} (hsign : c ≠ '"' ∧ c ≠ '\\') (hshown : isHidden c = false) : Escaped c [c]

/-- The text is quoted so: the forms of its characters stand between two quotes. -/
def Quotes (text written : String) : Prop :=
  ∃ forms, List.Forall₂ Escaped text.toList forms ∧ written.toList = '"' :: forms.flatten ++ ['"']

/-- What is hidden and has no sign of its own is written by its number. -/
theorem escape_of_hidden {c : Char} (hnamed : c ∉ ['\n', '\r', '\t', '\x00'])
    (hsign : c ≠ '"' ∧ c ≠ '\\') (h : isHidden c = true) :
    escape c = '\\' :: 'u' :: '\x7b' :: Nat.toDigits 16 c.toNat ++ ['\x7d'] := by
  unfold escape
  split <;> simp_all

/-- What can be shown is written as itself. -/
theorem escape_of_shown {c : Char} (hnamed : c ∉ ['\n', '\r', '\t', '\x00'])
    (hsign : c ≠ '"' ∧ c ≠ '\\') (h : isHidden c = false) : escape c = [c] := by
  unfold escape
  split <;> simp_all

/-- The controls with a form of their own are in the first of the hidden ranges. -/
theorem isHidden_named {c : Char} (h : c ∈ ['\n', '\r', '\t', '\x00']) : isHidden c = true := by
  have hle : c.toNat ≤ 0x1F := by
    simp only [List.mem_cons, List.not_mem_nil, or_false] at h
    rcases h with rfl | rfl | rfl | rfl <;> decide
  exact isHidden_iff.mpr ⟨(0x0, 0x1F), List.mem_cons_self, Nat.zero_le _, hle⟩

/-- The two signs that mean something between quotes can be shown. -/
theorem isHidden_signs : isHidden '"' = false ∧ isHidden '\\' = false := by decide +kernel

/-- Every character has a form. -/
theorem escaped_escape (c : Char) : Escaped c (escape c) := by
  by_cases hsign : c ≠ '"' ∧ c ≠ '\\'
  · by_cases hnamed : c ∈ ['\n', '\r', '\t', '\x00']
    · simp only [List.mem_cons, List.not_mem_nil, or_false] at hnamed
      -- the four controls have signs, and other hidden characters their numbers
      rcases hnamed with rfl | rfl | rfl | rfl
      · exact .newline
      · exact .carriageReturn
      · exact .tab
      · exact .null
    · cases hhidden : isHidden c with
      | true =>
        rw [escape_of_hidden hnamed hsign hhidden]
        exact .hidden hnamed hhidden
      | false =>
        rw [escape_of_shown hnamed hsign hhidden]
        exact .shown hsign hhidden
  · rw [ne_eq, ne_eq, ← not_or, not_not] at hsign
    rcases hsign with rfl | rfl
    · exact .quote
    · exact .backslash

/-- A character has one form only. -/
theorem eq_escape_of_escaped {c : Char} {form : List Char} (h : Escaped c form) :
    form = escape c := by
  cases h with
  | hidden hnamed hhidden =>
    -- the two signs are not hidden, so this is neither of them
    have hsign : c ≠ '"' ∧ c ≠ '\\' := by
      constructor <;> rintro rfl
      · exact absurd hhidden (by simp [isHidden_signs])
      · exact absurd hhidden (by simp [isHidden_signs])
    exact (escape_of_hidden hnamed hsign hhidden).symm
  | shown hsign hshown =>
    have hnamed : c ∉ ['\n', '\r', '\t', '\x00'] := by
      intro hmem
      rw [isHidden_named hmem] at hshown
      exact absurd hshown (by simp)
    exact (escape_of_shown hnamed hsign hshown).symm
  | _ => rfl

/-- So the form of a character is the one that it is written in. -/
theorem escaped_iff {c : Char} {form : List Char} : Escaped c form ↔ form = escape c := by
  constructor
  · exact eq_escape_of_escaped
  · rintro rfl
    exact escaped_escape c

theorem forall₂_escaped_iff {text : List Char} {forms : List (List Char)} :
    List.Forall₂ Escaped text forms ↔ forms = text.map escape := by
  induction text generalizing forms with
  | nil => rw [List.forall₂_nil_left_iff, List.map_nil]
  | cons c text ih =>
    simp only [List.forall₂_cons_left_iff, escaped_iff, ih, List.map_cons]
    constructor
    · rintro ⟨form, later, rfl, rfl, h⟩
      exact h
    · intro h
      exact ⟨_, _, rfl, rfl, h⟩

/-- A text is quoted in one way. -/
theorem quotes_iff {text written : String} : Quotes text written ↔ written = quoted text := by
  constructor
  · rintro ⟨forms, hforms, hwritten⟩
    rw [forall₂_escaped_iff.mp hforms, ← List.flatMap_def] at hwritten
    rw [quoted, ← hwritten, String.ofList_toList]
  · rintro rfl
    refine ⟨text.toList.map escape, forall₂_escaped_iff.mpr rfl, ?_⟩
    rw [quoted, String.toList_ofList, List.flatMap_def]

theorem quotes_quoted (text : String) : Quotes text (quoted text) := quotes_iff.mpr rfl

end Reckon.Text
