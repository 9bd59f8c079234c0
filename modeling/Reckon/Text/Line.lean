import Reckon.Text.Measure

/-!
# Reckon — the line at an offset

Where an offset falls in a text that is split into lines. A newline belongs to the line that it
ends, and an offset past the end counts as the end. The end of a text that ends in a newline is the
start of one more line, which is empty.

* `flatten_lines` — the lines are the whole text.
-/

namespace Reckon.Text

/-- A line that holds an offset: its number, counted from one, its text with the newline that
ends it, and the bytes of it in front of the offset. -/
structure Line where
  number : Nat
  text : List Char
  offset : Nat
deriving DecidableEq, Repr

/-- The lines of a text, each with the newline that ends it. -/
def lines : List Char → List (List Char)
  | [] => []
  | c :: rest =>
    if c = '\n' then [c] :: lines rest
    else
      match lines rest with
      | [] => [[c]]
      | line :: later => (c :: line) :: later

/-- The lines of a text are the whole text. -/
theorem flatten_lines (text : List Char) : (lines text).flatten = text := by
  induction text with
  | nil => rfl
  | cons c rest ih =>
    unfold lines
    split
    · simp [ih]
    · split
      · rename_i h
        rw [h] at ih
        simp_all
      · rename_i h
        rw [h] at ih
        simp_all

/-- The line that holds the offset, in lines that are numbered from `number`. -/
def lineAmong (number offset : Nat) : List (List Char) → Line
  | [] => ⟨number, [], 0⟩
  | line :: later =>
    if offset < size line ∨ line.getLast? ≠ some '\n' then ⟨number, line, offset⟩
    else lineAmong (number + 1) (offset - size line) later

/-- The line of a text that holds the offset. -/
def lineAt (text : List Char) (offset : Nat) : Line :=
  lineAmong 1 (min offset (size text)) (lines text)

end Reckon.Text
