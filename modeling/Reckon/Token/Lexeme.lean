import Reckon.Text.Letter
import Reckon.Token.Kind

/-!
# Reckon — the first lexeme of a text

A lexeme is what the front of a text is read as: layout and comments, which make no token, or the
characters of one token. The choices are tried in a fixed order and each takes as much as it can:

1. a run of spaces, tabs, carriage returns and newlines;
2. `//` and all up to the end of the line, without the newline;
3. a letter and the letters and ASCII digits after it;
4. ASCII digits, with a point and more digits if a digit follows the point;
5. an operator or parenthesis, the longer of two that fit;
6. any one character.

* `first_text_append_rest` — a lexeme and what follows it are the whole text.
* `first_rest_length_lt` — a lexeme is never empty, so what follows it is shorter.
-/

namespace Reckon

open Text

/-- The characters that separate tokens and mean nothing else. -/
def isLayout (c : Char) : Bool := c == ' ' || c == '\t' || c == '\r' || c == '\n'

/-- The characters that continue a word. -/
def isWordChar (c : Char) : Bool := isLetter c || c.isDigit

/-- The front of a text, read: its kind (none if it makes no token), its characters, the rest. -/
structure Lexeme where
  kind : Option Kind
  text : List Char
  rest : List Char

namespace Lexeme

/-- The lexeme that takes `c` and all characters after it that satisfy `p`. -/
def run (kind : Option Kind) (p : Char → Bool) (c : Char) (after : List Char) : Lexeme :=
  ⟨kind, c :: after.takeWhile p, after.dropWhile p⟩

/-- A word: a reserved word if the whole of it is one, else an identifier. -/
def word (c : Char) (after : List Char) : Lexeme :=
  let text := c :: after.takeWhile isWordChar
  run (some ((Kind.reserved? (String.ofList text)).getD .identifier)) isWordChar c after

/-- The fraction a text begins with: a point and digits, if a digit follows the point. -/
def fraction : List Char → List Char × List Char
  | '.' :: d :: later =>
    if d.isDigit then ('.' :: d :: later.takeWhile Char.isDigit, later.dropWhile Char.isDigit)
    else ([], '.' :: d :: later)
  | text => ([], text)

/-- A number: digits, and the fraction that follows them. -/
def number (c : Char) (after : List Char) : Lexeme :=
  let tail := fraction (after.dropWhile Char.isDigit)
  ⟨some .number, c :: after.takeWhile Char.isDigit ++ tail.1, tail.2⟩

/-- An operator or a parenthesis, or else the one character. -/
def symbol (c : Char) (after : List Char) : Lexeme :=
  match c, after with
  | '(', rest => ⟨some .openParen, ['('], rest⟩
  | ')', rest => ⟨some .closeParen, [')'], rest⟩
  | '=', '=' :: rest => ⟨some .equals, ['=', '='], rest⟩
  | '=', rest => ⟨some .assignment, ['='], rest⟩
  | '+', rest => ⟨some .plus, ['+'], rest⟩
  | '-', rest => ⟨some .dash, ['-'], rest⟩
  | '*', '*' :: rest => ⟨some .starStar, ['*', '*'], rest⟩
  | '*', rest => ⟨some .star, ['*'], rest⟩
  | '/', rest => ⟨some .slash, ['/'], rest⟩
  | '%', rest => ⟨some .percent, ['%'], rest⟩
  | c, rest => ⟨some .unrecognised, [c], rest⟩

/-- The first lexeme of the text `c :: after`. -/
def first (c : Char) (after : List Char) : Lexeme :=
  if isLayout c then run none isLayout c after
  else if c = '/' ∧ after.head? = some '/' then run none (· != '\n') c after
  else if isLetter c then word c after
  else if c.isDigit then number c after
  else symbol c after

-- ---------------------------------------------------------------------------
-- A lexeme takes characters off the front, and at least one
-- ---------------------------------------------------------------------------

/-- A run and what follows it are the text it was taken from. -/
theorem run_text_append_rest (kind : Option Kind) (p : Char → Bool) (c : Char)
    (after : List Char) : (run kind p c after).text ++ (run kind p c after).rest = c :: after := by
  simp [run, List.takeWhile_append_dropWhile]

/-- A fraction and what follows it are the text behind the whole part. -/
theorem fraction_append (text : List Char) : (fraction text).1 ++ (fraction text).2 = text := by
  unfold fraction
  split
  · split <;> simp [List.takeWhile_append_dropWhile]
  · rfl

/-- A number and what follows it are the text it was taken from. -/
theorem number_text_append_rest (c : Char) (after : List Char) :
    (number c after).text ++ (number c after).rest = c :: after := by
  simp [number, List.append_assoc, fraction_append, List.takeWhile_append_dropWhile]

/-- So are a mark and what follows it. -/
theorem symbol_text_append_rest (c : Char) (after : List Char) :
    (symbol c after).text ++ (symbol c after).rest = c :: after := by
  unfold symbol
  split <;> rfl

/-- A lexeme and what follows it are the whole text. -/
theorem first_text_append_rest (c : Char) (after : List Char) :
    (first c after).text ++ (first c after).rest = c :: after := by
  unfold first
  split
  · exact run_text_append_rest ..
  · split
    · exact run_text_append_rest ..
    · split
      · exact run_text_append_rest ..
      · split
        · exact number_text_append_rest c after
        · exact symbol_text_append_rest c after

theorem symbol_text_ne_nil (c : Char) (after : List Char) : (symbol c after).text ≠ [] := by
  unfold symbol
  split <;> simp

/-- There is no empty lexeme, so every round of the scan takes something away. -/
theorem first_text_ne_nil (c : Char) (after : List Char) : (first c after).text ≠ [] := by
  unfold first
  split
  · simp [run]
  · split
    · simp [run]
    · split
      · simp [word, run]
      · split
        · simp [number]
        · exact symbol_text_ne_nil c after

/-- A lexeme is never empty, so what follows it is shorter. -/
theorem first_rest_length_lt (c : Char) (after : List Char) :
    (first c after).rest.length < (c :: after).length := by
  have hsplit := congrArg List.length (first_text_append_rest c after)
  have hpos := List.length_pos_iff.mpr (first_text_ne_nil c after)
  rw [List.length_append] at hsplit
  omega

end Lexeme

end Reckon
