import Reckon.Text.Measure
import Reckon.Token
import Reckon.Token.Lexeme

/-!
# Reckon — a cursor over a source

A byte position that is moved over a source by hand, with the tokens that were put down on the
way. It may be moved anywhere, also past the end or into the middle of a character; only what is
asked of the text there depends on where it stands. The position is a word of 64 bits: what runs
past the greatest word starts again at zero, so a large step also leads back.

Reading moves it round by round: each puts down the token of the lexeme at the cursor, if that makes
one, and steps over the lexeme.

* `toNat_pos_advance` — a step counts modulo the number of words.
* `rest?_eq_some_iff` — there is text at the cursor exactly where it stands between characters.
-/

namespace Reckon

/-- A position in a source and the tokens put down so far. -/
structure Cursor where
  source : List Char
  file : String
  pos : UInt64
  tokens : List Token

namespace Cursor

/-- The cursor at the start of a source. -/
def start (source : String) (file : String) : Cursor := ⟨source.toList, file, 0, []⟩

/-- Moves the cursor by `n` bytes, without a look at the text; past the greatest word it goes on
from zero. -/
def advance (cursor : Cursor) (n : UInt64) : Cursor := { cursor with pos := cursor.pos + n }

/-- Puts a token down. -/
def push (cursor : Cursor) (token : Token) : Cursor :=
  { cursor with tokens := cursor.tokens ++ [token] }

/-- The text from the cursor on; none past the end or inside a character. -/
def rest? (cursor : Cursor) : Option (List Char) :=
  (Text.cut cursor.pos.toNat cursor.source).map Prod.snd

/-- Whether nothing is left: the cursor stands at the end or past it. -/
def atEnd (cursor : Cursor) : Bool := decide (Text.size cursor.source ≤ cursor.pos.toNat)

/-- The span from the cursor to where a step of `length` bytes leads. -/
def span (cursor : Cursor) (length : UInt64) : Span :=
  ⟨⟨cursor.pos.toNat, cursor.file⟩, ⟨(cursor.pos + length).toNat, cursor.file⟩⟩

/-- One round of reading. There is none where no text at the cursor can be taken, or where it is
empty. -/
def round? (cursor : Cursor) : Option Cursor :=
  match cursor.rest? with
  | some (c :: after) =>
    let lexeme := Lexeme.first c after
    let length := UInt64.ofNat (Text.size lexeme.text)
    let cursor := match lexeme.kind with
      | none => cursor
      | some kind => cursor.push ⟨kind, String.ofList lexeme.text, cursor.span length⟩
    some (cursor.advance length)
  | _ => none

/-- A step adds to the position, modulo the number of words. -/
theorem toNat_pos_advance (cursor : Cursor) (n : UInt64) :
    (cursor.advance n).pos.toNat = (cursor.pos.toNat + n.toNat) % UInt64.size :=
  UInt64.toNat_add cursor.pos n

/-- There is text at the cursor exactly where some front part of the source ends. -/
theorem rest?_eq_some_iff {cursor : Cursor} {rest : List Char} :
    cursor.rest? = some rest ↔
      ∃ front, cursor.source = front ++ rest ∧ Text.size front = cursor.pos.toNat := by
  unfold rest?
  constructor
  · intro h
    obtain ⟨⟨front, back⟩, hcut, rfl⟩ := Option.map_eq_some_iff.mp h
    exact ⟨front, Text.eq_append_of_cut hcut⟩
  · rintro ⟨front, hsource, hsize⟩
    rw [hsource, ← hsize, Text.cut_size_append]
    rfl

end Cursor

end Reckon
