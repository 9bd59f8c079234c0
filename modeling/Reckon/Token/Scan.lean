import Reckon.Text.Measure
import Reckon.Token
import Reckon.Token.Lexeme

/-!
# Reckon — the tokens of a source

A source is read lexeme by lexeme from its front; lexemes with a kind become tokens. Reading never
fails: a character that begins nothing else is a token of its own kind, so that what is wrong with
it can be said together with what was expected in its place.
-/

namespace Reckon

/-- The tokens of a text that stands at the given offset of a source, and the end token. -/
def scan (file : String) (offset : Nat) : List Char → List Token
  | [] => [.endOfInput ⟨offset, file⟩]
  | c :: after =>
    let lexeme := Lexeme.first c after
    let length := Text.size lexeme.text
    let later := scan file (offset + length) lexeme.rest
    match lexeme.kind with
    | none => later
    | some kind => ⟨kind, String.ofList lexeme.text, .ofLength file offset length⟩ :: later
termination_by text => text.length
decreasing_by exact Lexeme.first_rest_length_lt c after

/-- The name of a source that was given none. -/
def defaultName : String := "shell"

/-- All tokens of a source, the end token last. -/
def tokenize (source : String) (file : String) : List Token := scan file 0 source.toList

end Reckon
