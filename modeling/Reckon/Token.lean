import Reckon.Span
import Reckon.Token.Kind

/-!
# Reckon — tokens

A token is a kind, the text it was written with and the span it was read from.
-/

namespace Reckon

/-- One token of a source. -/
structure Token where
  kind : Kind
  text : String
  span : Span
deriving DecidableEq, Repr

namespace Token

/-- The token that ends a token list, standing at `position`. -/
def endOfInput (position : Position) : Token := ⟨.endOfInput, "EOF", .emptyAt position⟩

/-- How the token reads in a report: the end of input by name, all others by their text. -/
def describe (token : Token) : String :=
  if token.kind = .endOfInput then "end of input" else "\"" ++ token.text ++ "\""

/-- The token's line in a listing: its kind, and its text where the kind does not tell it. -/
def listing (token : Token) : String :=
  match token.kind with
  | .identifier | .number | .unrecognised => token.kind.name ++ " (" ++ token.text ++ ")"
  | _ => token.kind.name ++ " ()"

/-- Kind and text on lines of their own. -/
def card (token : Token) : String :=
  "Token \x7b\nkind: " ++ token.kind.name ++ ",\nvalue: " ++ token.text ++ "\x7d"

end Token

end Reckon
