/-!
# Reckon — kinds of tokens

The eighteen kinds of tokens, their names, and how each reads in a list of what was expected.
-/

namespace Reckon

/-- What a token is. The four reserved words are kinds of their own. -/
inductive Kind
  | endOfInput
  | number
  | identifier
  | openParen
  | closeParen
  | assignment
  | equals
  | plus
  | dash
  | star
  | starStar
  | slash
  | percent
  /-- A character that begins no other token. -/
  | unrecognised
  | letWord
  | printWord
  | absWord
  | sqrtWord
deriving DecidableEq, Repr

namespace Kind

/-- All kinds. -/
def all : List Kind :=
  [endOfInput, number, identifier, openParen, closeParen, assignment, equals, plus, dash, star,
    starStar, slash, percent, unrecognised, letWord, printWord, absWord, sqrtWord]

/-- The kind's name in token listings and structured text. -/
def name : Kind → String
  | endOfInput => "EOF"
  | number => "Number"
  | identifier => "Identifier"
  | openParen => "OpenParen"
  | closeParen => "CloseParen"
  | assignment => "Assignment"
  | equals => "Equals"
  | plus => "Plus"
  | dash => "Dash"
  | star => "Star"
  | starStar => "StarStar"
  | slash => "Slash"
  | percent => "Percent"
  | unrecognised => "Unrecognised"
  | letWord => "Let"
  | printWord => "Print"
  | absWord => "Abs"
  | sqrtWord => "Sqrt"

/-- The kind of the given name. -/
def ofName? (text : String) : Option Kind := all.find? fun kind => kind.name == text

/-- A kind is found by its name. -/
theorem ofName?_name (kind : Kind) : ofName? kind.name = some kind := by
  cases kind <;> decide

/-- How the kind reads in a list of what was expected. -/
def describe : Kind → String
  | endOfInput => "end of input"
  | number => "a number"
  | identifier => "an identifier"
  | openParen => "\"(\""
  | closeParen => "\")\""
  | assignment => "\"=\""
  | equals => "\"==\""
  | plus => "\"+\""
  | dash => "\"-\""
  | star => "\"*\""
  | starStar => "\"**\""
  | slash => "\"/\""
  | percent => "\"%\""
  | unrecognised => "an unrecognised character"
  | letWord => "\"let\""
  | printWord => "\"print\""
  | absWord => "\"abs\""
  | sqrtWord => "\"sqrt\""

/-- No two kinds read alike, so a list of descriptions tells which kinds were meant. -/
theorem describe_injective {a b : Kind} (h : a.describe = b.describe) : a = b := by
  revert h
  cases a <;> cases b <;> decide

/-- The kind of a reserved word. -/
def reserved? (word : String) : Option Kind :=
  if word = "let" then some letWord
  else if word = "print" then some printWord
  else if word = "abs" then some absWord
  else if word = "sqrt" then some sqrtWord
  else none

end Kind

end Reckon
