import Reckon.Grammar
import Reckon.Token

/-!
# Reckon — derivations

What the grammar says about a token list: which tokens make up which phrase. Every token that a
rule takes is kept, keywords and parentheses too, so the tokens of a derivation in order are the
tokens it was made from (`Phrase.tokens`).

Expressions are layered. A phrase of one layer is a phrase of the next tighter layer, or an
operator of the layer between two operands; chains grow to the left, as the rules of the grammar
do, except for exponents, which grow to the right.
-/

namespace Reckon

/-- A phrase of an expression, by the layer of the grammar it belongs to: 0 for primaries, 1 for
factors, and above them the three layers of chains, 2 for terms, 3 for sums, 4 for expressions. -/
inductive Phrase : Nat → Type
  | identifier (id : Token) : Phrase 0
  | numeral (token : Token) : Phrase 0
  | parens (opening : Token) (body : Phrase 4) (closing : Token) : Phrase 0
  | unary (op : Token) (operand : Phrase 1) : Phrase 0
  | primary (inner : Phrase 0) : Phrase 1
  | power (base : Phrase 0) (op : Token) (exponent : Phrase 1) : Phrase 1
  | single {n : Nat} (operand : Phrase (n + 1)) : Phrase (n + 2)
  | chain {n : Nat} (left : Phrase (n + 2)) (op : Token) (right : Phrase (n + 1)) : Phrase (n + 2)

namespace Phrase

/-- The tokens of a phrase, in order. -/
def tokens {l : Nat} : Phrase l → List Token
  | .identifier id => [id]
  | .numeral token => [token]
  | .parens opening body closing => opening :: body.tokens ++ [closing]
  | .unary op operand => op :: operand.tokens
  | .primary inner => inner.tokens
  | .power base op exponent => base.tokens ++ op :: exponent.tokens
  | .single operand => operand.tokens
  | .chain left op right => left.tokens ++ op :: right.tokens

/-- The level of the operators of the chains of layer `n + 2`. -/
def chainLevel : Nat → Level
  | 0 => .multiplicative
  | 1 => .additive
  | _ => .relational

end Phrase

/-- A primary expression. -/
abbrev Primary := Phrase 0

/-- Primaries, joined by exponents. -/
abbrev Factor := Phrase 1

/-- Factors, joined by multiplicative operators. -/
abbrev Term := Phrase 2

/-- Terms, joined by additive operators. -/
abbrev Sum := Phrase 3

/-- Sums, joined by equality signs. -/
abbrev Exp := Phrase 4

/-- A statement as it was matched. -/
inductive Clause
  | declare (keyword id eq : Token) (exp : Exp)
  | assign (id eq : Token) (exp : Exp)
  | print (keyword : Token) (exp : Exp)

/-- The tokens of a clause, in order. -/
def Clause.tokens : Clause → List Token
  | .declare keyword id eq exp => keyword :: id :: eq :: exp.tokens
  | .assign id eq exp => id :: eq :: exp.tokens
  | .print keyword exp => keyword :: exp.tokens

/-- A whole token list as it was matched. -/
structure Derivation where
  clauses : List Clause

/-- The tokens of a derivation, in order. -/
def Derivation.tokens (derivation : Derivation) : List Token :=
  derivation.clauses.flatMap Clause.tokens

end Reckon
