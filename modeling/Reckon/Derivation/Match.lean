import Reckon.Derivation
import Reckon.Derivation.Rule

/-!
# Reckon — matching tokens against the grammar

One rule for each layer of the grammar. The rules look at one token and never go back: which
alternative is meant is always told by the token it begins with. Chains are matched in a loop,
exponents and unary operators by going one factor deeper; a unary operator takes a whole factor,
exponents included.

How deep the rules may go and how often they may loop is bounded by `reach`, the number of tokens
that are left and one more. On a list that ends in an end token that is always enough, since every
round takes a token; on a list without one, a last token that opens an operand is taken again and
again, and the rule stops as `unending`.
-/

namespace Reckon

namespace Rule

-- ---------------------------------------------------------------------------
-- Primaries
-- ---------------------------------------------------------------------------

/-- A variable. -/
def identifier : Rule Primary := do
  return .identifier (← expect .identifier)

/-- A number. -/
def numeral : Rule Primary := do
  return .numeral (← expect .number)

/-- An expression in parentheses. -/
def parens (exp : Rule Exp) : Rule Primary := do
  let opening ← expect .openParen
  let body ← exp
  let closing ← expect .closeParen
  return .parens opening body closing

/-- A unary operator and the factor after it. -/
def unary (factor : Rule Factor) : Rule Primary := do
  let op ← expectAny Kind.unaryOperators
  let operand ← factor
  return .unary op operand

/-- The primary that the next token begins. -/
def primary (exp : Rule Exp) (factor : Rule Factor) : Rule Primary := do
  let token ← current
  match token.kind with
  | .identifier => identifier
  | .number => numeral
  | .openParen => parens exp
  | .dash | .absWord | .sqrtWord => unary factor
  | _ => reject Kind.primaryStarts

-- ---------------------------------------------------------------------------
-- Factors and chains
-- ---------------------------------------------------------------------------

/-- A primary, and an exponent if one follows. -/
def power (primary : Rule Primary) (factor : Rule Factor) : Rule Factor := do
  let base ← primary
  match ← accept Level.exponent.operators with
  | some op => return .power base op (← factor)
  | none => return .primary base

/-- Lets a chain grow to the right, at most `limit` times. -/
def extend {n : Nat} (operand : Rule (Phrase (n + 1))) (limit : Nat) (left : Phrase (n + 2)) :
    Rule (Phrase (n + 2)) :=
  match limit with
  | 0 => stop .unending
  | limit + 1 => do
    match ← accept (Phrase.chainLevel n).operators with
    | some op => extend operand limit (.chain left op (← operand))
    | none => return left

/-- A chain of operands. -/
def chain {n : Nat} (operand : Rule (Phrase (n + 1))) (limit : Nat) : Rule (Phrase (n + 2)) := do
  extend operand limit (.single (← operand))

/-- The phrases of layer `n + 1`, made from factors. -/
def layer (factor : Rule Factor) (limit : Nat) : (n : Nat) → Rule (Phrase (n + 1))
  | 0 => factor
  | n + 1 => chain (layer factor limit n) limit

/-- A factor, at most `limit` factors deep. -/
def factorWithin : Nat → Rule Factor
  | 0 => stop .unending
  | limit + 1 =>
    let deeper := factorWithin limit
    power (primary (layer deeper limit 3) deeper) deeper

/-- The phrases of layer `n + 1`. -/
def phrase (n : Nat) : Rule (Phrase (n + 1)) := do
  let limit ← reach
  layer (factorWithin limit) limit n

/-- An expression. -/
def exp : Rule Exp := phrase 3

/-- A sum. -/
def sum : Rule Sum := phrase 2

/-- A term. -/
def term : Rule Term := phrase 1

/-- A factor. -/
def factor : Rule Factor := phrase 0

/-- A primary. -/
def anyPrimary : Rule Primary := primary exp factor

-- ---------------------------------------------------------------------------
-- Statements
-- ---------------------------------------------------------------------------

/-- The declaration of a variable. -/
def declare : Rule Clause := do
  let keyword ← expect .letWord
  let id ← expect .identifier
  let eq ← expect .assignment
  return .declare keyword id eq (← exp)

/-- An assignment to a variable. -/
def assign : Rule Clause := do
  let id ← expect .identifier
  let eq ← expect .assignment
  return .assign id eq (← exp)

/-- A print statement. -/
def print : Rule Clause := do
  let keyword ← expect .printWord
  return .print keyword (← exp)

/-- The statement that the next token begins. -/
def clause : Rule Clause := do
  let token ← current
  match token.kind with
  | .letWord => declare
  | .printWord => print
  | .identifier => assign
  | _ => reject Kind.statementStarts

/-- Statements as long as the next token begins one, at most `limit` of them. -/
def clauses (limit : Nat) : Rule (List Clause) :=
  match limit with
  | 0 => stop .unending
  | limit + 1 => do
    let token ← current
    if token.kind ∈ Kind.statementStarts then
      let first ← clause
      return first :: (← clauses limit)
    return []

/-- One statement or more, and the end of the input. -/
def program : Rule Derivation := do
  let first ← clause
  let later ← clauses (← reach)
  miss Kind.statementStarts
  let _ ← expect .endOfInput
  return ⟨first :: later⟩

end Rule

/-- The token list with an end token: its own, or one where its last token ends, or at the start
of the file if it has no token. -/
def completed (tokens : List Token) (file : String) : List Token :=
  match tokens.getLast? with
  | none => [.endOfInput ⟨0, file⟩]
  | some last =>
    if last.kind = .endOfInput then tokens else tokens ++ [.endOfInput last.span.stop]

/-- Matches a whole token list, and says how far the match came. -/
def Derivation.ofTokens (tokens : List Token) (file : String) :
    Except Stop Derivation × Progress :=
  Rule.program (completed tokens file).toArray .start

end Reckon
