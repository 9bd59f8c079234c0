import Reckon.Derivation
import Reckon.Fault
import Reckon.Number.Numeral
import Reckon.Program

/-!
# Reckon — the program of a derivation

Layers and parentheses fall away, chains fold to the left, exponents stay nested to the right.
Operators and numbers are read from the text of their tokens, whatever kind these have: a
derivation that was matched from a source can always be read, one that was put together by hand
may hold a text that is none.

Of several such texts the fault names the first one met, when operands are read from left to right
before the operator between them, and a unary operator is read before its operand.
-/

namespace Reckon

/-- The fault of an operator token whose text is none of the given symbols. -/
def notAnOperator (token : Token) (symbols : List String) : Fault :=
  ⟨.unexpected (symbols.map fun symbol => "\"" ++ symbol ++ "\"") token.describe, token.span.start⟩

/-- The binary operator that a token is read as. -/
def Token.binaryOp (token : Token) : Except Fault BinaryOp :=
  match BinaryOp.ofSymbol? token.text with
  | some op => .ok op
  | none => .error (notAnOperator token (BinaryOp.all.map BinaryOp.symbol))

/-- The unary operator that a token is read as. -/
def Token.unaryOp (token : Token) : Except Fault UnaryOp :=
  match UnaryOp.ofSymbol? token.text with
  | some op => .ok op
  | none => .error (notAnOperator token (UnaryOp.all.map UnaryOp.symbol))

/-- The number that a token is read as. -/
def Token.number (token : Token) : Except Fault Double :=
  match Numeral.read? token.text with
  | some value => .ok value
  | none => .error ⟨.badNumber token.text, token.span.start⟩

/-- The expression that a phrase stands for. -/
def Phrase.expr {l : Nat} : Phrase l → Except Fault Expr
  | .identifier id => .ok (.identifier id.text)
  | .numeral token => do return .number (← token.number)
  | .parens _ body _ => body.expr
  | .unary op operand => do return .unary (← op.unaryOp) (← operand.expr)
  | .primary inner => inner.expr
  | .power base op exponent => do
    let left ← base.expr
    let right ← exponent.expr
    return .binary (← op.binaryOp) left right
  | .single operand => operand.expr
  | .chain left op right => do
    let left ← left.expr
    let right ← right.expr
    return .binary (← op.binaryOp) left right

/-- The statement that a clause stands for. -/
def Clause.statement : Clause → Except Fault Statement
  | .declare _ id _ exp => do return .declare id.text (← exp.expr)
  | .assign id _ exp => do return .assign id.text (← exp.expr)
  | .print _ exp => do return .print (← exp.expr)

/-- The program that a derivation stands for. -/
def Derivation.program (derivation : Derivation) : Except Fault Program := do
  return ⟨← derivation.clauses.mapM Clause.statement⟩

end Reckon
