import Reckon.Derivation
import Reckon.Fault
import Reckon.Number.Written
import Reckon.Outline
import Reckon.Program

/-!
# Reckon — the outlines of values

How tokens, derivations, programs and faults are written as structured text: the names of their
parts, and the order of these.
-/

namespace Reckon

namespace Outline

/-- A text in quotes. -/
def text (content : String) : Outline := .leaf (Text.quoted content)

/-- A count. -/
def count (n : Nat) : Outline := .leaf (toString n)

end Outline

-- ---------------------------------------------------------------------------
-- Tokens
-- ---------------------------------------------------------------------------

def Position.outline (position : Position) : Outline :=
  .tuple "Position" [.count position.offset, .text position.file]

def Span.outline (span : Span) : Outline :=
  .record "Span" [("start", span.start.outline), ("end", span.stop.outline)]

def Token.outline (token : Token) : Outline :=
  .record "Token" [("kind", .leaf token.kind.name), ("value", .text token.text),
    ("span", token.span.outline)]

-- ---------------------------------------------------------------------------
-- Derivations
-- ---------------------------------------------------------------------------

/-- The name of the chains of layer `n + 2`. -/
def Phrase.chainName : Nat → String
  | 0 => "TermNode"
  | 1 => "Exp1Node"
  | _ => "ExpNode"

/-- The outline of a name that stands for a variable. -/
def Token.variableOutline (id : Token) : Outline := .record "VarNode" [("id", id.outline)]

/-- The outline of a phrase. A chain is shown flat: its first operand, and the list of the
operators with the operands after them; `later` is the part of this list that is already there. -/
def Phrase.outlineBefore {l : Nat} (later : List Outline) : Phrase l → Outline
  | .identifier id => .tuple "Var" [id.variableOutline]
  | .numeral token => .tuple "Num" [token.outline]
  | .parens opening body closing =>
    .record "Parens" [("open", opening.outline), ("exp", body.outlineBefore []),
      ("close", closing.outline)]
  | .unary op operand =>
    .record "Unary" [("op", op.outline), ("operand", operand.outlineBefore [])]
  | .primary inner => .tuple "Primary" [inner.outlineBefore []]
  | .power base op exponent =>
    .record "Exponentiation" [("base", base.outlineBefore []), ("op", op.outline),
      ("exponent", exponent.outlineBefore [])]
  | @Phrase.single n operand =>
    .record (chainName n) [("first", operand.outlineBefore []), ("rest", .list later)]
  | .chain left op right =>
    left.outlineBefore (.tuple "" [op.outline, right.outlineBefore []] :: later)

/-- The outline of a phrase. -/
def Phrase.outline {l : Nat} (phrase : Phrase l) : Outline := phrase.outlineBefore []

def Clause.outline : Clause → Outline
  | .declare keyword id eq exp =>
    .record "VarDecl" [("let_token", keyword.outline), ("id", id.outline), ("eq", eq.outline),
      ("exp", exp.outline)]
  | .assign id eq exp =>
    .record "Assign" [("var", id.variableOutline), ("eq", eq.outline), ("exp", exp.outline)]
  | .print keyword exp =>
    .record "Print" [("print_token", keyword.outline), ("exp", exp.outline)]

def Derivation.outline (derivation : Derivation) : Outline :=
  .record "ProgramNode" [("statements", .list (derivation.clauses.map Clause.outline))]

-- ---------------------------------------------------------------------------
-- Programs
-- ---------------------------------------------------------------------------

/-- The outline of a name in an expression. -/
def Outline.identifier (name : String) : Outline :=
  .record "IdentifierExpr" [("name", .text name)]

def Expr.outline : Expr → Outline
  | .binary op left right =>
    .tuple "Binary" [.record "BinaryExpr"
      [("operator", .leaf op.name), ("left", left.outline), ("right", right.outline)]]
  | .unary op operand =>
    .tuple "Unary" [.record "UnaryExpr"
      [("operator", .leaf op.name), ("operand", operand.outline)]]
  | .identifier name => .tuple "Identifier" [.identifier name]
  | .number value => .tuple "Number" [.record "NumberExpr" [("value", .leaf value.written)]]

def Statement.outline : Statement → Outline
  | .declare name value =>
    .tuple "VarDecl" [.record "VarDeclStmt"
      [("name", .text name), ("initializer", value.outline)]]
  | .assign name value =>
    .tuple "Assignment" [.record "AssignmentStmt"
      [("target", .identifier name), ("value", value.outline)]]
  | .print value =>
    .tuple "Print" [.record "PrintStmt" [("expression", value.outline)]]

def Program.outline (program : Program) : Outline :=
  .record "Program" [("statements", .list (program.statements.map Statement.outline))]

-- ---------------------------------------------------------------------------
-- Faults
-- ---------------------------------------------------------------------------

def Cause.outline : Cause → Outline
  | .unexpected expected found =>
    .record "SyntaxError" [("expected", .list (expected.map .text)), ("found", .text found)]
  | .badNumber text => .record "NumberParseError" [("token", .text text)]

def Fault.outline (fault : Fault) : Outline :=
  .record "Error" [("internal_error", fault.cause.outline),
    ("position", fault.position.outline)]

/-- The outline of what a source came out as. -/
def Outline.ofResult : Except Fault Program → Outline
  | .ok program => .tuple "Ok" [program.outline]
  | .error fault => .tuple "Err" [fault.outline]

end Reckon
