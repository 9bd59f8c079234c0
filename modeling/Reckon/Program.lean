import Reckon.Number.Double

/-!
# Reckon — programs

What a source means, without the layers, parentheses and keywords it was written with: a list of
statements over expression trees. Grouping is told by the shape of the tree alone.

Programs are compared in two ways. `=` is identity, bit for bit; `same` compares numbers as
numbers, so a tree that holds a NaN is not even the same as itself.
-/

namespace Reckon

/-- The binary operators. -/
inductive BinaryOp
  | equals
  | plus
  | minus
  | times
  | divide
  | modulo
  | power
deriving DecidableEq, Repr

namespace BinaryOp

/-- All binary operators, loosest first. -/
def all : List BinaryOp := [equals, plus, minus, times, divide, modulo, power]

/-- How the operator is written in a source. -/
def symbol : BinaryOp → String
  | equals => "=="
  | plus => "+"
  | minus => "-"
  | times => "*"
  | divide => "/"
  | modulo => "%"
  | power => "**"

/-- The operator's name in structured text. -/
def name : BinaryOp → String
  | equals => "Equals"
  | plus => "Plus"
  | minus => "Minus"
  | times => "Times"
  | divide => "Divide"
  | modulo => "Modulo"
  | power => "Power"

/-- The operator that is written so. -/
def ofSymbol? (text : String) : Option BinaryOp := all.find? fun op => op.symbol == text

/-- An operator is found by its symbol. -/
theorem ofSymbol?_symbol (op : BinaryOp) : ofSymbol? op.symbol = some op := by
  cases op <;> decide

/-- And by nothing else. -/
theorem symbol_of_ofSymbol? {text : String} {op : BinaryOp} (h : ofSymbol? text = some op) :
    op.symbol = text := by
  have := List.find?_some h
  simpa using this

end BinaryOp

/-- The unary operators. -/
inductive UnaryOp
  | negate
  | abs
  | sqrt
deriving DecidableEq, Repr

namespace UnaryOp

/-- All unary operators. -/
def all : List UnaryOp := [negate, abs, sqrt]

/-- How the operator is written in a source. -/
def symbol : UnaryOp → String
  | negate => "-"
  | abs => "abs"
  | sqrt => "sqrt"

/-- The operator's name in structured text. -/
def name : UnaryOp → String
  | negate => "Negate"
  | abs => "Abs"
  | sqrt => "Sqrt"

/-- The operator that is written so. -/
def ofSymbol? (text : String) : Option UnaryOp := all.find? fun op => op.symbol == text

theorem ofSymbol?_symbol (op : UnaryOp) : ofSymbol? op.symbol = some op := by
  cases op <;> decide

theorem symbol_of_ofSymbol? {text : String} {op : UnaryOp} (h : ofSymbol? text = some op) :
    op.symbol = text := by
  have := List.find?_some h
  simpa using this

end UnaryOp

/-- An expression. -/
inductive Expr
  | binary (op : BinaryOp) (left right : Expr)
  | unary (op : UnaryOp) (operand : Expr)
  | identifier (name : String)
  | number (value : Double)
deriving DecidableEq, Repr

/-- Whether two expressions have the same shape, operators and names, and the same numbers. -/
def Expr.same : Expr → Expr → Bool
  | .binary op left right, .binary op' left' right' =>
    op == op' && left.same left' && right.same right'
  | .unary op operand, .unary op' operand' => op == op' && operand.same operand'
  | .identifier name, .identifier name' => name == name'
  | .number value, .number value' => value.same value'
  | _, _ => false

/-- A statement. Whether the target of an assignment was declared is not its business. -/
inductive Statement
  | declare (name : String) (value : Expr)
  | assign (name : String) (value : Expr)
  | print (value : Expr)
deriving DecidableEq, Repr

/-- Whether two statements are of the same form, with the same names and expressions. -/
def Statement.same : Statement → Statement → Bool
  | .declare name value, .declare name' value' => name == name' && value.same value'
  | .assign name value, .assign name' value' => name == name' && value.same value'
  | .print value, .print value' => value.same value'
  | _, _ => false

/-- A program: its statements in the order of the source. -/
structure Program where
  statements : List Statement
deriving DecidableEq, Repr

namespace Program

/-- The number of statements. -/
def length (program : Program) : Nat := program.statements.length

/-- Whether there is no statement. -/
def isEmpty (program : Program) : Bool := program.statements.isEmpty

/-- Whether two programs have the same statements. -/
def same (a b : Program) : Bool :=
  a.length == b.length && (a.statements.zip b.statements).all fun (s, t) => s.same t

end Program

end Reckon
