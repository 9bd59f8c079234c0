import Mathlib.Data.List.Forall2
import Reckon.Grammar
import Reckon.Number.Numeral
import Reckon.Program
import Reckon.Proofs.Spelling

/-!
# Reckon — printings of a program

In which words a program may be written, told by its trees alone and without the layers of the
grammar. An expression is written in order, any part of it in as many pairs of parentheses as one
likes, and some parts in one pair at least: those that an operator next to them would otherwise
take apart (`Place.encloses`).

* `Expr.Printing`, `Statement.Printing`, `Program.Printing` — the printings.
* `Place.encloses_iff` — where parentheses are needed, as the comparison of one number, the rank of
  an expression, with a bound that goes with its place.
-/

namespace Reckon

/-- A token without its place. -/
structure Word where
  kind : Kind
  text : String
deriving DecidableEq, Repr

/-- The token without its place. -/
def Token.word (token : Token) : Word := ⟨token.kind, token.text⟩

namespace BinaryOp

/-- The kind of the operator's token. -/
def kind : BinaryOp → Kind
  | equals => .equals
  | plus => .plus
  | minus => .dash
  | times => .star
  | divide => .slash
  | modulo => .percent
  | power => .starStar

/-- How tightly the operator binds. -/
def level : BinaryOp → Level
  | equals => .relational
  | plus | minus => .additive
  | times | divide | modulo => .multiplicative
  | power => .exponent

/-- The operator as it is written. -/
def word (op : BinaryOp) : Word := ⟨op.kind, op.symbol⟩

end BinaryOp

namespace UnaryOp

/-- The kind of the operator's token. -/
def kind : UnaryOp → Kind
  | negate => .dash
  | abs => .absWord
  | sqrt => .sqrtWord

/-- The operator as it is written. -/
def word (op : UnaryOp) : Word := ⟨op.kind, op.symbol⟩

end UnaryOp

-- ---------------------------------------------------------------------------
-- Where parentheses are needed
-- ---------------------------------------------------------------------------

/-- The places for an expression inside another one: the operand of a unary operator, and the two
operands of a binary one. -/
inductive Place
  | operand
  | left (op : BinaryOp)
  | right (op : BinaryOp)
deriving DecidableEq, Repr

/-- Whether an expression must be written in parentheses to stand at the place. -/
def Place.encloses : Place → Expr → Bool
  | .operand, .binary inner _ _ => inner ≠ .power
  | .left op, .binary inner _ _ => op = .power ∨ inner.level.tightness < op.level.tightness
  | .left op, .unary _ _ => op = .power
  | .right op, .binary inner _ _ =>
    if op = .power then inner ≠ .power else inner.level.tightness ≤ op.level.tightness
  | _, _ => false

-- ---------------------------------------------------------------------------
-- Printings
-- ---------------------------------------------------------------------------

/-- The words are a printing of the expression, the whole of it in parentheses or not. -/
inductive Expr.Printing : Expr → Bool → List Word → Prop
  | identifier (name : String) : Printing (.identifier name) false [⟨.identifier, name⟩]
  | number {text : String} {value : Double} (hread : Numeral.read? text = some value) :
      Printing (.number value) false [⟨.number, text⟩]
  | unary {op : UnaryOp} {operand : Expr} {enclosed : Bool} {words : List Word}
      (hoperand : Printing operand enclosed words)
      (hplace : Place.operand.encloses operand = true → enclosed = true) :
      Printing (.unary op operand) false (op.word :: words)
  | binary {op : BinaryOp} {left right : Expr} {leftEnclosed rightEnclosed : Bool}
      {leftWords rightWords : List Word}
      (hleft : Printing left leftEnclosed leftWords)
      (hleftPlace : (Place.left op).encloses left = true → leftEnclosed = true)
      (hright : Printing right rightEnclosed rightWords)
      (hrightPlace : (Place.right op).encloses right = true → rightEnclosed = true) :
      Printing (.binary op left right) false (leftWords ++ op.word :: rightWords)
  | enclose {e : Expr} {enclosed : Bool} {words : List Word} (h : Printing e enclosed words) :
      Printing e true (⟨.openParen, "("⟩ :: words ++ [⟨.closeParen, ")"⟩])

/-- The words are a printing of the statement. -/
inductive Statement.Printing : Statement → List Word → Prop
  | declare {name : String} {value : Expr} {enclosed : Bool} {words : List Word}
      (hvalue : value.Printing enclosed words) :
      Printing (.declare name value)
        (⟨.letWord, "let"⟩ :: ⟨.identifier, name⟩ :: ⟨.assignment, "="⟩ :: words)
  | assign {name : String} {value : Expr} {enclosed : Bool} {words : List Word}
      (hvalue : value.Printing enclosed words) :
      Printing (.assign name value) (⟨.identifier, name⟩ :: ⟨.assignment, "="⟩ :: words)
  | print {value : Expr} {enclosed : Bool} {words : List Word}
      (hvalue : value.Printing enclosed words) :
      Printing (.print value) (⟨.printWord, "print"⟩ :: words)

/-- The words are a printing of the program: of its statements, one after the other. A program
without statements has none, because a source has one statement or more. -/
structure Program.Printing (program : Program) (words : List Word) : Prop where
  nonempty   : program.statements ≠ []
  statements : ∃ parts, List.Forall₂ Statement.Printing program.statements parts ∧
                 words = parts.flatten

-- ---------------------------------------------------------------------------
-- Ranks
-- ---------------------------------------------------------------------------

namespace BinaryOp

/-- An operator stands on the level that the grammar gives to its kind. -/
theorem level?_kind (op : BinaryOp) : op.kind.level? = some op.level := by
  cases op <;> rfl

/-- Its token has its symbol for a text. -/
theorem spelling?_kind (op : BinaryOp) : op.kind.spelling? = some op.symbol := by
  cases op <;> rfl

/-- No two operators are written alike. -/
theorem symbol_injective {a b : BinaryOp} (h : a.symbol = b.symbol) : a = b := by
  have hsome := ofSymbol?_symbol a
  rw [h, ofSymbol?_symbol] at hsome
  exact (Option.some.inj hsome).symm

/-- The tightest level has one operator. -/
theorem eq_power_of_level {op : BinaryOp} (h : op.level = .exponent) : op = power := by
  cases op with
  | power => rfl
  | _ => exact absurd h (by decide)

/-- And every kind with a level is that of an operator. -/
theorem exists_of_level? {kind : Kind} {level : Level} (h : kind.level? = some level) :
    ∃ op : BinaryOp, op.kind = kind ∧ op.level = level := by
  have hop : ∃ op : BinaryOp, op.kind = kind := by
    cases kind with
    | equals => exact ⟨equals, rfl⟩
    | plus => exact ⟨plus, rfl⟩
    | dash => exact ⟨minus, rfl⟩
    | star => exact ⟨times, rfl⟩
    | slash => exact ⟨divide, rfl⟩
    | percent => exact ⟨modulo, rfl⟩
    | starStar => exact ⟨power, rfl⟩
    | _ => exact absurd h (by simp [Kind.level?])
  obtain ⟨op, rfl⟩ := hop
  rw [level?_kind] at h
  exact ⟨op, rfl, Option.some.inj h⟩

/-- How loosely an operation with the operator holds together. -/
def rank (op : BinaryOp) : Nat := 5 - op.level.tightness

/-- Operators rank above the primaries, the unary ones among these. -/
theorem rank_bounds (op : BinaryOp) : 2 ≤ op.rank ∧ op.rank ≤ 5 := by
  cases op <;> decide

/-- The power ranks lowest of all, since it binds most. -/
theorem rank_eq_two_iff {op : BinaryOp} : op.rank = 2 ↔ op = power := by
  cases op <;> decide

/-- Of two operators the looser one has the higher rank. -/
theorem tightness_add_rank (op : BinaryOp) : op.level.tightness + op.rank = 5 := by
  cases op <;> rfl

end BinaryOp

namespace UnaryOp

/-- The kinds of the unary operators are those that the grammar knows. -/
theorem kind_mem (op : UnaryOp) : op.kind ∈ Kind.unaryOperators := by
  cases op <;> decide

theorem spelling?_kind (op : UnaryOp) : op.kind.spelling? = some op.symbol := by
  cases op <;> rfl

theorem symbol_injective {a b : UnaryOp} (h : a.symbol = b.symbol) : a = b := by
  have hsome := ofSymbol?_symbol a
  rw [h, ofSymbol?_symbol] at hsome
  exact (Option.some.inj hsome).symm

/-- And it knows no other. -/
theorem exists_of_mem {kind : Kind} (h : kind ∈ Kind.unaryOperators) :
    ∃ op : UnaryOp, op.kind = kind := by
  have hcases : kind = .dash ∨ kind = .absWord ∨ kind = .sqrtWord := by
    simpa [Kind.unaryOperators] using h
  rcases hcases with rfl | rfl | rfl
  · exact ⟨negate, rfl⟩
  · exact ⟨abs, rfl⟩
  · exact ⟨sqrt, rfl⟩

end UnaryOp

/-- How loosely an expression holds together when there are no parentheses around it. -/
def Expr.rank : Expr → Nat
  | .identifier _ => 0
  | .number _ => 0
  | .unary _ _ => 1
  | .binary op _ _ => op.rank

/-- The highest rank that an expression without parentheses may have at the place. -/
def Place.bound : Place → Nat
  | .operand => 2
  | .left op => if op = .power then 0 else op.rank
  | .right op => if op = .power then 2 else op.rank - 1

/-- On the left the operator itself may stand once more. -/
theorem Place.bound_left {op : BinaryOp} (h : op ≠ .power) : (Place.left op).bound = op.rank :=
  if_neg h

/-- On the right only what binds more may stand. -/
theorem Place.bound_right {op : BinaryOp} (h : op ≠ .power) :
    (Place.right op).bound = op.rank - 1 :=
  if_neg h

/-- No expression ranks above a chain of the loosest operators. -/
theorem Expr.rank_le (e : Expr) : e.rank ≤ 5 := by
  cases e with
  | identifier name => exact Nat.zero_le 5
  | number value => exact Nat.zero_le 5
  | unary op operand => exact Nat.le_add_left 1 4
  | binary op left right => exact op.rank_bounds.2

/-- Parentheses are needed where the rank exceeds the bound. -/
theorem Place.encloses_iff {place : Place} {e : Expr} :
    place.encloses e = true ↔ place.bound < e.rank := by
  -- only operators are ever enclosed, so their ranks are compared with those of the place
  cases e with
  | identifier name => cases place <;> simp [encloses, Expr.rank]
  | number value => cases place <;> simp [encloses, Expr.rank]
  | unary inner operand =>
    cases place with
    | operand => simp [encloses, bound, Expr.rank]
    | left op =>
      have hop := op.rank_bounds
      by_cases hpower : op = .power
      · simp [encloses, bound, Expr.rank, hpower]
      · simp only [encloses, bound, Expr.rank, hpower, if_false, decide_eq_true_eq, false_iff]
        omega
    | right op =>
      have hop := op.rank_bounds
      have htwo := op.rank_eq_two_iff
      by_cases hpower : op = .power
      · simp [encloses, bound, Expr.rank, hpower]
      · simp only [encloses, bound, Expr.rank, hpower, if_false, Bool.false_eq_true, false_iff]
        omega
  | binary inner left right =>
    have hinner := inner.rank_bounds
    have hinnerTwo := inner.rank_eq_two_iff
    have hinnerSum := inner.tightness_add_rank
    cases place with
    | operand =>
      simp only [encloses, bound, Expr.rank, decide_eq_true_eq, ne_eq, ← hinnerTwo]
      omega
    | left op =>
      have hsum := op.tightness_add_rank
      by_cases hpower : op = .power
      · simp only [encloses, bound, Expr.rank, hpower, true_or, decide_true, if_true, true_iff]
        omega
      · simp only [encloses, bound, Expr.rank, hpower, false_or, decide_eq_true_eq, if_false]
        omega
    | right op =>
      have hop := op.rank_bounds
      have hsum := op.tightness_add_rank
      by_cases hpower : op = .power
      · simp only [encloses, bound, Expr.rank, hpower, if_true, decide_eq_true_eq, ne_eq,
          ← hinnerTwo]
        omega
      · simp only [encloses, bound, Expr.rank, hpower, if_false, decide_eq_true_eq]
        omega

/-- That an expression is in parentheses where it needs them, in terms of ranks. -/
theorem Place.fits_iff {place : Place} {e : Expr} {enclosed : Bool} :
    (place.encloses e = true → enclosed = true) ↔ (enclosed = false → e.rank ≤ place.bound) := by
  rw [encloses_iff]
  cases enclosed with
  | false => simp
  | true => simp

end Reckon
