import Reckon.Token.Kind

/-!
# Reckon — the grammar's tables

Which tokens are binary operators and how tightly they bind, and which tokens begin a statement or
a primary expression. The order of each table is the order in which its entries are listed in a
report.

```
Program   = Statement+
Statement = let id = Exp | id = Exp | print Exp
Exp       = Exp == Sum | Sum
Sum       = Sum (+ | -) Term | Term
Term      = Term (* | / | %) Factor | Factor
Factor    = Primary ** Factor | Primary
Primary   = id | num | ( Exp ) | (- | abs | sqrt) Factor
```
-/

namespace Reckon

/-- How tightly a binary operator binds, loosest first. -/
inductive Level
  | relational
  | additive
  | multiplicative
  | exponent
deriving DecidableEq, Repr

namespace Level

/-- All levels, loosest first. -/
def all : List Level := [relational, additive, multiplicative, exponent]

/-- The level's name. -/
def name : Level → String
  | relational => "Relational"
  | additive => "Additive"
  | multiplicative => "Multiplicative"
  | exponent => "Exponent"

/-- The level's place among all levels, the loosest at zero. -/
def tightness : Level → Nat
  | relational => 0
  | additive => 1
  | multiplicative => 2
  | exponent => 3

instance : Ord Level := ⟨fun a b => compare a.tightness b.tightness⟩

/-- The binary operators of the level. -/
def operators : Level → List Kind
  | relational => [.equals]
  | additive => [.plus, .dash]
  | multiplicative => [.star, .slash, .percent]
  | exponent => [.starStar]

/-- The level of the given name. -/
def ofName? (text : String) : Option Level := all.find? fun level => level.name == text

end Level

namespace Kind

/-- The level at which the kind binds as a binary operator, if it is one. -/
def level? : Kind → Option Level
  | .equals => some .relational
  | .plus | .dash => some .additive
  | .star | .slash | .percent => some .multiplicative
  | .starStar => some .exponent
  | _ => none

/-- The kinds that begin a statement. -/
def statementStarts : List Kind := [.letWord, .printWord, .identifier]

/-- The kinds that begin a primary expression. -/
def primaryStarts : List Kind := [.identifier, .number, .openParen, .dash, .absWord, .sqrtWord]

/-- The unary operators. -/
def unaryOperators : List Kind := [.dash, .absWord, .sqrtWord]

/-- The operators of a level are the kinds that bind at it. -/
theorem mem_operators_iff {kind : Kind} {level : Level} :
    kind ∈ level.operators ↔ kind.level? = some level := by
  cases kind <;> cases level <;> decide

end Kind

end Reckon
