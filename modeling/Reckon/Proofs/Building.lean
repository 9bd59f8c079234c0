import Mathlib.Data.List.Forall2
import Reckon.Program.Build

/-!
# Reckon — when a derivation can be read

Reading a derivation fails at a number or an operator whose text is none, and nowhere else. So what
a phrase is read as depends on what its parts are read as, and on the texts of its operators. There
is one statement of this for every way to make a phrase or a clause.

What a derivation stands for can also be told without reading it: which expression belongs to a
phrase, which statement to a clause and which program to a derivation is a relation, with one rule
for each form. Reading is right if it finds what stands in this relation, and fails only if nothing
does.

* `Phrase.expr_power_eq_ok_iff` and its siblings — phrases.
* `Clause.statement_print_eq_ok_iff` and its siblings — clauses.
* `Derivation.program_eq_ok_iff` — whole derivations.
* `Phrase.Means`, `Clause.Means`, `Derivation.Means` — what they stand for.
* `Phrase.expr_eq_ok_iff`, `Clause.statement_eq_ok_iff`, `Derivation.program_eq_ok_iff_means` — and
  reading finds it.
-/

namespace Reckon

/-- Two steps succeed if both of them do. -/
theorem bind_eq_ok_iff {ε α β : Type} {x : Except ε α} {f : α → Except ε β} {b : β} :
    x >>= f = .ok b ↔ ∃ a, x = .ok a ∧ f a = .ok b := by
  constructor
  · intro h
    cases x with
    | error reason => exact absurd h (by simp [bind, Except.bind])
    | ok a => exact ⟨a, rfl, h⟩
  · intro hparts
    obtain ⟨a, rfl, h⟩ := hparts
    exact h

theorem pure_eq_ok_iff {ε α : Type} {a b : α} : (pure a : Except ε α) = .ok b ↔ b = a := by
  constructor
  · intro h
    exact (Except.ok.inj h).symm
  · rintro rfl
    rfl

/-- Of a list all is read, or nothing. -/
theorem mapM_eq_ok_iff {ε α β : Type} {f : α → Except ε β} {xs : List α} {ys : List β} :
    xs.mapM f = .ok ys ↔ List.Forall₂ (fun x y => f x = .ok y) xs ys := by
  induction xs generalizing ys with
  | nil =>
    rw [List.mapM_nil, List.forall₂_nil_left_iff]
    exact pure_eq_ok_iff
  | cons x xs ih =>
    rw [List.mapM_cons, List.forall₂_cons_left_iff]
    -- both sides say the same of the first and of the rest, in another order
    simp only [bind_eq_ok_iff, pure_eq_ok_iff, ih]
    constructor
    · intro hparts
      obtain ⟨y, hy, rest, hrest, heq⟩ := hparts
      exact ⟨y, rest, hy, hrest, heq⟩
    · intro hparts
      obtain ⟨y, rest, hy, hrest, heq⟩ := hparts
      exact ⟨y, hy, rest, hrest, heq⟩

-- ---------------------------------------------------------------------------
-- Tokens
-- ---------------------------------------------------------------------------

namespace Token

variable {token : Token}

/-- An operator is known by its text, whatever kind its token is said to be of. -/
theorem binaryOp_eq_ok_iff {op : BinaryOp} : token.binaryOp = .ok op ↔ token.text = op.symbol := by
  unfold binaryOp
  constructor
  · intro h
    split at h
    · next found hfound =>
      obtain rfl := Except.ok.inj h
      exact (BinaryOp.symbol_of_ofSymbol? hfound).symm
    · exact absurd h (by simp)
  · intro h
    rw [h, BinaryOp.ofSymbol?_symbol]

theorem unaryOp_eq_ok_iff {op : UnaryOp} : token.unaryOp = .ok op ↔ token.text = op.symbol := by
  unfold unaryOp
  constructor
  · intro h
    split at h
    · next found hfound =>
      obtain rfl := Except.ok.inj h
      exact (UnaryOp.symbol_of_ofSymbol? hfound).symm
    · exact absurd h (by simp)
  · intro h
    rw [h, UnaryOp.ofSymbol?_symbol]

/-- A number is whatever is read from the text of its token. -/
theorem number_eq_ok_iff {value : Double} :
    token.number = .ok value ↔ Numeral.read? token.text = some value := by
  unfold number
  cases Numeral.read? token.text <;> simp

end Token

-- ---------------------------------------------------------------------------
-- Phrases
-- ---------------------------------------------------------------------------

namespace Phrase

variable {e : Expr}

/-- An identifier cannot fail to be one. -/
theorem expr_identifier_eq_ok_iff {id : Token} :
    (identifier id).expr = .ok e ↔ e = .identifier id.text :=
  pure_eq_ok_iff

theorem expr_numeral_eq_ok_iff {token : Token} :
    (numeral token).expr = .ok e ↔
      ∃ value, Numeral.read? token.text = some value ∧ e = .number value := by
  simp only [expr, bind_eq_ok_iff, pure_eq_ok_iff, Token.number_eq_ok_iff]

/-- A unary operator stands over the one expression of its operand. -/
theorem expr_unary_eq_ok_iff {token : Token} {operand : Factor} :
    (unary token operand).expr = .ok e ↔
      ∃ op, token.text = op.symbol ∧ ∃ inner, operand.expr = .ok inner ∧ e = .unary op inner := by
  simp only [expr, bind_eq_ok_iff, pure_eq_ok_iff, Token.unaryOp_eq_ok_iff]

/-- A power has its base on the left and its exponent on the right. -/
theorem expr_power_eq_ok_iff {base : Primary} {token : Token} {exponent : Factor} :
    (power base token exponent).expr = .ok e ↔
      ∃ left, base.expr = .ok left ∧ ∃ right, exponent.expr = .ok right ∧
        ∃ op, token.text = op.symbol ∧ e = .binary op left right := by
  simp only [expr, bind_eq_ok_iff, pure_eq_ok_iff, Token.binaryOp_eq_ok_iff]

/-- A chain has all that stands before its last operator on the left. -/
theorem expr_chain_eq_ok_iff {n : Nat} {first : Phrase (n + 2)} {token : Token}
    {last : Phrase (n + 1)} :
    (chain first token last).expr = .ok e ↔
      ∃ left, first.expr = .ok left ∧ ∃ right, last.expr = .ok right ∧
        ∃ op, token.text = op.symbol ∧ e = .binary op left right := by
  simp only [expr, bind_eq_ok_iff, pure_eq_ok_iff, Token.binaryOp_eq_ok_iff]

end Phrase

-- ---------------------------------------------------------------------------
-- Clauses and whole derivations
-- ---------------------------------------------------------------------------

namespace Clause

variable {statement : Statement}

/-- A declaration keeps the name and the value, not the tokens between them. -/
theorem statement_declare_eq_ok_iff {keyword id eq : Token} {exp : Exp} :
    (declare keyword id eq exp).statement = .ok statement ↔
      ∃ value, exp.expr = .ok value ∧ statement = .declare id.text value := by
  simp only [Clause.statement, bind_eq_ok_iff, pure_eq_ok_iff]

theorem statement_assign_eq_ok_iff {id eq : Token} {exp : Exp} :
    (assign id eq exp).statement = .ok statement ↔
      ∃ value, exp.expr = .ok value ∧ statement = .assign id.text value := by
  simp only [Clause.statement, bind_eq_ok_iff, pure_eq_ok_iff]

/-- A statement without a name keeps its value alone. -/
theorem statement_print_eq_ok_iff {keyword : Token} {exp : Exp} :
    (print keyword exp).statement = .ok statement ↔
      ∃ value, exp.expr = .ok value ∧ statement = .print value := by
  simp only [Clause.statement, bind_eq_ok_iff, pure_eq_ok_iff]

end Clause

/-- A derivation is read clause by clause. -/
theorem Derivation.program_eq_ok_iff {derivation : Derivation} {program : Program} :
    derivation.program = .ok program ↔
      List.Forall₂ (fun clause statement => clause.statement = .ok statement)
        derivation.clauses program.statements := by
  simp only [Derivation.program, bind_eq_ok_iff, pure_eq_ok_iff, mapM_eq_ok_iff]
  constructor
  · intro hparts
    obtain ⟨statements, hstatements, rfl⟩ := hparts
    exact hstatements
  · intro h
    exact ⟨program.statements, h, rfl⟩

-- ---------------------------------------------------------------------------
-- What a derivation stands for
-- ---------------------------------------------------------------------------

/-- How the binary operators are spelled. -/
inductive BinaryOp.Spelled : String → BinaryOp → Prop
  | equals : Spelled "==" .equals
  | plus   : Spelled "+" .plus
  | minus  : Spelled "-" .minus
  | times  : Spelled "*" .times
  | divide : Spelled "/" .divide
  | modulo : Spelled "%" .modulo
  | power  : Spelled "**" .power

/-- The spellings are the symbols of the operators. -/
theorem BinaryOp.spelled_iff {text : String} {op : BinaryOp} :
    Spelled text op ↔ text = op.symbol := by
  constructor
  · intro h
    cases h <;> rfl
  · rintro rfl
    cases op <;> constructor

/-- How the unary operators are spelled. -/
inductive UnaryOp.Spelled : String → UnaryOp → Prop
  | negate : Spelled "-" .negate
  | abs    : Spelled "abs" .abs
  | sqrt   : Spelled "sqrt" .sqrt

theorem UnaryOp.spelled_iff {text : String} {op : UnaryOp} :
    Spelled text op ↔ text = op.symbol := by
  constructor
  · intro h
    cases h <;> rfl
  · rintro rfl
    cases op <;> constructor

/-- The expression that a phrase stands for. Names, numbers and operators are told by the texts of
their tokens, whatever kind these are of; layers and parentheses stand for what is in them. -/
inductive Phrase.Means : {l : Nat} → Phrase l → Expr → Prop
  | identifier (id : Token) : Means (.identifier id) (.identifier id.text)
  | numeral {token : Token} {value : Double} (hvalue : Numeral.read? token.text = some value) :
      Means (.numeral token) (.number value)
  | parens {opening closing : Token} {body : Phrase 4} {e : Expr} (hbody : Means body e) :
      Means (.parens opening body closing) e
  | unary {token : Token} {operand : Phrase 1} {op : UnaryOp} {e : Expr}
      (hop : UnaryOp.Spelled token.text op) (hoperand : Means operand e) :
      Means (.unary token operand) (.unary op e)
  | primary {inner : Phrase 0} {e : Expr} (hinner : Means inner e) : Means (.primary inner) e
  | power {base : Phrase 0} {token : Token} {exponent : Phrase 1} {op : BinaryOp}
      {left right : Expr} (hbase : Means base left) (hexponent : Means exponent right)
      (hop : BinaryOp.Spelled token.text op) :
      Means (.power base token exponent) (.binary op left right)
  | single {n : Nat} {operand : Phrase (n + 1)} {e : Expr} (hoperand : Means operand e) :
      Means (.single operand) e
  | chain {n : Nat} {first : Phrase (n + 2)} {token : Token} {last : Phrase (n + 1)} {op : BinaryOp}
      {left right : Expr} (hfirst : Means first left) (hlast : Means last right)
      (hop : BinaryOp.Spelled token.text op) :
      Means (.chain first token last) (.binary op left right)

/-- The statement that a clause stands for. -/
inductive Clause.Means : Clause → Statement → Prop
  | declare {keyword id eq : Token} {exp : Exp} {e : Expr} (hexp : exp.Means e) :
      Means (.declare keyword id eq exp) (.declare id.text e)
  | assign {id eq : Token} {exp : Exp} {e : Expr} (hexp : exp.Means e) :
      Means (.assign id eq exp) (.assign id.text e)
  | print {keyword : Token} {exp : Exp} {e : Expr} (hexp : exp.Means e) :
      Means (.print keyword exp) (.print e)

/-- The program that a derivation stands for: one statement for each clause, in order. -/
def Derivation.Means (derivation : Derivation) (program : Program) : Prop :=
  List.Forall₂ Clause.Means derivation.clauses program.statements

/-- What is read of a phrase is what it stands for. -/
theorem Phrase.means_of_expr_eq_ok {l : Nat} {x : Phrase l} {e : Expr} (h : x.expr = .ok e) :
    x.Means e := by
  induction x generalizing e with
  | identifier id =>
    obtain rfl := expr_identifier_eq_ok_iff.mp h
    exact .identifier id
  | numeral token =>
    obtain ⟨value, hvalue, rfl⟩ := expr_numeral_eq_ok_iff.mp h
    exact .numeral hvalue
  | parens opening body closing ih => exact .parens (ih h)
  | unary token operand ih =>
    obtain ⟨op, hop, inner, hinner, rfl⟩ := expr_unary_eq_ok_iff.mp h
    exact .unary (UnaryOp.spelled_iff.mpr hop) (ih hinner)
  | primary inner ih => exact .primary (ih h)
  | power base token exponent ihbase ihexponent =>
    obtain ⟨left, hleft, right, hright, op, hop, rfl⟩ := expr_power_eq_ok_iff.mp h
    exact .power (ihbase hleft) (ihexponent hright) (BinaryOp.spelled_iff.mpr hop)
  | single operand ih => exact .single (ih h)
  | chain first token last ihfirst ihlast =>
    obtain ⟨left, hleft, right, hright, op, hop, rfl⟩ := expr_chain_eq_ok_iff.mp h
    exact .chain (ihfirst hleft) (ihlast hright) (BinaryOp.spelled_iff.mpr hop)

/-- Whatever a phrase stands for is read of it. -/
theorem Phrase.Means.expr_eq_ok {l : Nat} {x : Phrase l} {e : Expr} (h : x.Means e) :
    x.expr = .ok e := by
  induction h with
  | identifier id => rfl
  | numeral hvalue => exact expr_numeral_eq_ok_iff.mpr ⟨_, hvalue, rfl⟩
  | parens hbody ih => exact ih
  | unary hop hoperand ih =>
    exact expr_unary_eq_ok_iff.mpr ⟨_, UnaryOp.spelled_iff.mp hop, _, ih, rfl⟩
  | primary hinner ih => exact ih
  | power hbase hexponent hop ihbase ihexponent =>
    exact expr_power_eq_ok_iff.mpr
      ⟨_, ihbase, _, ihexponent, _, BinaryOp.spelled_iff.mp hop, rfl⟩
  | single hoperand ih => exact ih
  | chain hfirst hlast hop ihfirst ihlast =>
    exact expr_chain_eq_ok_iff.mpr ⟨_, ihfirst, _, ihlast, _, BinaryOp.spelled_iff.mp hop, rfl⟩

/-- A phrase is built to what it means, and to nothing else. -/
theorem Phrase.expr_eq_ok_iff {l : Nat} {x : Phrase l} {e : Expr} : x.expr = .ok e ↔ x.Means e :=
  ⟨means_of_expr_eq_ok, Means.expr_eq_ok⟩

/-- And so is a statement. -/
theorem Clause.statement_eq_ok_iff {clause : Clause} {statement : Statement} :
    clause.statement = .ok statement ↔ clause.Means statement := by
  constructor
  · intro h
    -- one reading lemma for each form of a clause
    cases clause with
    | declare keyword id eq exp =>
      obtain ⟨e, he, rfl⟩ := statement_declare_eq_ok_iff.mp h
      exact .declare (Phrase.expr_eq_ok_iff.mp he)
    | assign id eq exp =>
      obtain ⟨e, he, rfl⟩ := statement_assign_eq_ok_iff.mp h
      exact .assign (Phrase.expr_eq_ok_iff.mp he)
    | print keyword exp =>
      obtain ⟨e, he, rfl⟩ := statement_print_eq_ok_iff.mp h
      exact .print (Phrase.expr_eq_ok_iff.mp he)
  · intro h
    cases h with
    | declare hexp => exact statement_declare_eq_ok_iff.mpr ⟨_, hexp.expr_eq_ok, rfl⟩
    | assign hexp => exact statement_assign_eq_ok_iff.mpr ⟨_, hexp.expr_eq_ok, rfl⟩
    | print hexp => exact statement_print_eq_ok_iff.mpr ⟨_, hexp.expr_eq_ok, rfl⟩

/-- And so is a whole derivation: statement by statement, in their order. -/
theorem Derivation.program_eq_ok_iff_means {derivation : Derivation} {program : Program} :
    derivation.program = .ok program ↔ derivation.Means program := by
  rw [program_eq_ok_iff, Means]
  simp only [Clause.statement_eq_ok_iff]

end Reckon
