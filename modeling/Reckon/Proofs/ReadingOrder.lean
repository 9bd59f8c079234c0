import Reckon.Proofs.Building

/-!
# Reckon — how a derivation is read

Of a derivation only the texts of its numbers and operators are read; everything else is taken as it
is, or not looked at. It can be read if each of these texts can, and if some cannot, the fault is
that of the first one in the order of reading. That order is told by a list: the operands come
before the operator between them, an operator in front comes before its operand.

What a derivation is read as is told by its shape. Operators in a row group to the left, exponents
group to the right, and parentheses leave no trace, wherever they are put and whatever tokens they
consist of.

* `Phrase.readInOrder`, `Clause.readInOrder`, `Derivation.readInOrder` — success and fault.
* `Phrase.expr_row_eq_ok_iff`, `Phrase.expr_tower_eq_ok_iff` — grouping to the left and right.
* `Phrase.Regrouped.expr_eq` — parentheses.
* `derivation_read_in_order` — all of this about derivations.
-/

namespace Reckon

-- ---------------------------------------------------------------------------
-- What is read
-- ---------------------------------------------------------------------------

/-- A token whose text is read: as a number, as an operator between two operands, or as one in front
of its operand. -/
inductive Reading
  | number (token : Token)
  | binary (token : Token)
  | unary (token : Token)

namespace Reading

/-- The text can be read so. -/
def Good : Reading → Prop
  | number token => (Numeral.read? token.text).isSome = true
  | binary token => token.text ∈ ["==", "+", "-", "*", "/", "%", "**"]
  | unary token => token.text ∈ ["-", "abs", "sqrt"]

instance : DecidablePred Good
  | number token => inferInstanceAs (Decidable ((Numeral.read? token.text).isSome = true))
  | binary token =>
    inferInstanceAs (Decidable (token.text ∈ ["==", "+", "-", "*", "/", "%", "**"]))
  | unary token => inferInstanceAs (Decidable (token.text ∈ ["-", "abs", "sqrt"]))

/-- The fault of a text that cannot be read so. -/
def fault : Reading → Fault
  | number token => ⟨.badNumber token.text, token.span.start⟩
  | binary token =>
    ⟨.unexpected ["\"==\"", "\"+\"", "\"-\"", "\"*\"", "\"/\"", "\"%\"", "\"**\""] token.describe,
      token.span.start⟩
  | unary token => ⟨.unexpected ["\"-\"", "\"abs\"", "\"sqrt\""] token.describe, token.span.start⟩

end Reading

/-- What is read of a phrase, in order. -/
def Phrase.readings {l : Nat} : Phrase l → List Reading
  | .identifier _ => []
  | .numeral token => [.number token]
  | .parens _ body _ => body.readings
  | .unary op operand => .unary op :: operand.readings
  | .primary inner => inner.readings
  | .power base op exponent => base.readings ++ (exponent.readings ++ [.binary op])
  | .single operand => operand.readings
  | .chain left op right => left.readings ++ (right.readings ++ [.binary op])

/-- What is read of a clause, in order. -/
def Clause.readings : Clause → List Reading
  | .declare _ _ _ exp => exp.readings
  | .assign _ _ exp => exp.readings
  | .print _ exp => exp.readings

/-- What is read of a derivation, in order. -/
def Derivation.readings (derivation : Derivation) : List Reading :=
  derivation.clauses.flatMap Clause.readings

/-- The fault of the first reading that fails. -/
def firstFault? (readings : List Reading) : Option Fault :=
  (readings.find? fun reading => ¬ reading.Good).map Reading.fault

/-- The first fault of two lists is in the first one, if there is one. -/
theorem firstFault?_append (first later : List Reading) :
    firstFault? (first ++ later) = (firstFault? first).or (firstFault? later) := by
  rw [firstFault?, List.find?_append, Option.map_or]
  rfl

/-- There is none if all readings are good. -/
theorem firstFault?_eq_none_iff {readings : List Reading} :
    firstFault? readings = none ↔ ∀ reading ∈ readings, reading.Good := by
  simp [firstFault?]

-- ---------------------------------------------------------------------------
-- Success and fault
-- ---------------------------------------------------------------------------

/-- The result is that of the readings, one after the other. -/
structure ReadInOrder {α : Type} (result : Except Fault α) (readings : List Reading) : Prop where
  succeeds : (∃ a, result = .ok a) ↔ ∀ reading ∈ readings, reading.Good
  fails    : ∀ fault, result = .error fault ↔ firstFault? readings = some fault

namespace ReadInOrder

variable {α β : Type} {first later : List Reading}

/-- A success has no bad reading. -/
theorem of_ok {a : α} (h : firstFault? first = none) : ReadInOrder (.ok a) first where
  succeeds := by simpa using firstFault?_eq_none_iff.mp h
  fails := by simp [h]

/-- A failure has one, and tells the first. -/
theorem of_error {fault : Fault} (h : firstFault? first = some fault) :
    ReadInOrder (.error fault : Except Fault α) first where
  succeeds := by
    rw [← firstFault?_eq_none_iff, h]
    simp
  fails := by simp [h]

/-- So a success tells that all readings were good. -/
theorem firstFault?_of_ok {a : α} (h : ReadInOrder (.ok a) first) : firstFault? first = none :=
  firstFault?_eq_none_iff.mpr (h.succeeds.mp ⟨a, rfl⟩)

theorem pure (a : α) : ReadInOrder (Pure.pure a) [] := of_ok rfl

/-- What is done later is read later, and only if all before was good. -/
theorem bind {result : Except Fault α} {next : α → Except Fault β}
    (h : ReadInOrder result first) (hnext : ∀ a, ReadInOrder (next a) later) :
    ReadInOrder (result >>= next) (first ++ later) := by
  cases result with
  | error fault =>
    refine of_error ?_
    rw [firstFault?_append, (h.fails fault).mp rfl]
    rfl
  | ok a =>
    have happend : firstFault? (first ++ later) = firstFault? later := by
      rw [firstFault?_append, h.firstFault?_of_ok, Option.none_or]
    change ReadInOrder (next a) (first ++ later)
    have hlater := hnext a
    cases hresult : next a with
    | error fault => exact of_error (happend.trans ((hlater.fails fault).mp hresult))
    | ok b =>
      rw [hresult] at hlater
      exact of_ok (happend.trans hlater.firstFault?_of_ok)

/-- What is made of the result reads nothing more. -/
theorem map {result : Except Fault α} (h : ReadInOrder result first) (f : α → β) :
    ReadInOrder (do return f (← result)) first := by
  have hmap := h.bind fun a => pure (f a)
  rwa [List.append_nil] at hmap

/-- A list is read from its front to its end. -/
theorem mapM {f : α → Except Fault β} {readings : α → List Reading}
    (h : ∀ a, ReadInOrder (f a) (readings a)) (as : List α) :
    ReadInOrder (as.mapM f) (as.flatMap readings) := by
  induction as with
  | nil => exact pure []
  | cons a as ih =>
    rw [List.mapM_cons, List.flatMap_cons]
    exact (h a).bind fun b => ih.map (b :: ·)

end ReadInOrder

/-- What is looked up for a text is there if the text is good, and else there is a fault. -/
theorem ReadInOrder.lookup {α : Type} {result : Except Fault α} {found : Option α}
    {reading : Reading} (hgood : reading.Good ↔ found.isSome = true)
    (hsome : ∀ a, found = some a → result = .ok a)
    (hnone : found = none → result = .error reading.fault) : ReadInOrder result [reading] := by
  cases found with
  | none =>
    have hbad : ¬ reading.Good := fun h => Bool.false_ne_true (hgood.mp h)
    rw [hnone rfl]
    exact .of_error (by simp [firstFault?, hbad])
  | some a =>
    rw [hsome a rfl]
    exact .of_ok (firstFault?_eq_none_iff.mpr (by simpa using hgood))

/-- An operator is found for a text if it is the symbol of one. -/
theorem mem_map_iff_isSome {α : Type} (symbol : α → String) (all : List α) (text : String) :
    text ∈ all.map symbol ↔ (all.find? fun op => symbol op == text).isSome = true := by
  rw [List.mem_map, List.find?_isSome]
  simp

namespace Token

/-- To read a number is one reading. -/
theorem readInOrder_number (token : Token) : ReadInOrder token.number [.number token] := by
  refine .lookup Iff.rfl (fun value hvalue => ?_) fun hnone => ?_
  · rw [number, hvalue]
  · rw [number, hnone]
    rfl

theorem readInOrder_binaryOp (token : Token) : ReadInOrder token.binaryOp [.binary token] := by
  have hgood : (Reading.binary token).Good ↔ (BinaryOp.ofSymbol? token.text).isSome = true :=
    mem_map_iff_isSome BinaryOp.symbol BinaryOp.all token.text
  refine .lookup hgood (fun op hop => ?_) fun hnone => ?_
  · rw [binaryOp, hop]
  · rw [binaryOp, hnone]
    rfl

theorem readInOrder_unaryOp (token : Token) : ReadInOrder token.unaryOp [.unary token] := by
  have hgood : (Reading.unary token).Good ↔ (UnaryOp.ofSymbol? token.text).isSome = true :=
    mem_map_iff_isSome UnaryOp.symbol UnaryOp.all token.text
  refine .lookup hgood (fun op hop => ?_) fun hnone => ?_
  · rw [unaryOp, hop]
  · rw [unaryOp, hnone]
    rfl

end Token

/-- A phrase is read token by token, and only the first fault is noticed. -/
theorem Phrase.readInOrder {l : Nat} (x : Phrase l) : ReadInOrder x.expr x.readings := by
  induction x with
  | identifier id => exact .pure _
  | numeral token => exact token.readInOrder_number.map _
  | parens opening body closing ih => exact ih
  | unary op operand ih => exact op.readInOrder_unaryOp.bind fun _ => ih.map _
  | primary inner ih => exact ih
  | power base op exponent ihbase ihexponent =>
    exact ihbase.bind fun _ => ihexponent.bind fun _ => op.readInOrder_binaryOp.map _
  | single operand ih => exact ih
  | chain left op right ihleft ihright =>
    exact ihleft.bind fun _ => ihright.bind fun _ => op.readInOrder_binaryOp.map _

/-- A statement reads what its expression reads. -/
theorem Clause.readInOrder (clause : Clause) : ReadInOrder clause.statement clause.readings := by
  cases clause with
  | declare keyword id eq exp => exact exp.readInOrder.map _
  | assign id eq exp => exact exp.readInOrder.map _
  | print keyword exp => exact exp.readInOrder.map _

/-- A derivation reads its statements one after the other. -/
theorem Derivation.readInOrder (derivation : Derivation) :
    ReadInOrder derivation.program derivation.readings :=
  (ReadInOrder.mapM Clause.readInOrder derivation.clauses).map _

-- ---------------------------------------------------------------------------
-- Operators in a row, and exponents
-- ---------------------------------------------------------------------------

namespace Phrase

/-- An operand, and more of them behind it, each with the operator in front. -/
def row {n : Nat} (first : Phrase (n + 1)) (rest : List (Token × Phrase (n + 1))) :
    Phrase (n + 2) :=
  rest.foldl (fun left part => .chain left part.1 part.2) (.single first)

/-- Bases, each with the operator behind it, and the last exponent. -/
def tower (bases : List (Primary × Token)) (last : Primary) : Factor :=
  bases.foldr (fun part exponent => .power part.1 part.2 exponent) (.primary last)

/-- The operands and the operators between them are read, and grouped to the left they make the
expression. -/
def ReadsLeft {l m : Nat} (first : Phrase l) (rest : List (Token × Phrase m)) (e : Expr) : Prop :=
  ∃ (start : Expr) (parts : List (BinaryOp × Expr)), first.expr = .ok start ∧
    List.Forall₂ (fun part read => part.1.text = read.1.symbol ∧ part.2.expr = .ok read.2)
      rest parts ∧
    e = parts.foldl (fun left read => .binary read.1 left read.2) start

/-- The operands and the operators between them are read, and grouped to the right they make the
expression. -/
def ReadsRight (bases : List (Primary × Token)) (last : Primary) (e : Expr) : Prop :=
  ∃ (top : Expr) (parts : List (Expr × BinaryOp)), last.expr = .ok top ∧
    List.Forall₂ (fun part read => part.1.expr = .ok read.1 ∧ part.2.text = read.2.symbol)
      bases parts ∧
    e = parts.foldr (fun read right => .binary read.2 read.1 right) top

/-- Every chain is a row of operands. -/
theorem exists_row {n : Nat} : (x : Phrase (n + 2)) → ∃ first rest, x = row first rest
  | .single operand => ⟨operand, [], rfl⟩
  | .chain left op right => by
    obtain ⟨first, rest, hleft⟩ := exists_row left
    exact ⟨first, rest ++ [(op, right)], by rw [hleft, row, row, List.foldl_concat]⟩

/-- Every factor is a tower of powers. -/
theorem exists_tower : (x : Factor) → ∃ bases last, x = tower bases last
  | .primary inner => ⟨[], inner, rfl⟩
  | .power base op exponent => by
    obtain ⟨bases, last, hexponent⟩ := exists_tower exponent
    exact ⟨(base, op) :: bases, last, by rw [hexponent]; rfl⟩

section

variable {n : Nat} {first : Phrase (n + 1)} {rest : List (Token × Phrase (n + 1))} {e : Expr}

/-- A chain that goes on is read from what it was read as before. -/
theorem expr_foldl_eq_ok_iff {x : Phrase (n + 2)} :
    (rest.foldl (fun left part => .chain left part.1 part.2) x).expr = .ok e ↔
      ReadsLeft x rest e := by
  -- on what follows; the part in front joins what was read so far, and so the left side grows
  induction rest generalizing x with
  | nil =>
    constructor
    · exact fun h => ⟨e, [], h, .nil, rfl⟩
    · rintro ⟨start, parts, h, hparts, rfl⟩
      cases hparts
      exact h
  | cons part rest ih =>
    rw [List.foldl_cons, ih]
    constructor
    · rintro ⟨start, parts, hstart, hparts, rfl⟩
      obtain ⟨left, hleft, right, hright, op, hop, rfl⟩ := expr_chain_eq_ok_iff.mp hstart
      exact ⟨left, (op, right) :: parts, hleft, .cons ⟨hop, hright⟩ hparts, rfl⟩
    · rintro ⟨left, parts, hleft, hparts, rfl⟩
      cases hparts with
      | cons hread hparts =>
        exact ⟨_, _, expr_chain_eq_ok_iff.mpr ⟨left, hleft, _, hread.2, _, hread.1, rfl⟩, hparts,
          rfl⟩

/-- Operators in a row group to the left. -/
theorem expr_row_eq_ok_iff :
    (row first rest).expr = .ok e ↔ ReadsLeft first rest e :=
  expr_foldl_eq_ok_iff

end

/-- Exponents group to the right. -/
theorem expr_tower_eq_ok_iff {bases : List (Primary × Token)} {last : Primary} {e : Expr} :
    (tower bases last).expr = .ok e ↔
      ReadsRight bases last e := by
  -- on the bases; what is read of the rest is the exponent of the first one
  induction bases generalizing e with
  | nil =>
    constructor
    · exact fun h => ⟨e, [], h, .nil, rfl⟩
    · rintro ⟨top, parts, h, hparts, rfl⟩
      cases hparts
      exact h
  | cons part bases ih =>
    rw [tower, List.foldr_cons, expr_power_eq_ok_iff]
    constructor
    · rintro ⟨left, hleft, right, hright, op, hop, rfl⟩
      obtain ⟨top, parts, htop, hparts, rfl⟩ := ih.mp hright
      exact ⟨top, (left, op) :: parts, htop, .cons ⟨hleft, hop⟩ hparts, rfl⟩
    · rintro ⟨top, parts, htop, hparts, rfl⟩
      cases hparts with
      | cons hread hparts =>
        exact ⟨_, hread.1, _, ih.mpr ⟨top, _, htop, hparts, rfl⟩, _, hread.2, rfl⟩

-- ---------------------------------------------------------------------------
-- Parentheses
-- ---------------------------------------------------------------------------

/-- The second phrase is the first one, as a phrase of the same or of a looser layer. -/
inductive Lifted : {l m : Nat} → Phrase l → Phrase m → Prop
  | refl {l : Nat} (x : Phrase l) : Lifted x x
  | primary {l : Nat} {x : Phrase l} {inner : Phrase 0} (h : Lifted x inner) :
      Lifted x (.primary inner)
  | single {l n : Nat} {x : Phrase l} {operand : Phrase (n + 1)} (h : Lifted x operand) :
      Lifted x (.single operand)

/-- The second phrase is the first one with parentheses added: any tokens, around any phrases in it,
any number of times. -/
inductive Regrouped : {l : Nat} → Phrase l → Phrase l → Prop
  | refl {l : Nat} (x : Phrase l) : Regrouped x x
  | enclose {l : Nat} {x y z : Phrase l} {body : Phrase 4} (opening closing : Token)
      (h : Regrouped x y) (hbody : Lifted y body) (hz : Lifted (.parens opening body closing) z) :
      Regrouped x z
  | parens {body body' : Phrase 4} (opening closing : Token) (h : Regrouped body body') :
      Regrouped (.parens opening body closing) (.parens opening body' closing)
  | unary {operand operand' : Phrase 1} (op : Token) (h : Regrouped operand operand') :
      Regrouped (.unary op operand) (.unary op operand')
  | primary {inner inner' : Phrase 0} (h : Regrouped inner inner') :
      Regrouped (.primary inner) (.primary inner')
  | power {base base' : Phrase 0} {exponent exponent' : Phrase 1} (op : Token)
      (hbase : Regrouped base base') (hexponent : Regrouped exponent exponent') :
      Regrouped (.power base op exponent) (.power base' op exponent')
  | single {n : Nat} {operand operand' : Phrase (n + 1)} (h : Regrouped operand operand') :
      Regrouped (.single operand) (.single operand')
  | chain {n : Nat} {left left' : Phrase (n + 2)} {right right' : Phrase (n + 1)} (op : Token)
      (hleft : Regrouped left left') (hright : Regrouped right right') :
      Regrouped (.chain left op right) (.chain left' op right')

/-- To lift a phrase to a looser layer adds nothing to it. -/
theorem Lifted.expr_eq {l m : Nat} {x : Phrase l} {y : Phrase m} (h : Lifted x y) :
    y.expr = x.expr := by
  induction h with
  | refl x => rfl
  | primary h ih => exact ih
  | single h ih => exact ih

/-- Every phrase can be lifted that far. -/
theorem exists_lifted {l m : Nat} (x : Phrase l) (h : l ≤ m) : ∃ y : Phrase m, Lifted x y := by
  induction h with
  | refl => exact ⟨x, .refl x⟩
  | @step m _ ih =>
    obtain ⟨y, hy⟩ := ih
    match m with
    | 0 => exact ⟨.primary y, hy.primary⟩
    | n + 1 => exact ⟨.single y, hy.single⟩

/-- Parentheses can be put around every phrase of the grammar. -/
theorem exists_enclosed {l : Nat} (x : Phrase l) (h : l ≤ 4) (opening closing : Token) :
    ∃ (body : Phrase 4) (y : Phrase l), Lifted x body ∧ Lifted (.parens opening body closing) y ∧
      Regrouped x y := by
  obtain ⟨body, hbody⟩ := x.exists_lifted h
  obtain ⟨y, hy⟩ := (Phrase.parens opening body closing).exists_lifted (Nat.zero_le l)
  exact ⟨body, y, hbody, hy, .enclose opening closing (.refl x) hbody hy⟩

/-- Parentheses do not change what a phrase is read as, nor its fault. -/
theorem Regrouped.expr_eq {l : Nat} {x y : Phrase l} (h : Regrouped x y) : y.expr = x.expr := by
  -- to enclose a phrase is to lift it twice, and neither parentheses nor a layer is kept
  induction h with
  | refl x => rfl
  | enclose opening closing h hbody hz ih =>
    rw [hz.expr_eq, expr, hbody.expr_eq, ih]
  | parens opening closing h ih => exact ih
  | unary op h ih => rw [expr, expr, ih]
  | primary h ih => exact ih
  | power op hbase hexponent ihbase ihexponent => rw [expr, expr, ihbase, ihexponent]
  | single h ih => exact ih
  | chain op hleft hright ihleft ihright => rw [expr, expr, ihleft, ihright]

end Phrase

/-- The second clause is the first one with parentheses added in its expression. -/
inductive Clause.Regrouped : Clause → Clause → Prop
  | declare {exp exp' : Exp} (keyword id eq : Token) (h : exp.Regrouped exp') :
      Regrouped (.declare keyword id eq exp) (.declare keyword id eq exp')
  | assign {exp exp' : Exp} (id eq : Token) (h : exp.Regrouped exp') :
      Regrouped (.assign id eq exp) (.assign id eq exp')
  | print {exp exp' : Exp} (keyword : Token) (h : exp.Regrouped exp') :
      Regrouped (.print keyword exp) (.print keyword exp')

/-- So a statement stays the same when its expression is grouped anew. -/
theorem Clause.Regrouped.statement_eq {clause clause' : Clause} (h : clause.Regrouped clause') :
    clause'.statement = clause.statement := by
  cases h with
  | declare keyword id eq h => rw [statement, statement, h.expr_eq]
  | assign id eq h => rw [statement, statement, h.expr_eq]
  | print keyword h => rw [statement, statement, h.expr_eq]

/-- And so do all statements of a derivation. -/
theorem mapM_statement_eq {clauses clauses' : List Clause}
    (h : List.Forall₂ Clause.Regrouped clauses clauses') :
    clauses'.mapM Clause.statement = clauses.mapM Clause.statement := by
  induction h with
  | nil => rfl
  | cons hclause hclauses ih => rw [List.mapM_cons, List.mapM_cons, hclause.statement_eq, ih]

-- ---------------------------------------------------------------------------
-- Whole derivations
-- ---------------------------------------------------------------------------

/--
**Derivations are read in order.** Every derivation, put together in whatever way, is read as the
texts of its numbers and operators say. It makes a program exactly if all of these are good, and
else has the fault of the first one that is not, in the order of reading. The program is what the
derivation stands for, statement by statement, and so it is with clauses and phrases. What it makes
groups operators in a row to the left and exponents to the right, and stays the same if any phrases
in it are put in parentheses.
-/
theorem derivation_read_in_order :
    (∀ derivation : Derivation, ReadInOrder derivation.program derivation.readings) ∧
    (∀ clause : Clause, ReadInOrder clause.statement clause.readings) ∧
    (∀ {l : Nat} (x : Phrase l), ReadInOrder x.expr x.readings) ∧
    (∀ (derivation : Derivation) (program : Program),
      derivation.program = .ok program ↔ derivation.Means program) ∧
    (∀ (clause : Clause) (statement : Statement),
      clause.statement = .ok statement ↔ clause.Means statement) ∧
    (∀ {l : Nat} (x : Phrase l) (e : Expr), x.expr = .ok e ↔ x.Means e) ∧
    (∀ {n : Nat} (x : Phrase (n + 2)), ∃ first rest, x = Phrase.row first rest ∧
      ∀ e, x.expr = .ok e ↔ Phrase.ReadsLeft first rest e) ∧
    (∀ x : Factor, ∃ bases last, x = Phrase.tower bases last ∧
      ∀ e, x.expr = .ok e ↔ Phrase.ReadsRight bases last e) ∧
    (∀ {l : Nat} {x y : Phrase l}, x.Regrouped y → y.expr = x.expr) ∧
    (∀ {clause clause' : Clause}, clause.Regrouped clause' →
      clause'.statement = clause.statement) ∧
    (∀ {derivation derivation' : Derivation},
      List.Forall₂ Clause.Regrouped derivation.clauses derivation'.clauses →
      derivation'.program = derivation.program) ∧
    ∀ {l : Nat} (x : Phrase l), l ≤ 4 → ∀ opening closing, ∃ body y,
      x.Lifted body ∧ (Phrase.parens opening body closing).Lifted y ∧ x.Regrouped y := by
  refine ⟨Derivation.readInOrder, Clause.readInOrder, Phrase.readInOrder,
    fun _ _ => Derivation.program_eq_ok_iff_means, fun _ _ => Clause.statement_eq_ok_iff,
    fun _ _ => Phrase.expr_eq_ok_iff, ?_, ?_, Phrase.Regrouped.expr_eq,
    Clause.Regrouped.statement_eq, ?_, Phrase.exists_enclosed⟩
  · intro n x
    obtain ⟨first, rest, rfl⟩ := x.exists_row
    exact ⟨first, rest, rfl, fun e => Phrase.expr_row_eq_ok_iff⟩
  · intro x
    obtain ⟨bases, last, rfl⟩ := x.exists_tower
    exact ⟨bases, last, rfl, fun e => Phrase.expr_tower_eq_ok_iff⟩
  · intro derivation derivation' h
    rw [Derivation.program, Derivation.program, mapM_statement_eq h]

/-- Of the three bad texts in `1 plus neg 1.2.3` the fault is about `neg`, and so it is with
parentheses around the expression. -/
theorem derivation_read_in_order_of_neg :
    ∃ exp exp' : Exp, exp.tokens.map Token.text = ["1", "plus", "neg", "1.2.3"] ∧
      exp'.tokens.map Token.text = ["(", "1", "plus", "neg", "1.2.3", ")"] ∧
      exp.Regrouped exp' ∧
      exp'.expr =
        .error ⟨.unexpected ["\"-\"", "\"abs\"", "\"sqrt\""] "\"neg\"", ⟨7, "a"⟩⟩ := by
  let numeral (text : String) (offset : Nat) : Primary :=
    .numeral ⟨.number, text, .ofLength "a" offset text.length⟩
  let operand : Factor := .primary (.unary ⟨.identifier, "neg", .ofLength "a" 7 3⟩
    (.primary (numeral "1.2.3" 11)))
  let exp : Exp := .single (.chain (.single (.single (.primary (numeral "1" 0))))
    ⟨.identifier, "plus", .ofLength "a" 2 4⟩ (.single operand))
  let exp' : Exp := .single (.single (.single (.primary (.parens
    ⟨.openParen, "(", .ofLength "a" 0 1⟩ exp ⟨.closeParen, ")", .ofLength "a" 16 1⟩))))
  have hregrouped : exp.Regrouped exp' :=
    .enclose _ _ (.refl exp) (.refl exp) (.single (.single (.single (.primary (.refl _)))))
  obtain ⟨-, -, hread, -, -, -, -, -, hsame, -⟩ := derivation_read_in_order
  refine ⟨exp, exp', rfl, rfl, hregrouped, ?_⟩
  rw [hsame hregrouped]
  exact ((hread exp).fails _).mpr (by decide +kernel)

end Reckon
