import Reckon.Grammar
import Reckon.Token

/-!
# Reckon — what may come next

How a token list may go on does not depend on all of what was read. Whether a statement, a name, an
operand or an operator is due, and how many parentheses are open, is enough: a *stage*. Stages know
nothing of precedence. Which operand an operator takes is a matter of the derivation, and which
kinds may stand behind an operand is the same for all of them.

Stages read kinds from left to right and take back nothing, so they can be compared both with the
rules, which do the same, and with the grammar, which does not.

* `mem_kinds_iff` — the kinds that a stage goes on with, as a list.
* `run?_append` — reading one list after the other.
* `exists_run?_finished` — no stage is a dead end.
-/

namespace Reckon

/-- What the kinds of the tokens read so far amount to. -/
inductive Stage
  /-- A statement must begin. -/
  | statement
  /-- The name of a declared variable must come. -/
  | name
  /-- The sign between a name and its value must come. -/
  | assignment
  /-- An operand must come, inside so many open parentheses. -/
  | operand (depth : Nat)
  /-- An operand is complete, inside so many open parentheses. -/
  | operator (depth : Nat)
  /-- The end of the input was read. -/
  | finished
deriving DecidableEq, Repr

/-- The operators of all levels, the tightest first. -/
def Kind.binaryOperators : List Kind :=
  Level.exponent.operators ++ Level.multiplicative.operators ++ Level.additive.operators ++
    Level.relational.operators

/-- An operator does not end the input. -/
theorem Kind.ne_endOfInput_of_binary {kind : Kind} (h : kind ∈ Kind.binaryOperators) :
    kind ≠ .endOfInput := by
  rintro rfl
  exact absurd h (by decide)

theorem Kind.ne_endOfInput_of_unary {kind : Kind} (h : kind ∈ Kind.unaryOperators) :
    kind ≠ .endOfInput := by
  rintro rfl
  exact absurd h (by decide)

namespace Stage

/-- The stage behind the first token of a statement. -/
def ofStart? : Kind → Option Stage
  | .letWord => some .name
  | .printWord => some (.operand 0)
  | .identifier => some .assignment
  | _ => none

/-- The stage behind one more token, if it may stand here. -/
def next? : Stage → Kind → Option Stage
  | .statement, kind => ofStart? kind
  | .name, kind => if kind = .identifier then some .assignment else none
  | .assignment, kind => if kind = .assignment then some (.operand 0) else none
  | .operand depth, kind =>
    match kind with
    | .identifier | .number => some (.operator depth)
    | .openParen => some (.operand (depth + 1))
    | .dash | .absWord | .sqrtWord => some (.operand depth)
    | _ => none
  | .operator depth, kind =>
    if kind ∈ Kind.binaryOperators then some (.operand depth)
    else
      match depth with
      | depth + 1 => if kind = .closeParen then some (.operator depth) else none
      | 0 => if kind = .endOfInput then some .finished else ofStart? kind
  | .finished, _ => none

/-- The kinds that may stand next. -/
def kinds : Stage → List Kind
  | .statement => Kind.statementStarts
  | .name => [.identifier]
  | .assignment => [.assignment]
  | .operand _ => Kind.primaryStarts
  | .operator (_ + 1) => Kind.binaryOperators ++ [.closeParen]
  | .operator 0 => Kind.binaryOperators ++ Kind.statementStarts ++ [.endOfInput]
  | .finished => []

/-- The stage behind a list of tokens, if all of them may stand there. -/
def run? : Stage → List Kind → Option Stage
  | stage, [] => some stage
  | stage, kind :: later => (stage.next? kind).bind fun next => next.run? later

/-- The kinds of a stage are those that lead on from it. -/
theorem mem_kinds_iff {stage : Stage} {kind : Kind} :
    kind ∈ stage.kinds ↔ (stage.next? kind).isSome := by
  cases stage with
  | operator depth =>
    cases depth with
    | zero => cases kind <;> decide
    | succ depth => cases kind <;> simp [kinds, next?, Kind.binaryOperators, Level.operators]
  | operand depth => cases kind <;> simp [kinds, next?, Kind.primaryStarts]
  | _ => cases kind <;> decide

/-- No stage lists a kind twice. -/
theorem nodup_kinds (stage : Stage) : stage.kinds.Nodup := by
  cases stage with
  | operator depth => cases depth <;> simp only [kinds] <;> decide
  | _ =>
    simp only [kinds]
    decide

/-- There is always something to go on with before the end. -/
theorem kinds_ne_nil (stage : Stage) (h : stage ≠ .finished) : stage.kinds ≠ [] := by
  cases stage with
  | operator depth => cases depth <;> exact List.append_ne_nil_of_right_ne_nil _ (by simp)
  | finished => exact absurd rfl h
  | _ => exact List.cons_ne_nil _ _

theorem next?_eq_none_iff {stage : Stage} {kind : Kind} :
    stage.next? kind = none ↔ kind ∉ stage.kinds := by
  rw [mem_kinds_iff, Option.not_isSome_iff_eq_none]

@[simp] theorem run?_nil (stage : Stage) : stage.run? [] = some stage := rfl

@[simp] theorem run?_cons (stage : Stage) (kind : Kind) (later : List Kind) :
    stage.run? (kind :: later) = (stage.next? kind).bind fun next => next.run? later := rfl

/-- Reading one list after the other. -/
theorem run?_append (stage : Stage) (first second : List Kind) :
    stage.run? (first ++ second) = (stage.run? first).bind fun next => next.run? second := by
  induction first generalizing stage with
  | nil => rfl
  | cons kind first ih =>
    rw [List.cons_append, run?_cons, run?_cons, Option.bind_assoc]
    congr 1
    funext next
    exact ih next

/-- A run goes on from the stage that it has come to. -/
theorem run?_append_of_eq {stage middle : Stage} {first : List Kind}
    (h : stage.run? first = some middle) (second : List Kind) :
    stage.run? (first ++ second) = middle.run? second := by
  rw [run?_append, h, Option.bind_some]

-- ---------------------------------------------------------------------------
-- Steps that several stages share
-- ---------------------------------------------------------------------------

/-- Behind an operand an operator leads to the next operand. -/
theorem next?_operator_of_binary {kind : Kind} (h : kind ∈ Kind.binaryOperators) (depth : Nat) :
    (operator depth).next? kind = some (.operand depth) := by
  simp [next?, h]

/-- In front of an operand there may be one more unary operator. -/
theorem next?_operand_of_unary {kind : Kind} (h : kind ∈ Kind.unaryOperators) (depth : Nat) :
    (operand depth).next? kind = some (.operand depth) := by
  cases kind <;> simp_all [Kind.unaryOperators, next?]

/-- A parenthesis is closed only if one is open. -/
theorem next?_operator_closeParen (depth : Nat) :
    (operator (depth + 1)).next? .closeParen = some (.operator depth) := by
  simp [next?, Kind.binaryOperators, Level.operators]

/-- A statement may begin right behind another one. -/
theorem run?_operator_of_start {kind : Kind} (h : kind ∈ Kind.statementStarts)
    (later : List Kind) : (operator 0).run? (kind :: later) = statement.run? (kind :: later) := by
  have hnext : (operator 0).next? kind = statement.next? kind := by
    revert h
    cases kind <;> decide
  rw [run?_cons, run?_cons, hnext]

-- ---------------------------------------------------------------------------
-- The end of the input
-- ---------------------------------------------------------------------------

/-- Only the end of the input leads to the last stage, and only from behind a statement. -/
theorem eq_of_next?_finished {stage : Stage} {kind : Kind} (h : stage.next? kind = some .finished) :
    stage = .operator 0 ∧ kind = .endOfInput := by
  cases stage with
  | operator depth =>
    cases depth with
    | zero =>
      refine ⟨rfl, ?_⟩
      revert h
      cases kind <;> decide
    | succ depth => cases kind <;> simp [next?, Kind.binaryOperators, Level.operators] at h
  | operand depth => cases kind <;> simp [next?] at h
  | _ => cases kind <;> simp [next?, ofStart?] at h

/-- What leads to the last stage is what leads behind a statement, and the end of the input. -/
theorem run?_eq_finished_iff {stage : Stage} {kinds : List Kind} (h : stage ≠ .finished) :
    stage.run? kinds = some .finished ↔
      ∃ front, kinds = front ++ [.endOfInput] ∧ stage.run? front = some (.operator 0) := by
  constructor
  · intro hrun
    rcases List.eq_nil_or_concat kinds with rfl | ⟨front, last, rfl⟩
    · simp [h] at hrun
    · rw [List.concat_eq_append] at hrun ⊢
      rw [run?_append, Option.bind_eq_some_iff] at hrun
      obtain ⟨middle, hfront, hlast⟩ := hrun
      rw [run?_cons, Option.bind_eq_some_iff] at hlast
      obtain ⟨next, hnext, hnil⟩ := hlast
      rw [run?_nil, Option.some.injEq] at hnil
      rw [hnil] at hnext
      -- the last step is into the last stage, so it is the end of the input behind a statement
      obtain ⟨rfl, rfl⟩ := eq_of_next?_finished hnext
      exact ⟨front, rfl, hfront⟩
  · intro hsplit
    obtain ⟨front, rfl, hfront⟩ := hsplit
    rw [run?_append_of_eq hfront]
    rfl

/-- The end of the input is not read anywhere but at the end. -/
theorem endOfInput_notMem_of_run? {stage next : Stage} {kinds : List Kind}
    (h : stage.run? kinds = some next) (hnext : next ≠ .finished) : .endOfInput ∉ kinds := by
  intro hmem
  obtain ⟨front, back, rfl⟩ := List.append_of_mem hmem
  rw [run?_append, Option.bind_eq_some_iff] at h
  obtain ⟨middle, -, hrest⟩ := h
  rw [run?_cons, Option.bind_eq_some_iff] at hrest
  obtain ⟨behind, hend, hback⟩ := hrest
  -- an end of the input in between leads to the last stage, and nothing leads on from there
  have hbehind : behind = .finished := by
    revert hend
    cases middle with
    | operator depth => cases depth <;> simp [next?, Kind.binaryOperators, Level.operators, eq_comm]
    | _ => simp [next?, ofStart?]
  cases back with
  | nil => exact hnext (by simpa [hbehind] using hback.symm)
  | cons kind back => simp [hbehind, next?] at hback

/-- The input ends with the end token alone. -/
theorem kind_ne_endOfInput_of_run? {stage next : Stage} {tokens : List Token}
    (h : stage.run? (tokens.map Token.kind) = some next) (hnext : next ≠ .finished) :
    ∀ token ∈ tokens, token.kind ≠ .endOfInput := by
  intro token hmem hkind
  have hnot := endOfInput_notMem_of_run? h hnext
  exact hnot (hkind ▸ List.mem_map_of_mem hmem)

/-- Behind an operand, all open parentheses can be closed. -/
theorem run?_closeParens (depth : Nat) :
    (operator depth).run? (List.replicate depth .closeParen) = some (.operator 0) := by
  induction depth with
  | zero => rfl
  | succ depth ih =>
    rw [List.replicate_succ, run?_cons, next?_operator_closeParen, Option.bind_some]
    exact ih

/-- No stage is a dead end: some tokens lead from it to the end of the input. -/
theorem exists_run?_finished (stage : Stage) : ∃ kinds, stage.run? kinds = some .finished := by
  have hoperator : ∀ depth, ∃ kinds, (operator depth).run? kinds = some .finished := by
    intro depth
    refine ⟨List.replicate depth .closeParen ++ [.endOfInput], ?_⟩
    rw [run?_append_of_eq (run?_closeParens depth)]
    rfl
  have hoperand : ∀ depth, ∃ kinds, (operand depth).run? kinds = some .finished := by
    intro depth
    obtain ⟨kinds, h⟩ := hoperator depth
    exact ⟨.number :: kinds, h⟩
  -- each stage is led to an operand first, or is behind one already
  cases stage with
  | statement =>
    obtain ⟨kinds, h⟩ := hoperand 0
    exact ⟨.printWord :: kinds, h⟩
  | name =>
    obtain ⟨kinds, h⟩ := hoperand 0
    exact ⟨.identifier :: .assignment :: kinds, h⟩
  | assignment =>
    obtain ⟨kinds, h⟩ := hoperand 0
    exact ⟨.assignment :: kinds, h⟩
  | operand depth => exact hoperand depth
  | operator depth => exact hoperator depth
  | finished => exact ⟨[], rfl⟩

end Stage

end Reckon
