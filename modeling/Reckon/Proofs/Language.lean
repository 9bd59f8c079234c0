import Mathlib.Computability.ContextFreeGrammar
import Reckon.Proofs.Stage

/-!
# Reckon — the language of the grammar

The grammar as it is written down, read as an ordinary context-free grammar over the kinds of
tokens. Read so it is left-recursive and ambiguous: `- a ** b` is a unary expression, and it is
also a power whose base is one. It says which lists of kinds are sentences, and nothing about how
to find out.

Stages find out in one direction. A nonterminal moves a stage the way all its sentences do, so the
stage behind a form stays the same while the form is rewritten, whichever production is used where:
no choice has to be made between the derivations of an ambiguous sentence.

* `grammar` — the grammar, `Viable` — what can still become a sentence.
* `run?_of_mem_language` — a sentence leads the stages behind a statement.
* `Viable.run?_isSome` — what can still become a sentence does not stop the stages.
-/

namespace Reckon

/-- The names of the rules of the grammar. -/
inductive Nonterminal
  | program
  | statement
  | exp
  | sum
  | term
  | factor
  | primary
deriving DecidableEq, Repr

/-- A list of kinds and names of rules. -/
abbrev Form := List (Symbol Kind Nonterminal)

namespace Nonterminal

/-- All names. -/
def all : List Nonterminal := [program, statement, exp, sum, term, factor, primary]

/-- What each name may be replaced by. -/
def productions : Nonterminal → List Form
  | program => [
      [.nonterminal statement],
      [.nonterminal statement, .nonterminal program]]
  | statement => [
      [.terminal .letWord, .terminal .identifier, .terminal .assignment, .nonterminal exp],
      [.terminal .identifier, .terminal .assignment, .nonterminal exp],
      [.terminal .printWord, .nonterminal exp]]
  | exp => [
      [.nonterminal exp, .terminal .equals, .nonterminal sum],
      [.nonterminal sum]]
  | sum => [
      [.nonterminal sum, .terminal .plus, .nonterminal term],
      [.nonterminal sum, .terminal .dash, .nonterminal term],
      [.nonterminal term]]
  | term => [
      [.nonterminal term, .terminal .star, .nonterminal factor],
      [.nonterminal term, .terminal .slash, .nonterminal factor],
      [.nonterminal term, .terminal .percent, .nonterminal factor],
      [.nonterminal factor]]
  | factor => [
      [.nonterminal primary, .terminal .starStar, .nonterminal factor],
      [.nonterminal primary]]
  | primary => [
      [.terminal .identifier],
      [.terminal .number],
      [.terminal .openParen, .nonterminal exp, .terminal .closeParen],
      [.terminal .dash, .nonterminal factor],
      [.terminal .absWord, .nonterminal factor],
      [.terminal .sqrtWord, .nonterminal factor]]

end Nonterminal

/-- The grammar of the language. -/
@[reducible] def grammar : ContextFreeGrammar Kind where
  NT := Nonterminal
  initial := .program
  rules := (Nonterminal.all.flatMap fun name =>
    name.productions.map fun output => ContextFreeRule.mk name output).toFinset

/-- Whether a list of kinds, which may have the end of the input as its last one, can be continued
to a sentence and the end of the input. -/
def Viable (kinds : List Kind) : Prop :=
  ∃ sentence ∈ grammar.language, kinds <+: sentence ++ [.endOfInput]

theorem mem_rules_iff {rule : ContextFreeRule Kind Nonterminal} :
    rule ∈ grammar.rules ↔ rule.output ∈ rule.input.productions := by
  obtain ⟨input, output⟩ := rule
  simp only [grammar, List.mem_toFinset, List.mem_flatMap, List.mem_map, ContextFreeRule.mk.injEq]
  constructor
  · intro hlisted
    obtain ⟨name, -, produced, hproduced, rfl, rfl⟩ := hlisted
    exact hproduced
  · intro h
    exact ⟨input, by cases input <;> decide, output, h, rfl, rfl⟩

-- ---------------------------------------------------------------------------
-- Deriving by hand
-- ---------------------------------------------------------------------------

/-- What the output of a production derives, its name derives. -/
theorem derives_of_production {name : Nonterminal} (output : Form) {form : Form}
    (hproduction : output ∈ name.productions) (h : grammar.Derives output form) :
    grammar.Derives [.nonterminal name] form := by
  have hrule : ContextFreeRule.mk name output ∈ grammar.rules := mem_rules_iff.mpr hproduction
  have hstep : grammar.Produces [.nonterminal name] output :=
    ⟨_, hrule, ContextFreeRule.Rewrites.input_output⟩
  exact hstep.trans_derives h

/-- The parts of a form are rewritten independently of each other. -/
theorem derives_append {first second first' second' : Form} (h : grammar.Derives first first')
    (h' : grammar.Derives second second') :
    grammar.Derives (first ++ second) (first' ++ second') :=
  (h.append_right second).trans (h'.append_left first')

/-- A kind stays as it is. -/
theorem derives_cons (kind : Kind) {form form' : Form} (h : grammar.Derives form form') :
    grammar.Derives (.terminal kind :: form) (.terminal kind :: form') :=
  h.append_left [.terminal kind]

-- ---------------------------------------------------------------------------
-- Stages behind forms
-- ---------------------------------------------------------------------------

namespace Stage

/-- The stage behind a kind, or behind anything that a rule stands for. -/
def nextSymbol? : Stage → Symbol Kind Nonterminal → Option Stage
  | stage, .terminal kind => stage.next? kind
  | .statement, .nonterminal .program => some (.operator 0)
  | .operator 0, .nonterminal .program => some (.operator 0)
  | .statement, .nonterminal .statement => some (.operator 0)
  | .operator 0, .nonterminal .statement => some (.operator 0)
  | _, .nonterminal .program => none
  | _, .nonterminal .statement => none
  | .operand depth, .nonterminal _ => some (.operator depth)
  | _, .nonterminal _ => none

/-- The stage behind a form. -/
def runForm? (stage : Stage) (form : Form) : Option Stage := form.foldlM nextSymbol? stage

theorem runForm?_cons (stage : Stage) (symbol : Symbol Kind Nonterminal) (form : Form) :
    stage.runForm? (symbol :: form) = (stage.nextSymbol? symbol).bind fun next =>
      next.runForm? form := rfl

theorem runForm?_append (stage : Stage) (first second : Form) :
    stage.runForm? (first ++ second) = (stage.runForm? first).bind fun next =>
      next.runForm? second := List.foldlM_append

/-- On a form without names of rules, these are the stages behind its kinds. -/
theorem runForm?_terminals (stage : Stage) (kinds : List Kind) :
    stage.runForm? (kinds.map Symbol.terminal) = stage.run? kinds := by
  induction kinds generalizing stage with
  | nil => rfl
  | cons kind kinds ih =>
    rw [List.map_cons, runForm?_cons, run?_cons]
    congr 1
    funext next
    exact ih next

/-- The names that stand for statements lead behind a statement, from where one may begin. -/
theorem eq_of_nextSymbol?_statement {name : Nonterminal}
    (hname : name = .program ∨ name = .statement) {stage next : Stage}
    (h : stage.nextSymbol? (.nonterminal name) = some next) :
    (stage = .statement ∨ stage = .operator 0) ∧ next = .operator 0 := by
  rcases hname with rfl | rfl <;> unfold nextSymbol? at h <;> split at h <;> simp_all

/-- The names that stand for expressions lead from before an operand to behind it. -/
theorem eq_of_nextSymbol?_expression {name : Nonterminal} (hp : name ≠ .program)
    (hs : name ≠ .statement) {stage next : Stage}
    (h : stage.nextSymbol? (.nonterminal name) = some next) :
    ∃ depth, stage = .operand depth ∧ next = .operator depth := by
  unfold nextSymbol? at h
  split at h <;> simp_all

/-- A production moves the stages as its name does. -/
theorem runForm?_production {name : Nonterminal} {output : Form}
    (hproduction : output ∈ name.productions) {stage next : Stage}
    (h : stage.nextSymbol? (.nonterminal name) = some next) :
    stage.runForm? output = some next := by
  cases name with
  | program =>
    -- a few productions from two stages, and these are all run
    obtain ⟨hstage, rfl⟩ := eq_of_nextSymbol?_statement (.inl rfl) h
    rcases hstage with rfl | rfl <;> revert output <;> decide
  | statement =>
    obtain ⟨hstage, rfl⟩ := eq_of_nextSymbol?_statement (.inr rfl) h
    rcases hstage with rfl | rfl <;> revert output <;> decide
  | _ =>
    -- for expressions the depth is not known, but every production comes back to it
    obtain ⟨depth, rfl, rfl⟩ := eq_of_nextSymbol?_expression (by decide) (by decide) h
    simp only [Nonterminal.productions, List.mem_cons, List.not_mem_nil, or_false] at hproduction
    rcases hproduction with rfl | rfl | rfl | rfl | rfl | rfl <;> rfl

/-- Rewriting does not change where a form leads. -/
theorem runForm?_of_derives {form form' : Form} (hderives : grammar.Derives form form')
    {stage next : Stage} (h : stage.runForm? form = some next) :
    stage.runForm? form' = some next := by
  induction hderives with
  | refl => exact h
  | @tail middle last _ hproduces ih =>
    obtain ⟨rule, hrule, hrewrites⟩ := hproduces
    -- only the name between the two parts is rewritten, and its production leads where it does
    obtain ⟨front, back, rfl, rfl⟩ := hrewrites.exists_parts
    rw [runForm?_append, runForm?_append, Option.bind_assoc, Option.bind_eq_some_iff] at ih ⊢
    obtain ⟨before, hfront, hrest⟩ := ih
    refine ⟨before, hfront, ?_⟩
    rw [Option.bind_eq_some_iff] at hrest ⊢
    obtain ⟨behind, hname, hback⟩ := hrest
    refine ⟨behind, runForm?_production (mem_rules_iff.mp hrule) ?_, hback⟩
    rw [runForm?_cons, Option.bind_eq_some_iff] at hname
    obtain ⟨_, hnext, hnil⟩ := hname
    rw [hnext]
    exact hnil

end Stage

/-- A sentence leads the stages behind a statement. -/
theorem run?_of_mem_language {kinds : List Kind} (h : kinds ∈ grammar.language) :
    Stage.statement.run? kinds = some (.operator 0) := by
  have hstart : Stage.statement.runForm? [.nonterminal .program] = some (.operator 0) := rfl
  have hderives : grammar.Derives [.nonterminal .program] (kinds.map Symbol.terminal) := h
  rw [← Stage.runForm?_terminals]
  exact Stage.runForm?_of_derives hderives hstart

/-- What can still become a sentence does not stop the stages. -/
theorem Viable.run?_isSome {kinds : List Kind} (h : Viable kinds) :
    (Stage.statement.run? kinds).isSome := by
  obtain ⟨sentence, hsentence, later, heq⟩ := h
  have hfinished : Stage.statement.run? (kinds ++ later) = some .finished := by
    rw [heq, Stage.run?_append_of_eq (run?_of_mem_language hsentence)]
    rfl
  rw [Stage.run?_append, Option.bind_eq_some_iff] at hfinished
  obtain ⟨stage, hstage, -⟩ := hfinished
  rw [hstage]
  rfl

end Reckon
