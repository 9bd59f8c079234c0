import Reckon.Derivation
import Reckon.Proofs.Language

/-!
# Reckon — well-formed derivations

A derivation that was put together by hand can hold any token at any place. Two things are asked of
one that the rules could have made: every token is of the kind that its place demands, and no power
has a unary operation as its base, since a unary operator takes the exponent for its own operand.
The second is what tells the two derivations of `- a ** b` apart.

* `Phrase.run?_tokens` — a phrase leads the stages from before an operand to behind it.
* `Derivation.mem_language` — the tokens of a derivation are a sentence of the grammar.
* `Phrase.continuations` — the kinds that would have made a phrase longer.
-/

namespace Reckon

namespace Phrase

-- ---------------------------------------------------------------------------
-- The two conditions
-- ---------------------------------------------------------------------------

/-- Every token is of the kind that its place demands. -/
def WellKinded {l : Nat} : Phrase l → Prop
  | .identifier id => id.kind = .identifier
  | .numeral token => token.kind = .number
  | .parens opening body closing =>
    opening.kind = .openParen ∧ body.WellKinded ∧ closing.kind = .closeParen
  | .unary op operand => op.kind ∈ Kind.unaryOperators ∧ operand.WellKinded
  | .primary inner => inner.WellKinded
  | .power base op exponent => base.WellKinded ∧ op.kind = .starStar ∧ exponent.WellKinded
  | .single operand => operand.WellKinded
  | @Phrase.chain n left op right =>
    left.WellKinded ∧ op.kind ∈ (chainLevel n).operators ∧ right.WellKinded

/-- Whether the phrase is an operation with a unary operator. -/
def isUnary {l : Nat} : Phrase l → Bool
  | .unary .. => true
  | _ => false

/-- No power in the phrase has a unary operation as its base. -/
def PlainBases {l : Nat} : Phrase l → Prop
  | .identifier _ => True
  | .numeral _ => True
  | .parens _ body _ => body.PlainBases
  | .unary _ operand => operand.PlainBases
  | .primary inner => inner.PlainBases
  | .power base _ exponent => base.isUnary = false ∧ base.PlainBases ∧ exponent.PlainBases
  | .single operand => operand.PlainBases
  | .chain left _ right => left.PlainBases ∧ right.PlainBases

end Phrase

namespace Clause

/-- Every token is of the kind that its place demands. -/
def WellKinded : Clause → Prop
  | .declare keyword id eq exp =>
    keyword.kind = .letWord ∧ id.kind = .identifier ∧ eq.kind = .assignment ∧ exp.WellKinded
  | .assign id eq exp => id.kind = .identifier ∧ eq.kind = .assignment ∧ exp.WellKinded
  | .print keyword exp => keyword.kind = .printWord ∧ exp.WellKinded

/-- The expression of the clause. -/
def exp : Clause → Exp
  | .declare _ _ _ exp => exp
  | .assign _ _ exp => exp
  | .print _ exp => exp

end Clause

namespace Derivation

/-- Every token is of the kind that its place demands. -/
def WellKinded (derivation : Derivation) : Prop :=
  ∀ clause ∈ derivation.clauses, clause.WellKinded

/-- No power in the derivation has a unary operation as its base. -/
def PlainBases (derivation : Derivation) : Prop :=
  ∀ clause ∈ derivation.clauses, clause.exp.PlainBases

end Derivation

-- ---------------------------------------------------------------------------
-- The kinds that would go on
-- ---------------------------------------------------------------------------

/-- The operators that bind a factor and, above it, the first `n` layers of chains. -/
def Kind.operatorsWithin : Nat → List Kind
  | 0 => Level.exponent.operators
  | n + 1 => operatorsWithin n ++ (Phrase.chainLevel n).operators

/-- An expression is bound by all operators. -/
theorem Kind.operatorsWithin_three : Kind.operatorsWithin 3 = Kind.binaryOperators := rfl

theorem Kind.mem_binaryOperators_of_chain {kind : Kind} {n : Nat}
    (h : kind ∈ (Phrase.chainLevel n).operators) : kind ∈ Kind.binaryOperators := by
  revert h
  match n with
  | 0 => cases kind <;> decide
  | 1 => cases kind <;> decide
  | _ + 2 => cases kind <;> simp [Phrase.chainLevel, Level.operators, Kind.binaryOperators]

/-- What an operand goes on with begins with the operators that bind it. -/
theorem Stage.operatorsWithin_prefix {n : Nat} (hn : n ≤ 3) (depth : Nat) :
    Kind.operatorsWithin n <+: (Stage.operator depth).kinds := by
  have hwithin : Kind.operatorsWithin n <+: Kind.binaryOperators := by
    match n with
    | 0 => decide
    | 1 => decide
    | 2 => decide
    | 3 => decide
  cases depth with
  | zero => exact (hwithin.trans (List.prefix_append _ _)).trans (List.prefix_append _ _)
  | succ depth => exact hwithin.trans (List.prefix_append _ _)

/-- An operator of a layer of chains does not bind anything below that layer. -/
theorem Kind.notMem_operatorsWithin_of_chain {kind : Kind} {n : Nat} (hn : n ≤ 2)
    (h : kind ∈ (Phrase.chainLevel n).operators) : kind ∉ Kind.operatorsWithin n := by
  revert h
  match n with
  | 0 => cases kind <;> decide
  | 1 => cases kind <;> decide
  | 2 => cases kind <;> decide

namespace Phrase

/-- The kinds that, right behind the phrase, would have made it longer. -/
def continuations {l : Nat} : Phrase l → List Kind
  | .identifier _ => []
  | .numeral _ => []
  | .parens _ _ _ => []
  | .unary _ _ => Kind.operatorsWithin 0
  | .primary _ => Kind.operatorsWithin 0
  | .power _ _ _ => Kind.operatorsWithin 0
  | @Phrase.single n _ => Kind.operatorsWithin (n + 1)
  | @Phrase.chain n _ _ _ => Kind.operatorsWithin (n + 1)

/-- From factors on, the layer alone decides. -/
theorem continuations_eq {n : Nat} (x : Phrase (n + 1)) :
    x.continuations = Kind.operatorsWithin n := by
  cases x <;> rfl

/-- A primary goes on with an exponent if it ends in the operand of a unary operator. -/
theorem continuations_primary (x : Primary) :
    x.continuations = if x.isUnary then Kind.operatorsWithin 0 else [] := by
  cases x <;> rfl

theorem tokens_ne_nil {l : Nat} (x : Phrase l) : x.tokens ≠ [] := by
  induction x <;> simp_all [tokens]

-- ---------------------------------------------------------------------------
-- A phrase is an operand
-- ---------------------------------------------------------------------------

/-- A phrase leads the stages from before an operand to behind it. -/
theorem run?_tokens {l : Nat} {x : Phrase l} (h : x.WellKinded) (depth : Nat) :
    (Stage.operand depth).run? (x.tokens.map Token.kind) = some (.operator depth) := by
  -- on the phrase, at any depth: inside parentheses the stages are one deeper, and come back
  induction x generalizing depth with
  | identifier id =>
    have hid : id.kind = .identifier := h
    simp [tokens, hid, Stage.next?]
  | numeral token =>
    have htoken : token.kind = .number := h
    simp [tokens, htoken, Stage.next?]
  | parens opening body closing ih =>
    obtain ⟨hopening, hbody, hclosing⟩ := h
    rw [tokens, List.cons_append, List.map_cons, List.map_append, Stage.run?_cons, hopening]
    show (Stage.operand (depth + 1)).run? _ = _
    rw [Stage.run?_append_of_eq (ih hbody (depth + 1)), List.map_cons, hclosing, Stage.run?_cons,
      Stage.next?_operator_closeParen]
    rfl
  | unary op operand ih =>
    obtain ⟨hop, hoperand⟩ := h
    rw [tokens, List.map_cons, Stage.run?_cons, Stage.next?_operand_of_unary hop]
    exact ih hoperand depth
  | primary inner ih => exact ih h depth
  | power base op exponent ihbase ihexponent =>
    obtain ⟨hbase, hop, hexponent⟩ := h
    have hbinary : op.kind ∈ Kind.binaryOperators := by rw [hop]; decide
    rw [tokens, List.map_append, Stage.run?_append_of_eq (ihbase hbase depth), List.map_cons,
      Stage.run?_cons, Stage.next?_operator_of_binary hbinary]
    exact ihexponent hexponent depth
  | single operand ih => exact ih h depth
  | chain left op right ihleft ihright =>
    obtain ⟨hleft, hop, hright⟩ := h
    have hbinary := Kind.mem_binaryOperators_of_chain hop
    rw [tokens, List.map_append, Stage.run?_append_of_eq (ihleft hleft depth), List.map_cons,
      Stage.run?_cons, Stage.next?_operator_of_binary hbinary]
    exact ihright hright depth

/-- The rule of the grammar that a layer is named after. -/
def layerName : Nat → Nonterminal
  | 0 => .primary
  | 1 => .factor
  | 2 => .term
  | 3 => .sum
  | _ => .exp

/-- The grammar has a production for every operator of a layer of chains. -/
theorem mem_productions_of_chain {kind : Kind} {n : Nat} (hn : n ≤ 2)
    (h : kind ∈ (chainLevel n).operators) :
    [.nonterminal (layerName (n + 2)), .terminal kind, .nonterminal (layerName (n + 1))] ∈
      (layerName (n + 2)).productions := by
  revert h
  match n with
  | 0 => cases kind <;> decide
  | 1 => cases kind <;> decide
  | 2 => cases kind <;> decide

/-- A phrase is derived from the name of its layer. -/
theorem derives_tokens {l : Nat} {x : Phrase l} (hl : l ≤ 4) (h : x.WellKinded) :
    grammar.Derives [.nonterminal (layerName l)]
      ((x.tokens.map Token.kind).map Symbol.terminal) := by
  -- on the phrase; each constructor is a production of the grammar
  induction x with
  | identifier id =>
    have hid : id.kind = .identifier := h
    rw [tokens, List.map_singleton, hid]
    exact derives_of_production [.terminal .identifier] (by decide)
      (ContextFreeGrammar.Derives.refl _)
  | numeral token =>
    have htoken : token.kind = .number := h
    rw [tokens, List.map_singleton, htoken]
    exact derives_of_production [.terminal .number] (by decide)
      (ContextFreeGrammar.Derives.refl _)
  | parens opening body closing ih =>
    obtain ⟨hopening, hbody, hclosing⟩ := h
    have hbodyDerives := (ih (by omega) hbody).append_right [.terminal .closeParen]
    refine derives_of_production
      [.terminal .openParen, .nonterminal .exp, .terminal .closeParen] (by decide) ?_
    simpa [tokens, hopening, hclosing, layerName] using derives_cons .openParen hbodyDerives
  | unary op operand ih =>
    obtain ⟨hop, hoperand⟩ := h
    -- there is one production for each unary operator
    have hproduction : [.terminal op.kind, .nonterminal .factor] ∈
        Nonterminal.primary.productions := by
      revert hop
      cases op.kind <;> decide
    exact derives_of_production _ hproduction (derives_cons op.kind (ih (by omega) hoperand))
  | primary inner ih =>
    exact derives_of_production [.nonterminal .primary] (by decide) (ih (by omega) h)
  | power base op exponent ihbase ihexponent =>
    obtain ⟨hbase, hop, hexponent⟩ := h
    refine derives_of_production
      ([.nonterminal .primary] ++ [.terminal .starStar, .nonterminal .factor])
      (by decide) ?_
    have hparts := derives_append (ihbase (by omega) hbase)
      (derives_cons .starStar (ihexponent (by omega) hexponent))
    simpa [tokens, hop, layerName] using hparts
  | @single n operand ih =>
    refine derives_of_production [.nonterminal (layerName (n + 1))] ?_
      (ih (by omega) h)
    have hn : n ≤ 2 := by omega
    -- a layer below the operators has its own name in the grammar, which depends on its number
    match n with
    | 0 => decide
    | 1 => decide
    | 2 => decide
  | @chain n left op right ihleft ihright =>
    obtain ⟨hleft, hop, hright⟩ := h
    refine derives_of_production _ (mem_productions_of_chain (by omega) hop) ?_
    have hparts := derives_append (ihleft hl hleft)
      (derives_cons op.kind (ihright (by omega) hright))
    simpa [tokens] using hparts

end Phrase

-- ---------------------------------------------------------------------------
-- Clauses and whole derivations
-- ---------------------------------------------------------------------------

namespace Clause

theorem tokens_ne_nil (clause : Clause) : clause.tokens ≠ [] := by
  cases clause <;> simp [tokens]

/-- A clause leads the stages behind a statement. -/
theorem run?_tokens {clause : Clause} (h : clause.WellKinded) :
    Stage.statement.run? (clause.tokens.map Token.kind) = some (.operator 0) := by
  cases clause with
  | declare keyword id eq exp =>
    obtain ⟨hkeyword, hid, heq, hexp⟩ := h
    simp only [tokens, List.map_cons, hkeyword, hid, heq]
    exact Phrase.run?_tokens hexp 0
  | assign id eq exp =>
    obtain ⟨hid, heq, hexp⟩ := h
    simp only [tokens, List.map_cons, hid, heq]
    exact Phrase.run?_tokens hexp 0
  | print keyword exp =>
    obtain ⟨hkeyword, hexp⟩ := h
    simp only [tokens, List.map_cons, hkeyword]
    exact Phrase.run?_tokens hexp 0

/-- The first token of a clause is one that begins a statement. -/
theorem exists_start {clause : Clause} (h : clause.WellKinded) :
    ∃ first later, clause.tokens = first :: later ∧ first.kind ∈ Kind.statementStarts := by
  cases clause with
  | declare keyword id eq exp => exact ⟨keyword, _, rfl, by rw [h.1]; decide⟩
  | assign id eq exp => exact ⟨id, _, rfl, by rw [h.1]; decide⟩
  | print keyword exp => exact ⟨keyword, _, rfl, by rw [h.1]; decide⟩

/-- The same from behind another clause. -/
theorem run?_tokens_behind {clause : Clause} (h : clause.WellKinded) :
    (Stage.operator 0).run? (clause.tokens.map Token.kind) = some (.operator 0) := by
  obtain ⟨first, later, htokens, hstart⟩ := exists_start h
  have hrun := run?_tokens h
  rw [htokens, List.map_cons] at hrun ⊢
  rw [Stage.run?_operator_of_start hstart]
  exact hrun

theorem derives_tokens {clause : Clause} (h : clause.WellKinded) :
    grammar.Derives [.nonterminal .statement]
      ((clause.tokens.map Token.kind).map Symbol.terminal) := by
  cases clause with
  | declare keyword id eq exp =>
    obtain ⟨hkeyword, hid, heq, hexp⟩ := h
    simp only [tokens, List.map_cons, hkeyword, hid, heq]
    refine derives_of_production [.terminal .letWord, .terminal .identifier,
      .terminal .assignment, .nonterminal .exp] (by decide) ?_
    exact derives_cons _ (derives_cons _ (derives_cons _ (Phrase.derives_tokens (by omega) hexp)))
  | assign id eq exp =>
    obtain ⟨hid, heq, hexp⟩ := h
    simp only [tokens, List.map_cons, hid, heq]
    refine derives_of_production [.terminal .identifier, .terminal .assignment,
      .nonterminal .exp] (by decide) ?_
    exact derives_cons _ (derives_cons _ (Phrase.derives_tokens (by omega) hexp))
  | print keyword exp =>
    obtain ⟨hkeyword, hexp⟩ := h
    simp only [tokens, List.map_cons, hkeyword]
    refine derives_of_production [.terminal .printWord, .nonterminal .exp]
      (by decide) ?_
    exact derives_cons _ (Phrase.derives_tokens (by omega) hexp)

end Clause

namespace Derivation

/-- One statement or more are a program. -/
theorem derives_clauses {clauses : List Clause} (hne : clauses ≠ [])
    (h : ∀ clause ∈ clauses, clause.WellKinded) :
    grammar.Derives [.nonterminal .program]
      (((clauses.flatMap Clause.tokens).map Token.kind).map Symbol.terminal) := by
  induction clauses with
  | nil => exact absurd rfl hne
  | cons first later ih =>
    have hfirst := Clause.derives_tokens (h first (List.mem_cons_self ..))
    cases later with
    | nil =>
      refine derives_of_production [.nonterminal .statement] (by decide) ?_
      simpa using hfirst
    | cons second later =>
      have hlater := ih (List.cons_ne_nil _ _) fun clause hmem => h clause (.tail _ hmem)
      refine derives_of_production
        ([.nonterminal .statement] ++ [.nonterminal .program]) (by decide) ?_
      rw [List.flatMap_cons, List.map_append, List.map_append]
      exact derives_append hfirst hlater

/-- The tokens of a derivation are a sentence of the grammar. -/
theorem mem_language {derivation : Derivation} (hne : derivation.clauses ≠ [])
    (h : derivation.WellKinded) : derivation.tokens.map Token.kind ∈ grammar.language :=
  derives_clauses hne h

/-- A derivation leads the stages behind a statement, so it does not hold the end of the input. -/
theorem endOfInput_notMem {derivation : Derivation} (hne : derivation.clauses ≠ [])
    (h : derivation.WellKinded) : ∀ token ∈ derivation.tokens, token.kind ≠ .endOfInput := by
  have hrun := run?_of_mem_language (mem_language hne h)
  exact Stage.kind_ne_endOfInput_of_run? hrun (by decide)

end Derivation

end Reckon
