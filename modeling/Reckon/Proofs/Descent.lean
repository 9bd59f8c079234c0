import Reckon.Derivation.Match
import Reckon.Proofs.Outcome
import Reckon.Proofs.Shape

/-!
# Reckon — the rules, one by one

Each rule of the grammar is described by its outcome: it takes the tokens of a well-formed phrase
and stops where no token makes the phrase longer, or it is stuck where nothing of what the stages go
on with is found. The descriptions hold for every list with an end token and every place in it, with
whatever was missed there before.

The bounds on the depth and length of phrases never show. A rule that may go `limit` factors deep
reads all of a rest that is no longer than `limit`, because every way down takes a token first.

* `layer_reads`, `factorWithin_reads` — phrases, by induction on the layers and on the bound.
* `clause_outcome`, `program_outcome` — statements and whole lists.
-/

namespace Reckon

namespace Rule

variable {tokens : Array Token} {stage : Stage} {stale : List Kind} {rest later : List Token}
  {token : Token} {progress : Progress} {limit : Nat}

/-- The phrase `x` was taken from the front of `rest`. -/
def TakenPhrase {l : Nat} (tokens : Array Token) (rest : List Token) (x : Phrase l)
    (progress : Progress) : Prop :=
  x.WellKinded ∧ x.PlainBases ∧
    ∃ later, Taken tokens rest x.tokens x.continuations later progress

/-- Wherever an operand is due, the rule takes a phrase or is stuck, if no more than `limit` tokens
are left. -/
def Reads {l : Nat} (tokens : Array Token) (limit : Nat) (rule : Rule (Phrase l)) : Prop :=
  ∀ {progress : Progress} {rest : List Token} (depth : Nat), progress.Before tokens rest →
    rest.length ≤ limit →
    Outcome tokens (.operand depth) progress.pending rest (TakenPhrase tokens rest)
      (rule tokens progress)

/-- An operand that is due behind some tokens, where nothing is pending. -/
theorem Reads.behind {l depth : Nat} {rule : Rule (Phrase l)} {front : List Token}
    (hrule : Reads tokens limit rule) (h : progress.Before tokens rest)
    (hpending : progress.pending = []) (hlimit : rest.length ≤ limit) (hne : front ≠ [])
    (hrun : stage.run? (front.map Token.kind) = some (.operand depth)) :
    Outcome tokens stage stale (front ++ rest) (TakenPhrase tokens rest)
      (rule tokens progress) := by
  have houtcome := hrule depth h hlimit
  rw [hpending] at houtcome
  exact houtcome.after hne hrun (by simp)

-- ---------------------------------------------------------------------------
-- Primaries
-- ---------------------------------------------------------------------------

theorem parens_outcome {exp : Rule Exp} (hexp : Reads tokens limit exp) (depth : Nat)
    (h : progress.Before tokens (token :: later)) (hkind : token.kind = .openParen)
    (hlimit : later.length ≤ limit) :
    Outcome tokens (.operand depth) stale (token :: later) (TakenPhrase tokens (token :: later))
      (parens exp tokens progress) := by
  have hstep := h.step (by rw [hkind]; decide)
  have hpending := Progress.pending_step h.behind
  have hopen :
      (Stage.operand depth).run? ([token].map Token.kind) = some (.operand (depth + 1)) := by
    simp [hkind, Stage.next?]
  rw [parens, bind_apply, expect_of_eq h hkind (by decide)]
  refine Outcome.bind (hexp.behind hstep hpending hlimit (List.cons_ne_nil _ _) hopen) ?_
  intro body reached hpost
  obtain ⟨hwell, hplain, rest, htaken⟩ := hpost
  obtain ⟨closing, rest, rfl⟩ := htaken.before.exists_cons
  -- behind the expression only a closing parenthesis goes on
  by_cases hclosing : closing.kind = .closeParen
  · rw [bind_apply, expect_of_eq htaken.before hclosing (by decide)]
    have hlast := Taken.one htaken.before (by rw [hclosing]; decide)
    rw [htaken.split]
    exact ⟨⟨hkind, hwell, hclosing⟩, hplain, rest, hlast.after (token :: body.tokens)⟩
  · rw [bind_apply, expect_of_ne htaken.before hclosing]
    have hbinary := htaken.stop closing rfl
    rw [Phrase.continuations_eq] at hbinary
    have hrun := Stage.run?_append_of_eq hopen (body.tokens.map Token.kind)
    rw [Phrase.run?_tokens hwell] at hrun
    -- the kinds that were missed on the way are those of all operators, and now the parenthesis
    refine Stuck.here ([token] ++ body.tokens) htaken.before (by simp) (by rw [htaken.split]; rfl)
      (by rw [List.map_append]; exact hrun) (by simp) ?_ ?_
    · rw [Stage.kinds, List.mem_append, List.mem_singleton, not_or]
      exact ⟨hbinary, hclosing⟩
    · rw [htaken.exact, Phrase.continuations_eq, if_neg (by simp)]
      rfl

theorem unary_outcome {factor : Rule Factor} (hfactor : Reads tokens limit factor) (depth : Nat)
    (h : progress.Before tokens (token :: later)) (hkind : token.kind ∈ Kind.unaryOperators)
    (hlimit : later.length ≤ limit) :
    Outcome tokens (.operand depth) stale (token :: later) (TakenPhrase tokens (token :: later))
      (unary factor tokens progress) := by
  have hend := Kind.ne_endOfInput_of_unary hkind
  have hstep := h.step hend
  have hpending := Progress.pending_step h.behind
  have hrun : (Stage.operand depth).run? ([token].map Token.kind) = some (.operand depth) := by
    simp [Stage.next?_operand_of_unary hkind]
  rw [unary, bind_apply, expectAny_of_mem h hkind hend]
  refine Outcome.bind (hfactor.behind hstep hpending hlimit (List.cons_ne_nil _ _) hrun) ?_
  intro operand reached hpost
  obtain ⟨hwell, hplain, rest, htaken⟩ := hpost
  rw [Phrase.continuations_eq] at htaken
  exact ⟨⟨hkind, hwell⟩, hplain, rest, htaken.after [token]⟩

/-- A primary is told by its first token. -/
theorem primary_reads {exp : Rule Exp} {factor : Rule Factor} (hexp : Reads tokens limit exp)
    (hfactor : Reads tokens limit factor) : Reads tokens (limit + 1) (primary exp factor) := by
  intro progress rest depth h hlimit
  obtain ⟨token, later, rfl⟩ := h.exists_cons
  have hlater : later.length ≤ limit := by
    rw [List.length_cons] at hlimit
    omega
  rw [primary, bind_apply, current_eq h]
  -- one rule for each kind that a primary begins with; all other kinds are stuck here
  cases hkind : token.kind with
  | identifier =>
    simp only [hkind, identifier, bind_apply, expect_of_eq h hkind (by decide)]
    exact ⟨hkind, trivial, later, Taken.one h (by rw [hkind]; decide)⟩
  | number =>
    simp only [hkind, numeral, bind_apply, expect_of_eq h hkind (by decide)]
    exact ⟨hkind, trivial, later, Taken.one h (by rw [hkind]; decide)⟩
  | openParen =>
    simp only [hkind]
    exact parens_outcome hexp depth h hkind hlater
  | dash =>
    simp only [hkind]
    exact unary_outcome hfactor depth h (by rw [hkind]; decide) hlater
  | absWord =>
    simp only [hkind]
    exact unary_outcome hfactor depth h (by rw [hkind]; decide) hlater
  | sqrtWord =>
    simp only [hkind]
    exact unary_outcome hfactor depth h (by rw [hkind]; decide) hlater
  | _ =>
    simp only [hkind, reject_eq h (show Kind.primaryStarts ≠ [] by decide)]
    have hdead : token.kind ∉ Kind.primaryStarts := by rw [hkind]; decide
    exact Stuck.here [] h (by decide) rfl rfl (by simp) hdead rfl

-- ---------------------------------------------------------------------------
-- Factors and chains
-- ---------------------------------------------------------------------------

/-- A power is read where a primary is followed by its operator, so its base is no unary operation:
that would have taken the operator for its operand. -/
theorem power_reads {primary : Rule Primary} {factor : Rule Factor}
    (hprimary : Reads tokens (limit + 1) primary) (hfactor : Reads tokens limit factor) :
    Reads tokens (limit + 1) (power primary factor) := by
  intro progress rest depth h hlimit
  refine Outcome.bind (hprimary depth h hlimit) ?_
  intro base reached hpost
  obtain ⟨hwell, hplain, later, htaken⟩ := hpost
  obtain ⟨op, later, rfl⟩ := htaken.before.exists_cons
  have hrun := Phrase.run?_tokens hwell depth
  have hprimaryOps := Phrase.continuations_primary base
  by_cases hop : op.kind ∈ Level.exponent.operators
  · have hstarStar : op.kind = .starStar := by simpa [Level.operators] using hop
    have hstep := htaken.before.step (by rw [hstarStar]; decide)
    -- a unary base would have gone on with the operator, but the primary stopped in front of it
    have hbase : base.isUnary = false := by
      have hstop := htaken.stop op rfl
      rw [hprimaryOps] at hstop
      cases hunary : base.isUnary with
      | false => rfl
      | true =>
        rw [hunary, if_pos rfl] at hstop
        exact absurd hop hstop
    have hlater : later.length ≤ limit := by
      rw [htaken.split, List.length_append, List.length_cons] at hlimit
      omega
    have hfront : rest = (base.tokens ++ [op]) ++ later := by rw [htaken.split]; simp
    have hfrontRun :
        (Stage.operand depth).run? ((base.tokens ++ [op]).map Token.kind) =
          some (.operand depth) := by
      rw [List.map_append, Stage.run?_append_of_eq hrun]
      simp [hstarStar, Stage.next?_operator_of_binary (show Kind.starStar ∈ _ by decide)]
    have hpending := Progress.pending_step htaken.before.behind
    rw [bind_apply, accept_of_mem htaken.before hop (by rw [hstarStar]; decide), hfront]
    refine Outcome.bind (hfactor.behind hstep hpending hlater (by simp) hfrontRun) ?_
    intro exponent reached hpost
    obtain ⟨hwell', hplain', later', htaken'⟩ := hpost
    rw [Phrase.continuations_eq] at htaken'
    have hall := htaken'.after (base.tokens ++ [op])
    rw [List.append_assoc base.tokens [op] exponent.tokens] at hall
    exact ⟨⟨hwell, hstarStar, hwell'⟩, ⟨hbase, hplain, hplain'⟩, later', hall⟩
  · rw [bind_apply, accept_of_notMem htaken.before hop]
    -- without an operator the miss is added to what the primary left pending
    refine ⟨hwell, hplain, _, htaken.split, htaken.before.missAll _, ?_, ?_⟩
    · rw [Progress.pending_missAll htaken.before.behind, htaken.exact, hprimaryOps]
      cases base.isUnary <;> rfl
    · rintro _ ⟨⟩
      exact hop

/-- Each layer of chains adds its own operators to those that were looked for before. -/
theorem noted_operatorsWithin {n : Nat} (hn : n ≤ 2) :
    Progress.noted (Kind.operatorsWithin n) (Phrase.chainLevel n).operators =
      Kind.operatorsWithin (n + 1) := by
  match n with
  | 0 => decide
  | 1 => decide
  | 2 => decide

/-- A chain that has come so far goes on while an operator of its layer follows. -/
theorem extend_outcome {n bound : Nat} (hn : n ≤ 2) {operand : Rule (Phrase (n + 1))}
    (hoperand : Reads tokens bound operand) (limit depth : Nat) {left : Phrase (n + 2)}
    (hwell : left.WellKinded) (hplain : left.PlainBases) (hbound : rest.length ≤ bound)
    (hlimit : rest.length ≤ limit) (h : progress.Before tokens rest)
    (hexact : progress.pending = Kind.operatorsWithin n)
    (hstop : ∀ token ∈ rest.head?, token.kind ∉ Kind.operatorsWithin n) :
    Outcome tokens (.operator depth) (Kind.operatorsWithin n) rest
      (TakenPhrase tokens (left.tokens ++ rest)) (extend operand limit left tokens progress) := by
  -- by induction on the rounds that are left, of which every operator uses one
  induction limit generalizing progress rest left with
  | zero =>
    have hpos := h.length_pos
    omega
  | succ limit ih =>
    obtain ⟨op, later, rfl⟩ := h.exists_cons
    rw [extend, bind_apply]
    by_cases hop : op.kind ∈ (Phrase.chainLevel n).operators
    · have hbinary := Kind.mem_binaryOperators_of_chain hop
      have hend := Kind.ne_endOfInput_of_binary hbinary
      have hstep := h.step hend
      have hpending := Progress.pending_step h.behind
      have hlater : later.length ≤ bound := Nat.le_of_succ_le hbound
      have hrun : (Stage.operator depth).run? ([op].map Token.kind) = some (.operand depth) := by
        simp [Stage.next?_operator_of_binary hbinary]
      rw [accept_of_mem h hop hend]
      refine Outcome.bind (hoperand.behind hstep hpending hlater (List.cons_ne_nil _ _) hrun) ?_
      intro right reached hpost
      obtain ⟨hwell', hplain', later', htaken⟩ := hpost
      rw [Phrase.continuations_eq] at htaken
      have hlength := congrArg List.length htaken.split
      rw [List.length_append] at hlength
      rw [List.length_cons] at hlimit
      have hchain : (Phrase.chain left op right).WellKinded := ⟨hwell, hop, hwell'⟩
      have hnext := ih hchain ⟨hplain, hplain'⟩ (by omega) (by omega) htaken.before htaken.exact
        htaken.stop
      -- the operator and its operand are behind; what is pending there belongs to the operand
      have hfrontRun :
          (Stage.operator depth).run? ((op :: right.tokens).map Token.kind) =
            some (.operator depth) := by
        rw [List.map_cons, Stage.run?_cons, Stage.next?_operator_of_binary hbinary]
        exact Phrase.run?_tokens hwell' depth
      have hsplit : op :: later = (op :: right.tokens) ++ later' := by
        rw [List.cons_append, ← htaken.split]
      have hwhole : left.tokens ++ op :: later = (Phrase.chain left op right).tokens ++ later' := by
        rw [hsplit, Phrase.tokens, List.append_assoc]
      rw [hwhole, hsplit]
      exact hnext.after (List.cons_ne_nil _ _) hfrontRun
        (Stage.operatorsWithin_prefix (by omega) depth)
    · rw [accept_of_notMem h hop]
      -- the chain ends here, and the operators of its layer are pending with those of tighter ones
      refine ⟨hwell, hplain, _, rfl, h.missAll _, ?_, ?_⟩
      · rw [Progress.pending_missAll h.behind, hexact, Phrase.continuations_eq,
          noted_operatorsWithin hn]
      · rintro token ⟨⟩
        rw [Phrase.continuations_eq, Kind.operatorsWithin, List.mem_append, not_or]
        exact ⟨hstop op rfl, hop⟩

theorem chain_reads {n : Nat} (hn : n ≤ 2) {operand : Rule (Phrase (n + 1))}
    (hoperand : Reads tokens limit operand) : Reads tokens limit (chain operand limit) := by
  intro progress rest depth h hlimit
  refine Outcome.bind (hoperand depth h hlimit) ?_
  intro first reached hpost
  obtain ⟨hwell, hplain, later, htaken⟩ := hpost
  rw [Phrase.continuations_eq] at htaken
  have hlength := congrArg List.length htaken.split
  rw [List.length_append] at hlength
  have hsingle : (Phrase.single first).WellKinded := hwell
  -- the first operand is a chain already, and the loop goes on from it
  have hnext := extend_outcome hn hoperand limit depth hsingle hplain (by omega) (by omega)
    htaken.before htaken.exact htaken.stop
  rw [htaken.split]
  exact hnext.after (Phrase.tokens_ne_nil first) (Phrase.run?_tokens hwell depth)
    (Stage.operatorsWithin_prefix (by omega) depth)

theorem layer_reads {factor : Rule Factor} (hfactor : Reads tokens limit factor) {n : Nat}
    (hn : n ≤ 3) : Reads tokens limit (layer factor limit n) := by
  induction n with
  | zero => exact hfactor
  | succ n ih => exact chain_reads (by omega) (ih (by omega))

/-- A factor may go as deep as there are tokens left. -/
theorem factorWithin_reads (limit : Nat) : Reads tokens limit (factorWithin limit) := by
  induction limit with
  | zero =>
    intro progress rest depth h hlimit
    have hpos := h.length_pos
    omega
  | succ limit ih => exact power_reads (primary_reads (layer_reads ih (Nat.le_refl 3)) ih) ih

/-- A rule for phrases bounds itself by what is left, so nothing else has to. -/
theorem phrase_reads {n : Nat} (hn : n ≤ 3) : Reads tokens limit (phrase n) := by
  intro progress rest depth h hlimit
  have hreach := h.length_rest
  exact layer_reads (factorWithin_reads _) hn depth h (by omega)

-- ---------------------------------------------------------------------------
-- Statements
-- ---------------------------------------------------------------------------

/-- The statement was taken from the front of `rest`. -/
def TakenClause (tokens : Array Token) (rest : List Token) (clause : Clause)
    (progress : Progress) : Prop :=
  clause.WellKinded ∧ clause.exp.PlainBases ∧
    ∃ later, Taken tokens rest clause.tokens Kind.binaryOperators later progress

/-- The expression at the end of a statement. -/
theorem exp_outcome {front : List Token} (h : progress.Before tokens rest)
    (hpending : progress.pending = []) (hne : front ≠ [])
    (hrun : stage.run? (front.map Token.kind) = some (.operand 0)) :
    Outcome tokens stage stale (front ++ rest) (TakenPhrase tokens rest) (exp tokens progress) :=
  Reads.behind (phrase_reads (Nat.le_refl 3)) h hpending (Nat.le_refl _) hne hrun

theorem declare_outcome (h : progress.Before tokens (token :: later))
    (hkind : token.kind = .letWord) :
    Outcome tokens .statement stale (token :: later) (TakenClause tokens (token :: later))
      (declare tokens progress) := by
  have hstep := h.step (by rw [hkind]; decide)
  have hpending := Progress.pending_step h.behind
  have hname : Stage.statement.run? ([token].map Token.kind) = some .name := by
    simp [hkind, Stage.next?, Stage.ofStart?]
  rw [declare, bind_apply, expect_of_eq h hkind (by decide)]
  refine Outcome.bind (expect_outcome hstep hpending (by decide) (by simp) hname rfl) ?_
  intro id reached hpost
  obtain ⟨later, rfl, hid, hbefore, hpending⟩ := hpost
  -- the stage is followed from token to token, each of which must be there
  have hassignment : Stage.statement.run? ([token, id].map Token.kind) = some .assignment := by
    simp [hkind, hid, Stage.next?, Stage.ofStart?]
  show Outcome tokens .statement stale ([token, id] ++ later) _ _
  refine Outcome.bind (expect_outcome hbefore hpending (by decide) (by simp) hassignment rfl) ?_
  intro eq reached hpost
  obtain ⟨later, rfl, heq, hbefore, hpending⟩ := hpost
  have hoperand : Stage.statement.run? ([token, id, eq].map Token.kind) = some (.operand 0) := by
    simp [hkind, hid, heq, Stage.next?, Stage.ofStart?]
  show Outcome tokens .statement stale ([token, id, eq] ++ later) _ _
  refine Outcome.bind (exp_outcome hbefore hpending (by simp) hoperand) ?_
  intro exp reached hpost
  obtain ⟨hwell, hplain, rest, htaken⟩ := hpost
  rw [Phrase.continuations_eq] at htaken
  exact ⟨⟨hkind, hid, heq, hwell⟩, hplain, rest, htaken.after [token, id, eq]⟩

theorem assign_outcome (h : progress.Before tokens (token :: later))
    (hkind : token.kind = .identifier) :
    Outcome tokens .statement stale (token :: later) (TakenClause tokens (token :: later))
      (assign tokens progress) := by
  have hstep := h.step (by rw [hkind]; decide)
  have hpending := Progress.pending_step h.behind
  have hassignment : Stage.statement.run? ([token].map Token.kind) = some .assignment := by
    simp [hkind, Stage.next?, Stage.ofStart?]
  rw [assign, bind_apply, expect_of_eq h hkind (by decide)]
  refine Outcome.bind (expect_outcome hstep hpending (by decide) (by simp) hassignment rfl) ?_
  intro eq reached hpost
  obtain ⟨later, rfl, heq, hbefore, hpending⟩ := hpost
  have hoperand : Stage.statement.run? ([token, eq].map Token.kind) = some (.operand 0) := by
    simp [hkind, heq, Stage.next?, Stage.ofStart?]
  show Outcome tokens .statement stale ([token, eq] ++ later) _ _
  refine Outcome.bind (exp_outcome hbefore hpending (by simp) hoperand) ?_
  intro exp reached hpost
  obtain ⟨hwell, hplain, rest, htaken⟩ := hpost
  rw [Phrase.continuations_eq] at htaken
  exact ⟨⟨hkind, heq, hwell⟩, hplain, rest, htaken.after [token, eq]⟩

theorem print_outcome (h : progress.Before tokens (token :: later))
    (hkind : token.kind = .printWord) :
    Outcome tokens .statement stale (token :: later) (TakenClause tokens (token :: later))
      (print tokens progress) := by
  have hstep := h.step (by rw [hkind]; decide)
  have hpending := Progress.pending_step h.behind
  have hoperand : Stage.statement.run? ([token].map Token.kind) = some (.operand 0) := by
    simp [hkind, Stage.next?, Stage.ofStart?]
  rw [print, bind_apply, expect_of_eq h hkind (by decide)]
  refine Outcome.bind (exp_outcome hstep hpending (by simp) hoperand) ?_
  intro exp reached hpost
  obtain ⟨hwell, hplain, rest, htaken⟩ := hpost
  rw [Phrase.continuations_eq] at htaken
  exact ⟨⟨hkind, hwell⟩, hplain, rest, htaken.after [token]⟩

/-- A statement is told by its first token. -/
theorem clause_outcome (h : progress.Before tokens rest) :
    Outcome tokens .statement progress.pending rest (TakenClause tokens rest)
      (clause tokens progress) := by
  obtain ⟨token, later, rfl⟩ := h.exists_cons
  rw [clause, bind_apply, current_eq h]
  cases hkind : token.kind with
  | letWord =>
    simp only [hkind]
    exact declare_outcome h hkind
  | printWord =>
    simp only [hkind]
    exact print_outcome h hkind
  | identifier =>
    simp only [hkind]
    exact assign_outcome h hkind
  | _ =>
    simp only [hkind, reject_eq h (show Kind.statementStarts ≠ [] by decide)]
    have hdead : token.kind ∉ Kind.statementStarts := by rw [hkind]; decide
    exact Stuck.here [] h (by decide) rfl rfl (by simp) hdead rfl

/-- A statement is stuck in the same way right behind another one, once it has begun. -/
theorem Stuck.behind_statement {reason : Stop}
    (h : Stuck tokens .statement stale (token :: later) reason progress)
    (hstart : token.kind ∈ Kind.statementStarts) :
    Stuck tokens (.operator 0) [] (token :: later) reason progress := by
  obtain @⟨taken, reached, _, found, _, hsplit, hbefore, hthere, hrun, hgoing, hdead, hexact⟩ := h
  cases taken with
  | nil =>
    -- the stages do go on with the first token, so something was taken
    rw [List.map_nil, Stage.run?_nil, Option.some.injEq] at hrun
    rw [List.nil_append, List.cons.injEq] at hsplit
    rw [← hrun, ← hsplit.1] at hdead
    exact absurd hstart hdead
  | cons first taken =>
    obtain ⟨rfl, hlater⟩ := List.cons.inj hsplit
    refine .intro (token :: taken) reached hsplit hbefore hthere ?_ hgoing hdead ?_
    · rw [List.map_cons, Stage.run?_operator_of_start hstart]
      exact hrun
    · rw [hexact, ite_self, if_neg (List.cons_ne_nil _ _)]

/-- Statements are read until a token comes that begins none. -/
theorem clauses_outcome (limit : Nat) (h : progress.Before tokens rest)
    (hlimit : rest.length ≤ limit)
    (hexact : progress.pending = Kind.binaryOperators)
    (hstop : ∀ token ∈ rest.head?, token.kind ∉ Kind.binaryOperators) :
    Outcome tokens (.operator 0) [] rest
      (fun clauses reached =>
        (∀ clause ∈ clauses, clause.WellKinded) ∧ (∀ clause ∈ clauses, clause.exp.PlainBases) ∧
          ∃ later, Taken tokens rest (clauses.flatMap Clause.tokens) Kind.binaryOperators later
            reached ∧ ∀ token ∈ later.head?, token.kind ∉ Kind.statementStarts)
      (clauses limit tokens progress) := by
  -- by induction on the rounds that are left, of which every statement uses one
  induction limit generalizing progress rest with
  | zero =>
    have hpos := h.length_pos
    omega
  | succ limit ih =>
    obtain ⟨token, later, rfl⟩ := h.exists_cons
    rw [clauses, bind_apply, current_eq h]
    by_cases hstart : token.kind ∈ Kind.statementStarts
    · simp only [hstart, if_true]
      -- the stage behind a statement is not the one in front of the first, but it has the same
      -- beginnings
      have hfirst : Outcome tokens (.operator 0) [] (token :: later)
          (TakenClause tokens (token :: later)) (clause tokens progress) := by
        have hclause := clause_outcome h
        match hresult : clause tokens progress with
        | (.ok first, reached) => rwa [hresult] at hclause
        | (.error reason, reached) =>
          rw [hresult] at hclause
          exact Stuck.behind_statement hclause hstart
      refine Outcome.bind hfirst ?_
      intro first reached hpost
      obtain ⟨hwell, hplain, rest, htaken⟩ := hpost
      have hlength := congrArg List.length htaken.split
      have hpos := List.length_pos_iff.mpr first.tokens_ne_nil
      rw [List.length_append] at hlength
      have hlater := ih htaken.before (by omega) htaken.exact htaken.stop
      rw [htaken.split]
      refine Outcome.bind
        (hlater.after first.tokens_ne_nil (Clause.run?_tokens_behind hwell) (by simp)) ?_
      intro clauses reached hpost
      obtain ⟨hwells, hplains, rest', htaken', hstop'⟩ := hpost
      exact ⟨List.forall_mem_cons.mpr ⟨hwell, hwells⟩, List.forall_mem_cons.mpr ⟨hplain, hplains⟩,
        rest', htaken'.after first.tokens, hstop'⟩
    · simp only [hstart, if_false]
      refine ⟨by simp, by simp, _, ⟨rfl, h, hexact, hstop⟩, ?_⟩
      rintro _ ⟨⟩
      exact hstart

/-- A whole list is one statement or more, and an end token. -/
theorem program_outcome (h : progress.Before tokens rest) :
    Outcome tokens .statement progress.pending rest
      (fun derivation _ =>
        derivation.clauses ≠ [] ∧ derivation.WellKinded ∧ derivation.PlainBases ∧
          ∃ last later, rest = derivation.tokens ++ last :: later ∧ last.kind = .endOfInput)
      (program tokens progress) := by
  rw [program]
  refine Outcome.bind (clause_outcome h) ?_
  intro first reached hpost
  obtain ⟨hwell, hplain, rest', htaken⟩ := hpost
  have hlength := htaken.before.length_rest
  have hclauses := clauses_outcome (tokens.size - reached.pos + 1) htaken.before (by omega)
    htaken.exact htaken.stop
  rw [htaken.split, reach_bind]
  refine Outcome.bind
    (hclauses.after first.tokens_ne_nil (Clause.run?_tokens hwell) (by simp)) ?_
  intro clauses reached' hpost
  obtain ⟨hwells, hplains, later, htaken', hstart⟩ := hpost
  have hne : first :: clauses ≠ [] := List.cons_ne_nil _ _
  have hwellAll : Derivation.WellKinded ⟨first :: clauses⟩ :=
    List.forall_mem_cons.mpr ⟨hwell, hwells⟩
  have hplainAll : Derivation.PlainBases ⟨first :: clauses⟩ :=
    List.forall_mem_cons.mpr ⟨hplain, hplains⟩
  have hall := htaken'.after first.tokens
  obtain ⟨last, later, rfl⟩ := htaken'.before.exists_cons
  have hbefore := htaken'.before.missAll Kind.statementStarts
  rw [miss_bind]
  -- now either the list ends, or the token is one with which nothing goes on
  by_cases hend : last.kind = .endOfInput
  · rw [bind_apply, expect_endOfInput hbefore hend]
    exact ⟨hne, hwellAll, hplainAll, last, later, hall.split, hend⟩
  · rw [bind_apply, expect_of_ne hbefore hend]
    have hrun := run?_of_mem_language (Derivation.mem_language hne hwellAll)
    refine Stuck.here _ hbefore (List.cons_ne_nil _ _) hall.split hrun (by simp) ?_ ?_
    · rw [Stage.kinds, List.mem_append, List.mem_append, not_or, not_or, List.mem_singleton]
      exact ⟨⟨htaken'.stop last rfl, hstart last rfl⟩, hend⟩
    · rw [Progress.pending_missAll htaken'.before.behind, htaken'.exact,
        if_neg (by simp [first.tokens_ne_nil])]
      rfl

end Rule

end Reckon
