import Reckon.Derivation.Match
import Reckon.Proofs.Before
import Reckon.Proofs.Shape

/-!
# Reckon — derivations recovered from their tokens

The rules find every well-formed derivation again: before the tokens of a phrase, and where behind
them comes nothing that would make the phrase longer, the rule of its layer takes this phrase and no
other. So there is no second derivation of the same tokens.

The induction is on the phrase. For chains it does not speak of the whole rule, which stops at the
end of a chain and not behind some part of it, but of the loop in the rule: reading the tokens of a
chain brings the loop to that chain, whether or not it then goes on (`Recovered`).

* `recovered` — all phrases, `program_recovers` — whole derivations.
-/

namespace Reckon

namespace Rule

variable {tokens : Array Token} {rest : List Token} {progress : Progress}

/-- Where the tokens of `x` are next and nothing behind them makes it longer, the rule takes `x`. -/
def Recovers {l : Nat} (tokens : Array Token) (limit : Nat) (rule : Rule (Phrase l))
    (x : Phrase l) : Prop :=
  ∀ ⦃progress : Progress⦄ ⦃rest : List Token⦄, progress.Before tokens (x.tokens ++ rest) →
    (x.tokens ++ rest).length ≤ limit → (∀ token ∈ rest.head?, token.kind ∉ x.continuations) →
    ∃ reached : Progress, rule tokens progress = (.ok x, reached) ∧ reached.Before tokens rest

/-- There is always a token left. -/
theorem recovers_zero {l : Nat} (rule : Rule (Phrase l)) (x : Phrase l) :
    Recovers tokens 0 rule x := by
  intro progress rest h hlimit
  have hpos := h.length_pos
  omega

-- ---------------------------------------------------------------------------
-- Primaries and factors
-- ---------------------------------------------------------------------------

section

variable {limit : Nat} {exp : Rule Exp} {factor : Rule Factor} {primaryRule : Rule Primary}

/-- An identifier is found again by the rule for primaries, which its token leads to. -/
theorem identifier_recovers {id : Token} (hid : id.kind = .identifier) :
    Recovers tokens limit (primary exp factor) (.identifier id) := by
  intro progress rest h _ _
  have hnext : progress.Before tokens (id :: rest) := h
  rw [primary, bind_apply, current_eq hnext]
  simp only [hid, identifier, bind_apply, expect_of_eq hnext hid (by decide)]
  exact ⟨_, rfl, hnext.step (by rw [hid]; decide)⟩

theorem numeral_recovers {token : Token} (htoken : token.kind = .number) :
    Recovers tokens limit (primary exp factor) (.numeral token) := by
  intro progress rest h _ _
  have hnext : progress.Before tokens (token :: rest) := h
  rw [primary, bind_apply, current_eq hnext]
  simp only [htoken, numeral, bind_apply, expect_of_eq hnext htoken (by decide)]
  exact ⟨_, rfl, hnext.step (by rw [htoken]; decide)⟩

/-- Parentheses are found again if what they enclose is, and this may use one round less. -/
theorem parens_recovers {opening closing : Token} {body : Exp}
    (hopening : opening.kind = .openParen) (hbody : Recovers tokens limit exp body)
    (hclosing : closing.kind = .closeParen) :
    Recovers tokens (limit + 1) (primary exp factor) (.parens opening body closing) := by
  intro progress rest h hlimit _
  rw [Phrase.tokens, List.append_assoc, List.cons_append, List.singleton_append] at h hlimit
  rw [List.length_cons] at hlimit
  have hstep := h.step (by rw [hopening]; decide)
  -- a closing parenthesis continues no expression, whatever stands behind it
  have hstop : ∀ token ∈ (closing :: rest).head?, token.kind ∉ body.continuations := by
    rintro _ ⟨⟩
    rw [Phrase.continuations_eq, hclosing]
    decide
  obtain ⟨reached, heq, hreached⟩ := hbody hstep (by omega) hstop
  rw [primary, bind_apply, current_eq h]
  simp only [hopening, parens, bind_apply, expect_of_eq h hopening (by decide), heq,
    expect_of_eq hreached hclosing (by decide)]
  exact ⟨_, rfl, hreached.step (by rw [hclosing]; decide)⟩

/-- A unary operator is found again with its operand. -/
theorem unary_recovers {op : Token} {operand : Factor} (hop : op.kind ∈ Kind.unaryOperators)
    (hoperand : Recovers tokens limit factor operand) :
    Recovers tokens (limit + 1) (primary exp factor) (.unary op operand) := by
  intro progress rest h hlimit hstop
  rw [Phrase.tokens, List.cons_append] at h hlimit
  rw [List.length_cons] at hlimit
  have hend := Kind.ne_endOfInput_of_unary hop
  -- the choice among the primaries comes down to this rule for all three operators
  have hunary : primary exp factor tokens progress = unary factor tokens progress := by
    have hcases : op.kind = .dash ∨ op.kind = .absWord ∨ op.kind = .sqrtWord := by
      simpa [Kind.unaryOperators] using hop
    rw [primary, bind_apply, current_eq h]
    rcases hcases with hkind | hkind | hkind <;> simp only [hkind]
  have hoperandStop : ∀ token ∈ rest.head?, token.kind ∉ operand.continuations := by
    rw [Phrase.continuations_eq]
    exact hstop
  obtain ⟨reached, heq, hreached⟩ := hoperand (h.step hend) (by omega) hoperandStop
  rw [hunary, unary, bind_apply, expectAny_of_mem h hop hend]
  simp only [bind_apply, heq]
  exact ⟨_, rfl, hreached⟩

/-- A factor that is only a primary is found again, since no power follows it. -/
theorem primary_recovers {inner : Primary} (hinner : Recovers tokens limit primaryRule inner) :
    Recovers tokens limit (power primaryRule factor) (.primary inner) := by
  intro progress rest h hlimit hstop
  have hinnerStop : ∀ token ∈ rest.head?, token.kind ∉ inner.continuations := by
    intro token hmem
    rw [Phrase.continuations_primary]
    split
    · exact hstop token hmem
    · exact List.not_mem_nil
  obtain ⟨reached, heq, hreached⟩ := hinner h hlimit hinnerStop
  obtain ⟨token, later, rfl⟩ := hreached.exists_cons
  have hmiss : token.kind ∉ Level.exponent.operators := hstop token rfl
  rw [power, bind_apply, heq]
  simp only [bind_apply, accept_of_notMem hreached hmiss]
  exact ⟨_, rfl, hreached.missAll _⟩

/-- The base of a power stops at the operator, because it is no unary operation. -/
theorem power_recovers {base : Primary} {op : Token} {exponent : Factor}
    (hplain : base.isUnary = false) (hop : op.kind = .starStar)
    (hbase : Recovers tokens (limit + 1) primaryRule base)
    (hexponent : Recovers tokens limit factor exponent) :
    Recovers tokens (limit + 1) (power primaryRule factor) (.power base op exponent) := by
  intro progress rest h hlimit hstop
  rw [Phrase.tokens, List.append_assoc, List.cons_append] at h hlimit
  rw [List.length_append, List.length_cons] at hlimit
  -- the operator behind the base would be taken by a unary operation, and by no other primary
  have hbaseStop : ∀ token ∈ (op :: (exponent.tokens ++ rest)).head?,
      token.kind ∉ base.continuations := by
    intro token _
    rw [Phrase.continuations_primary, hplain]
    exact List.not_mem_nil
  obtain ⟨reached, heq, hreached⟩ := hbase h
    (by rw [List.length_append, List.length_cons]; omega) hbaseStop
  have hend : op.kind ≠ .endOfInput := by rw [hop]; decide
  have hmem : op.kind ∈ Level.exponent.operators := by rw [hop]; decide
  have hexponentStop : ∀ token ∈ rest.head?, token.kind ∉ exponent.continuations := by
    rw [Phrase.continuations_eq]
    exact hstop
  obtain ⟨reached', heq', hreached'⟩ := hexponent (hreached.step hend) (by omega) hexponentStop
  rw [power, bind_apply, heq]
  simp only [bind_apply, accept_of_mem hreached hmem hend, heq']
  exact ⟨_, rfl, hreached'⟩

end

-- ---------------------------------------------------------------------------
-- Chains and all layers
-- ---------------------------------------------------------------------------

/-- The rule for the phrases of a layer, where all rules are bounded by `limit`. -/
def ofLayer : (l limit : Nat) → Rule (Phrase l)
  | 0, 0 => stop .unending
  | 0, limit + 1 => primary (layer (factorWithin limit) limit 3) (factorWithin limit)
  | n + 1, limit => layer (factorWithin limit) limit n

/-- What reading the tokens of a phrase comes to. For a chain it is the state of the loop, also
where the loop would go on. -/
def Recovered (tokens : Array Token) : {l : Nat} → Phrase l → Prop
  | 0, x => ∀ limit, Recovers tokens limit (ofLayer 0 limit) x
  | 1, x => ∀ limit, Recovers tokens limit (ofLayer 1 limit) x
  | n + 2, x => ∀ limit ⦃progress : Progress⦄ ⦃rest : List Token⦄,
    progress.Before tokens (x.tokens ++ rest) → (x.tokens ++ rest).length ≤ limit →
    (∀ token ∈ rest.head?, token.kind ∉ Kind.operatorsWithin n) →
    ∃ (reached : Progress) (rounds : Nat),
      ofLayer (n + 2) limit tokens progress =
        extend (ofLayer (n + 1) limit) rounds x tokens reached ∧
      reached.Before tokens rest ∧ rest.length ≤ rounds

/-- The loop stops behind a chain that nothing makes longer. -/
theorem Recovered.recovers {l : Nat} {x : Phrase l} (h : Recovered tokens x) (limit : Nat) :
    Recovers tokens limit (ofLayer l limit) x := by
  match l with
  | 0 => exact h limit
  | 1 => exact h limit
  | n + 2 =>
    intro progress rest hbefore hlimit hstop
    rw [Phrase.continuations_eq, Kind.operatorsWithin] at hstop
    have htighter : ∀ token ∈ rest.head?, token.kind ∉ Kind.operatorsWithin n :=
      fun token hmem hkind => hstop token hmem (List.mem_append_left _ hkind)
    obtain ⟨reached, rounds, heq, hreached, hrounds⟩ := h limit hbefore hlimit htighter
    obtain ⟨token, later, rfl⟩ := hreached.exists_cons
    -- so the loop looks for an operator of its own layer once more and misses it
    have hlevel : token.kind ∉ (Phrase.chainLevel n).operators :=
      fun hkind => hstop token rfl (List.mem_append_right _ hkind)
    cases rounds with
    | zero => exact absurd hrounds (Nat.not_succ_le_zero _)
    | succ rounds =>
      rw [heq, extend, bind_apply, accept_of_notMem hreached hlevel]
      exact ⟨_, rfl, hreached.missAll _⟩

/-- A chain begins with its first operand. -/
theorem single_recovered {n : Nat} {operand : Phrase (n + 1)} (h : Recovered tokens operand) :
    Recovered tokens (Phrase.single operand) := by
  intro limit progress rest hbefore hlimit hstop
  rw [← Phrase.continuations_eq operand] at hstop
  obtain ⟨reached, heq, hreached⟩ := h.recovers limit hbefore hlimit hstop
  refine ⟨reached, limit, ?_, hreached, ?_⟩
  · show chain (ofLayer (n + 1) limit) limit tokens progress = _
    rw [chain, bind_apply, heq]
  · rw [List.length_append] at hlimit
    omega

/-- One more operator and operand are one more round of the loop. -/
theorem chain_recovered {n : Nat} (hn : n ≤ 2) {left : Phrase (n + 2)} {op : Token}
    {right : Phrase (n + 1)} (hop : op.kind ∈ (Phrase.chainLevel n).operators)
    (hleft : Recovered tokens left) (hright : Recovered tokens right) :
    Recovered tokens (Phrase.chain left op right) := by
  intro limit progress rest hbefore hlimit hstop
  rw [Phrase.tokens, List.append_assoc, List.cons_append] at hbefore hlimit
  have hleftStop : ∀ token ∈ (op :: (right.tokens ++ rest)).head?,
      token.kind ∉ Kind.operatorsWithin n := by
    rintro _ ⟨⟩
    exact Kind.notMem_operatorsWithin_of_chain hn hop
  -- the left side leaves the loop in front of the operator, with enough rounds to go on
  obtain ⟨reached, rounds, heq, hreached, hrounds⟩ := hleft limit hbefore hlimit hleftStop
  rw [List.length_append, List.length_cons] at hlimit
  rw [List.length_cons] at hrounds
  have hend := Kind.ne_endOfInput_of_binary (Kind.mem_binaryOperators_of_chain hop)
  rw [← Phrase.continuations_eq right] at hstop
  obtain ⟨reached', heq', hreached'⟩ :=
    hright.recovers limit (hreached.step hend) (by omega) hstop
  cases rounds with
  | zero => omega
  | succ rounds =>
    refine ⟨reached', rounds, ?_, hreached', ?_⟩
    · rw [heq, extend, bind_apply, accept_of_mem hreached hop hend]
      simp only [bind_apply, heq']
    · rw [List.length_append] at hrounds
      omega

/-- Every phrase that the grammar allows is found again. -/
theorem recovered {l : Nat} {x : Phrase l} (hl : l ≤ 4) (hwell : x.WellKinded)
    (hplain : x.PlainBases) : Recovered tokens x := by
  -- by induction on the phrase; the bound goes down where a rule calls those of a deeper level
  induction x with
  | identifier id =>
    intro limit
    cases limit with
    | zero => exact recovers_zero _ _
    | succ limit => exact identifier_recovers hwell
  | numeral token =>
    intro limit
    cases limit with
    | zero => exact recovers_zero _ _
    | succ limit => exact numeral_recovers hwell
  | parens opening body closing ih =>
    obtain ⟨hopening, hbody, hclosing⟩ := hwell
    intro limit
    cases limit with
    | zero => exact recovers_zero _ _
    | succ limit =>
      exact parens_recovers hopening ((ih (by omega) hbody hplain).recovers limit) hclosing
  | unary op operand ih =>
    obtain ⟨hop, hoperand⟩ := hwell
    intro limit
    cases limit with
    | zero => exact recovers_zero _ _
    | succ limit => exact unary_recovers hop ((ih (by omega) hoperand hplain).recovers limit)
  | primary inner ih =>
    intro limit
    cases limit with
    | zero => exact recovers_zero _ _
    | succ limit => exact primary_recovers ((ih (by omega) hwell hplain).recovers (limit + 1))
  | power base op exponent ihbase ihexponent =>
    obtain ⟨hbase, hop, hexponent⟩ := hwell
    obtain ⟨hunary, hplainBase, hplainExponent⟩ := hplain
    intro limit
    cases limit with
    | zero => exact recovers_zero _ _
    | succ limit =>
      exact power_recovers hunary hop ((ihbase (by omega) hbase hplainBase).recovers (limit + 1))
        ((ihexponent (by omega) hexponent hplainExponent).recovers limit)
  | single operand ih => exact single_recovered (ih (by omega) hwell hplain)
  | chain left op right ihleft ihright =>
    obtain ⟨hleft, hop, hright⟩ := hwell
    obtain ⟨hplainLeft, hplainRight⟩ := hplain
    exact chain_recovered (by omega) hop (ihleft hl hleft hplainLeft)
      (ihright (by omega) hright hplainRight)

-- ---------------------------------------------------------------------------
-- Statements and whole derivations
-- ---------------------------------------------------------------------------

/-- An expression is found again where no operator goes on behind it. -/
theorem exp_recovers {x : Exp} (hwell : x.WellKinded) (hplain : x.PlainBases)
    (h : progress.Before tokens (x.tokens ++ rest))
    (hstop : ∀ token ∈ rest.head?, token.kind ∉ Kind.binaryOperators) :
    ∃ reached, exp tokens progress = (.ok x, reached) ∧ reached.Before tokens rest := by
  have hlength := h.length_rest
  rw [← Kind.operatorsWithin_three, ← Phrase.continuations_eq x] at hstop
  exact (recovered (Nat.le_refl 4) hwell hplain).recovers (tokens.size - progress.pos + 1) h
    (by omega) hstop

/-- And so is a statement. -/
theorem clause_recovers {x : Clause} (hwell : x.WellKinded) (hplain : x.exp.PlainBases)
    (h : progress.Before tokens (x.tokens ++ rest))
    (hstop : ∀ token ∈ rest.head?, token.kind ∉ Kind.binaryOperators) :
    ∃ reached, clause tokens progress = (.ok x, reached) ∧ reached.Before tokens rest := by
  cases x with
  | declare keyword id eq exp =>
    obtain ⟨hkeyword, hid, heq, hexp⟩ := hwell
    have hname := h.step (by rw [hkeyword]; decide)
    have hassignment := hname.step (by rw [hid]; decide)
    have hexpression := hassignment.step (by rw [heq]; decide)
    obtain ⟨reached, hresult, hreached⟩ := exp_recovers hexp hplain hexpression hstop
    refine ⟨reached, ?_, hreached⟩
    rw [clause, bind_apply, current_eq h]
    simp only [hkeyword, declare, bind_apply, expect_of_eq h hkeyword (by decide),
      expect_of_eq hname hid (by decide), expect_of_eq hassignment heq (by decide), hresult]
    rfl
  | assign id eq exp =>
    obtain ⟨hid, heq, hexp⟩ := hwell
    have hassignment := h.step (by rw [hid]; decide)
    have hexpression := hassignment.step (by rw [heq]; decide)
    obtain ⟨reached, hresult, hreached⟩ := exp_recovers hexp hplain hexpression hstop
    refine ⟨reached, ?_, hreached⟩
    rw [clause, bind_apply, current_eq h]
    simp only [hid, assign, bind_apply, expect_of_eq h hid (by decide),
      expect_of_eq hassignment heq (by decide), hresult]
    rfl
  | print keyword exp =>
    obtain ⟨hkeyword, hexp⟩ := hwell
    have hexpression := h.step (by rw [hkeyword]; decide)
    obtain ⟨reached, hresult, hreached⟩ := exp_recovers hexp hplain hexpression hstop
    refine ⟨reached, ?_, hreached⟩
    rw [clause, bind_apply, current_eq h]
    simp only [hkeyword, print, bind_apply, expect_of_eq h hkeyword (by decide), hresult]
    rfl

/-- Nothing that begins a statement goes on with an expression. -/
theorem notMem_binaryOperators_of_start {kind : Kind} (h : kind ∈ Kind.statementStarts) :
    kind ∉ Kind.binaryOperators := by
  revert h
  cases kind <;> decide

/-- Behind a statement comes another one, or what comes behind all of them. -/
theorem head?_behind_clause {xs : List Clause} (hwell : ∀ x ∈ xs, x.WellKinded)
    (hstop : ∀ token ∈ rest.head?, token.kind ∉ Kind.binaryOperators) :
    ∀ token ∈ (xs.flatMap Clause.tokens ++ rest).head?, token.kind ∉ Kind.binaryOperators := by
  cases xs with
  | nil => exact hstop
  | cons x xs =>
    obtain ⟨start, tail, htokens, hstart⟩ := Clause.exists_start (hwell x (.head _))
    rw [List.flatMap_cons, htokens]
    rintro _ ⟨⟩
    exact notMem_binaryOperators_of_start hstart

/-- Statements are found again one after the other, up to what begins none. -/
theorem clauses_recovers {xs : List Clause} (limit : Nat)
    (hwell : ∀ x ∈ xs, x.WellKinded) (hplain : ∀ x ∈ xs, x.exp.PlainBases)
    (h : progress.Before tokens (xs.flatMap Clause.tokens ++ rest))
    (hlimit : (xs.flatMap Clause.tokens ++ rest).length ≤ limit)
    (hstop : ∀ token ∈ rest.head?, token.kind ∉ Kind.binaryOperators)
    (hstart : ∀ token ∈ rest.head?, token.kind ∉ Kind.statementStarts) :
    ∃ reached, clauses limit tokens progress = (.ok xs, reached) ∧
      reached.Before tokens rest := by
  -- by induction on the statements; each of them ends where the next one begins
  induction xs generalizing progress limit with
  | nil =>
    obtain ⟨token, later, rfl⟩ := h.exists_cons
    cases limit with
    | zero => exact absurd hlimit (Nat.not_succ_le_zero _)
    | succ limit =>
      rw [clauses, bind_apply, current_eq h]
      simp only [hstart token rfl, if_false]
      exact ⟨progress, rfl, h⟩
  | cons x xs ih =>
    have hx := hwell x (.head _)
    have hxs := fun y hy => hwell y (.tail _ hy)
    obtain ⟨start, tail, htokens, hkind⟩ := Clause.exists_start hx
    have hpos := List.length_pos_iff.mpr x.tokens_ne_nil
    rw [List.flatMap_cons, List.append_assoc] at h hlimit
    rw [List.length_append] at hlimit
    have hnext :
        progress.Before tokens (start :: (tail ++ (xs.flatMap Clause.tokens ++ rest))) := by
      rw [htokens] at h
      exact h
    obtain ⟨reached, heq, hreached⟩ :=
      clause_recovers hx (hplain x (.head _)) h (head?_behind_clause hxs hstop)
    cases limit with
    | zero => omega
    | succ limit =>
      obtain ⟨reached', heq', hreached'⟩ :=
        ih limit hxs (fun y hy => hplain y (.tail _ hy)) hreached (by omega)
      rw [clauses, bind_apply, current_eq hnext]
      simp only [hkind, if_true, bind_apply, heq, heq']
      exact ⟨_, rfl, hreached'⟩

/-- The rules find a derivation again before its tokens and an end token. -/
theorem program_recovers {derivation : Derivation} {last : Token} {later : List Token}
    (hne : derivation.clauses ≠ []) (hwell : derivation.WellKinded)
    (hplain : derivation.PlainBases) (hlast : last.kind = .endOfInput)
    (h : progress.Before tokens (derivation.tokens ++ last :: later)) :
    ∃ reached, program tokens progress = (.ok derivation, reached) := by
  obtain ⟨xs⟩ := derivation
  cases xs with
  | nil => exact absurd rfl hne
  | cons x xs =>
    have hxs := fun y hy => hwell y (.tail _ hy)
    have hstop : ∀ token ∈ (last :: later).head?, token.kind ∉ Kind.binaryOperators := by
      rintro _ ⟨⟩
      rw [hlast]
      decide
    have hstart : ∀ token ∈ (last :: later).head?, token.kind ∉ Kind.statementStarts := by
      rintro _ ⟨⟩
      rw [hlast]
      decide
    rw [Derivation.tokens, List.flatMap_cons, List.append_assoc] at h
    obtain ⟨reached, heq, hreached⟩ :=
      clause_recovers (hwell x (.head _)) (hplain x (.head _)) h (head?_behind_clause hxs hstop)
    have hlength := hreached.length_rest
    obtain ⟨reached', heq', hreached'⟩ := clauses_recovers (tokens.size - reached.pos + 1) hxs
      (fun y hy => hplain y (.tail _ hy)) hreached (by omega) hstop hstart
    -- the miss of all beginnings comes before the end token is looked for, and leaves it there
    have hend := expect_endOfInput (hreached'.missAll Kind.statementStarts) hlast
    refine ⟨reached'.missAll Kind.statementStarts, ?_⟩
    rw [program, bind_apply, heq]
    simp only [reach_bind]
    rw [bind_apply, heq']
    simp only [miss_bind]
    rw [bind_apply, hend]
    rfl

end Rule

end Reckon
