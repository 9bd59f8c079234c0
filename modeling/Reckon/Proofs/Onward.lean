import Reckon.Proofs.Account

/-!
# Reckon — moving on

No rule ever moves back, also not one that stops in the middle of a phrase, and none comes to stand
behind the end of the input. A rule of the grammar does more than that: where it matches, it has
taken a token at least. This needs no induction over the depth of phrases. Whatever an operand is
made of, the rule takes an operator, a parenthesis or a keyword for itself, or ends with the operand
that it began with.

* `Traceable.pos_le`, `Traceable.inside` — what is kept by every rule, however it comes out.
* `OfGrammar.forward` — the rules of the grammar move on.
-/

namespace Reckon

/-- Every token that is taken counts, and nothing else does. -/
theorem Progress.pos_after (progress : Progress) (moves : List Move) :
    (progress.after moves).pos = progress.pos + moves.count .take := by
  induction moves generalizing progress with
  | nil => rfl
  | cons move moves ih =>
    show ((progress.move move).after moves).pos = _
    rw [ih]
    cases move with
    | take =>
      rw [List.count_cons_self, Nat.add_comm _ 1, ← Nat.add_assoc]
      rfl
    | miss kind =>
      rw [List.count_cons_of_ne (by simp)]
      exact congrArg (· + _) (progress.miss_pos kind)

namespace Rule

variable {α β : Type}

-- ---------------------------------------------------------------------------
-- Never back, and never past the end
-- ---------------------------------------------------------------------------

namespace Traceable

variable {rule : Rule α} {tokens : Array Token} {progress : Progress}

/-- A rule never moves back. -/
theorem pos_le (h : rule.Traceable) (tokens : Array Token) (progress : Progress) :
    progress.pos ≤ (rule tokens progress).2.pos := by
  obtain ⟨moves, hmakes⟩ := h tokens progress
  rw [hmakes.reached, Progress.pos_after]
  exact Nat.le_add_right _ _

/-- A rule that begins inside the list ends inside it. -/
theorem inside (h : rule.Traceable) (hinside : progress.Inside tokens) :
    (rule tokens progress).2.Inside tokens := by
  obtain ⟨moves, hmakes⟩ := h tokens progress
  rw [hmakes.reached]
  exact hmakes.inside hinside (List.prefix_refl moves)

end Traceable

-- ---------------------------------------------------------------------------
-- Rules that move on
-- ---------------------------------------------------------------------------

/-- Where the rule matches, it has taken a token. -/
def Forward (rule : Rule α) : Prop :=
  ∀ tokens progress a reached, rule tokens progress = (.ok a, reached) →
    progress.pos < reached.pos

/-- A match of one rule after the other is a match of both. -/
theorem bind_eq_ok {rule : Rule α} {next : α → Rule β} {tokens : Array Token}
    {progress reached : Progress} {b : β} (h : (rule >>= next) tokens progress = (.ok b, reached)) :
    ∃ a between, rule tokens progress = (.ok a, between) ∧
      next a tokens between = (.ok b, reached) := by
  rw [bind_apply] at h
  match hrule : rule tokens progress with
  | (.ok a, between) =>
    rw [hrule] at h
    exact ⟨a, between, rfl, h⟩
  | (.error reason, between) =>
    rw [hrule] at h
    exact absurd (congrArg Prod.fst h) (by simp)

/-- What goes forward at first has gone forward, whatever follows it. -/
theorem Forward.bind {rule : Rule α} {next : α → Rule β} (hrule : rule.Forward)
    (hnext : ∀ a, (next a).Traceable) : (rule >>= next).Forward := by
  intro tokens progress b reached h
  obtain ⟨a, between, hfirst, hsecond⟩ := bind_eq_ok h
  have hle := (hnext a).pos_le tokens between
  rw [hsecond] at hle
  exact Nat.lt_of_lt_of_le (hrule tokens progress a between hfirst) hle

/-- And so has what goes forward in the end. -/
theorem Forward.after {rule : Rule α} {next : α → Rule β} (hrule : rule.Traceable)
    (hnext : ∀ a, (next a).Forward) : (rule >>= next).Forward := by
  intro tokens progress b reached h
  obtain ⟨a, between, hfirst, hsecond⟩ := bind_eq_ok h
  have hle := hrule.pos_le tokens progress
  rw [hfirst] at hle
  exact Nat.lt_of_le_of_lt hle (hnext a tokens between b reached hsecond)

/-- A rule that never matches moves on wherever it does. -/
theorem forward_stop (reason : Stop) : (stop reason : Rule α).Forward :=
  fun _ _ _ _ h => absurd (congrArg Prod.fst h) (by simp [stop])

/-- A rule that only stops goes forward whenever it succeeds. -/
theorem forward_fail : (fail : Rule α).Forward :=
  .after traceable_failure fun fault => forward_stop (.fault fault)

theorem forward_reject (kinds : List Kind) : (reject kinds : Rule α).Forward :=
  .after (inherited_traceable.miss kinds) fun _ => forward_fail

/-- A token that is taken for itself is passed, unless it is the end of the input. -/
theorem accept_some {kinds : List Kind} (hend : .endOfInput ∉ kinds) {tokens : Array Token}
    {progress reached : Progress} {token : Token}
    (h : accept kinds tokens progress = (.ok (some token), reached)) : reached = progress.step := by
  rw [accept_apply] at h
  split at h
  · exact absurd (congrArg Prod.fst h) (by simp)
  · next found _ =>
    split at h
    · next hmem =>
      have hkind : found.kind ≠ .endOfInput := by
        -- the end of the input would be among the kinds, and it is not
        intro heq
        exact hend (heq ▸ hmem)
      rw [if_neg hkind] at h
      exact (congrArg Prod.snd h).symm
    · exact absurd (congrArg Prod.fst h) (by simp)

/-- A token that had to be there was taken, as long as it does not end the input. -/
theorem forward_expectAny {kinds : List Kind} (hend : .endOfInput ∉ kinds) :
    (expectAny kinds).Forward := by
  intro tokens progress token reached h
  -- what had to be there was looked for first, and then the rule stops or goes on
  obtain ⟨found, between, haccept, hfound⟩ := bind_eq_ok h
  cases found with
  | none =>
    have hle := (bounded_traceable.accept kinds).pos_le tokens progress
    rw [haccept] at hle
    exact Nat.lt_of_le_of_lt hle (forward_fail tokens between token reached hfound)
  | some found =>
    obtain rfl := accept_some hend haccept
    obtain rfl : progress.step = reached := congrArg Prod.snd hfound
    exact Nat.lt_succ_self _

theorem forward_expect {kind : Kind} (hend : kind ≠ .endOfInput) : (expect kind).Forward :=
  forward_expectAny (by simpa using hend.symm)

-- ---------------------------------------------------------------------------
-- The rules of the grammar move on
-- ---------------------------------------------------------------------------

theorem forward_identifier : identifier.Forward :=
  (forward_expect (by decide)).bind fun _ => bounded_traceable.pure _

theorem forward_numeral : numeral.Forward :=
  (forward_expect (by decide)).bind fun _ => bounded_traceable.pure _

/-- The parenthesis in front is taken, whatever is inside. -/
theorem forward_parens {exp : Rule Exp} (hexp : exp.Traceable) : (parens exp).Forward :=
  (forward_expect (by decide)).bind fun _ => hexp.bind fun _ =>
    (bounded_traceable.expectAny _).bind fun _ => bounded_traceable.pure _

/-- And so is a unary operator. -/
theorem forward_unary {factor : Rule Factor} (hfactor : factor.Traceable) :
    (unary factor).Forward :=
  (forward_expectAny (by decide)).bind fun _ => hfactor.bind fun _ => bounded_traceable.pure _

/-- Whichever kind of primary it is, it begins with a token that is taken. -/
theorem forward_primary {exp : Rule Exp} {factor : Rule Factor} (hexp : exp.Traceable)
    (hfactor : factor.Traceable) : (primary exp factor).Forward := by
  refine .after bounded_traceable.current fun token => ?_
  cases hkind : token.kind with
  | identifier => exact forward_identifier
  | number => exact forward_numeral
  | openParen => exact forward_parens hexp
  | dash => exact forward_unary hfactor
  | absWord => exact forward_unary hfactor
  | sqrtWord => exact forward_unary hfactor
  | _ => exact forward_reject _

/-- A factor has moved on with its base, whatever follows. -/
theorem forward_power {primary : Rule Primary} {factor : Rule Factor} (hprimary : primary.Forward)
    (hfactor : factor.Traceable) : (power primary factor).Forward := by
  refine hprimary.bind fun base => (bounded_traceable.accept _).bind fun op => ?_
  cases op with
  | none => exact bounded_traceable.pure _
  | some op => exact hfactor.bind fun _ => bounded_traceable.pure _

/-- A factor begins with a primary. -/
theorem forward_factorWithin (limit : Nat) : (factorWithin limit).Forward := by
  cases limit with
  | zero => exact forward_stop _
  | succ limit =>
    have hfactor := bounded_traceable.factorWithin limit
    exact forward_power (forward_primary (bounded_traceable.layer hfactor limit 3) hfactor) hfactor

/-- A chain has moved on with its first operand. -/
theorem forward_layer {factor : Rule Factor} (hforward : factor.Forward)
    (htraceable : factor.Traceable) (limit n : Nat) : (layer factor limit n).Forward := by
  induction n with
  | zero => exact hforward
  | succ n ih =>
    have hoperand := bounded_traceable.layer htraceable limit n
    exact ih.bind fun first => bounded_traceable.extend hoperand limit (.single first)

/-- And so does every phrase. -/
theorem forward_phrase (n : Nat) : (phrase n).Forward :=
  .after bounded_traceable.reach fun limit =>
    forward_layer (forward_factorWithin limit) (bounded_traceable.factorWithin limit) limit n

theorem forward_declare : declare.Forward :=
  (forward_expect (by decide)).bind fun _ => (bounded_traceable.expectAny _).bind fun _ =>
    (bounded_traceable.expectAny _).bind fun _ =>
      (bounded_traceable.phrase 3).bind fun _ => bounded_traceable.pure _

theorem forward_assign : assign.Forward :=
  (forward_expect (by decide)).bind fun _ => (bounded_traceable.expectAny _).bind fun _ =>
    (bounded_traceable.phrase 3).bind fun _ => bounded_traceable.pure _

theorem forward_print : print.Forward :=
  (forward_expect (by decide)).bind fun _ =>
    (bounded_traceable.phrase 3).bind fun _ => bounded_traceable.pure _

/-- A statement begins with a word or a name. -/
theorem forward_clause : clause.Forward := by
  refine .after bounded_traceable.current fun token => ?_
  cases hkind : token.kind with
  | letWord => exact forward_declare
  | printWord => exact forward_print
  | identifier => exact forward_assign
  | _ => exact forward_reject _

/-- A list begins with a statement, so to match it takes a token. -/
theorem forward_program : program.Forward :=
  forward_clause.bind fun _ => bounded_traceable.reach.bind fun limit =>
    (bounded_traceable.clauses limit).bind fun _ => (inherited_traceable.miss _).bind fun _ =>
      (bounded_traceable.expectAny _).bind fun _ => bounded_traceable.pure _

/-- The rules of the grammar: those for the layers of phrases, those for the single ways to make a
primary or a statement, those for whichever of these the next token begins, and the one for whole
lists. -/
inductive OfGrammar : {α : Type} → Rule α → Prop
  | exp : OfGrammar exp
  | sum : OfGrammar sum
  | term : OfGrammar term
  | factor : OfGrammar factor
  | anyPrimary : OfGrammar anyPrimary
  | identifier : OfGrammar identifier
  | numeral : OfGrammar numeral
  | parens : OfGrammar (parens exp)
  | unary : OfGrammar (unary factor)
  | clause : OfGrammar clause
  | declare : OfGrammar declare
  | assign : OfGrammar assign
  | print : OfGrammar print
  | program : OfGrammar program

/-- On any list and from any place, a rule of the grammar moves on where it matches. -/
theorem OfGrammar.forward {rule : Rule α} (h : OfGrammar rule) : rule.Forward := by
  cases h with
  | exp => exact forward_phrase 3
  | sum => exact forward_phrase 2
  | term => exact forward_phrase 1
  | factor => exact forward_phrase 0
  -- the operands of these are again rules that are only known not to move back
  | anyPrimary => exact forward_primary (bounded_traceable.phrase 3) (bounded_traceable.phrase 0)
  | identifier => exact forward_identifier
  | numeral => exact forward_numeral
  | parens => exact forward_parens (bounded_traceable.phrase 3)
  | unary => exact forward_unary (bounded_traceable.phrase 0)
  | clause => exact forward_clause
  | declare => exact forward_declare
  | assign => exact forward_assign
  | print => exact forward_print
  | program => exact forward_program

end Rule

end Reckon
