import Reckon.Proofs.Onward

/-!
# Reckon — what a rule takes

A rule that matches has taken the tokens of what it matched and no other, and stops at a token that
would not have made it longer. A rule that stops with a fault stands at the token that the fault is
about. Either way every token from where it began to where it stands was taken once. This holds from
any place that calls before it have led to, with whatever these have missed there.

How the rules come out where they can begin is known (`Outcome`). A rule for one way to make a
primary or a statement can also be called where it cannot begin, and then it stops there at once.

* `takes_eq_range'` — which tokens the moves of a rule take.
* `Reader.lands` — how the rules come out, before the rest of a list.
* `reader_consumes` — the same in terms of places in the list.
-/

namespace Reckon

-- ---------------------------------------------------------------------------
-- The tokens that moves take
-- ---------------------------------------------------------------------------

namespace Progress

/-- The indices of the tokens that the moves take, in order. -/
def takes (progress : Progress) : List Move → List Nat
  | [] => []
  | .take :: later => progress.pos :: progress.step.takes later
  | .miss kind :: later => (progress.miss kind).takes later

/-- One token is taken after the other. -/
theorem takes_eq_range' (progress : Progress) (moves : List Move) :
    progress.takes moves = List.range' progress.pos (moves.count .take) := by
  induction moves generalizing progress with
  | nil => rfl
  | cons move moves ih =>
    cases move with
    | take =>
      rw [takes, ih, List.count_cons_self, List.range'_succ]
      rfl
    | miss kind => rw [takes, ih, progress.miss_pos, List.count_cons_of_ne (by simp)]

/-- Moves take all tokens from where they begin to where they end, each once. -/
theorem takes_eq (progress : Progress) (moves : List Move) :
    progress.takes moves =
      List.range' progress.pos ((progress.after moves).pos - progress.pos) := by
  rw [takes_eq_range', pos_after, Nat.add_sub_cancel_left]

variable {tokens : Array Token} {progress reached : Progress} {front rest : List Token}

/-- What is taken off the front of a rest lies between the two places. -/
theorem Before.between (h : progress.Before tokens (front ++ rest))
    (hreached : reached.Before tokens rest) :
    progress.pos ≤ reached.pos ∧
      (tokens.toList.drop progress.pos).take (reached.pos - progress.pos) = front := by
  have hlength := h.length_rest
  have hpos := hreached.length_pos
  have hrest := hreached.length_rest
  rw [List.length_append] at hlength
  have hfront : reached.pos - progress.pos = front.length := by omega
  rw [h.left, hfront]
  exact ⟨by omega, List.take_left⟩

end Progress

namespace Rule

variable {α : Type} {tokens : Array Token} {rest later : List Token} {yield : α → List Token}
  {stops : α → List Kind}

-- ---------------------------------------------------------------------------
-- Where a rule lands
-- ---------------------------------------------------------------------------

/-- The rule took the tokens of what it matched and stands before a token that would not go on with
it, or it took some tokens and stands before the one that its fault is about. -/
inductive Landing (tokens : Array Token) (rest : List Token) (yield : α → List Token)
    (stops : α → List Kind) : Except Stop α × Progress → Prop
  | matched {a : α} {next : Token} {later : List Token} {reached : Progress}
      (split  : rest = yield a ++ next :: later)
      (before : reached.Before tokens (next :: later))
      (stop   : next.kind ∉ stops a) :
      Landing tokens rest yield stops (.ok a, reached)
  | stuck (taken : List Token) {found : Token} {later : List Token} {reached : Progress}
      (split  : rest = taken ++ found :: later)
      (before : reached.Before tokens (found :: later))
      (there  : reached.furthest = reached.pos) :
      Landing tokens rest yield stops (.error (.fault (reached.fault found)), reached)

/-- Wherever the rule begins, it lands so. -/
def Lands (tokens : Array Token) (rule : Rule α) (yield : α → List Token)
    (stops : α → List Kind) : Prop :=
  ∀ {progress : Progress} {rest : List Token}, progress.Before tokens rest →
    Landing tokens rest yield stops (rule tokens progress)

/-- What was taken to success has landed. -/
theorem Taken.landing {a : α} {reached : Progress}
    (h : Taken tokens rest (yield a) (stops a) later reached) :
    Landing tokens rest yield stops (.ok a, reached) := by
  obtain ⟨next, later, rfl⟩ := h.before.exists_cons
  exact .matched h.split h.before (h.stop next rfl)

/-- A known outcome tells where the rule lands. -/
theorem Outcome.landing {stage : Stage} {stale : List Kind} {post : α → Progress → Prop}
    {result : Except Stop α × Progress} (h : Outcome tokens stage stale rest post result)
    (hpost : ∀ a reached, post a reached →
      ∃ later, Taken tokens rest (yield a) (stops a) later reached) :
    Landing tokens rest yield stops result := by
  match result with
  | (.ok a, reached) =>
    obtain ⟨later, htaken⟩ := hpost a reached h
    exact htaken.landing
  | (.error reason, reached) =>
    obtain @⟨taken, _, later, found, _, hsplit, hbefore, hthere, -, -, -, -⟩ := h
    exact .stuck taken hsplit hbefore hthere

/-- A rule that begins with a token of one of some kinds stops at once where there is none. -/
theorem lands_of_first {kinds : List Kind} {next : Token → Rule α} (hne : kinds ≠ [])
    (hnext : ∀ {progress : Progress} {token : Token} {later : List Token},
      progress.Before tokens (token :: later) → token.kind ∈ kinds →
      Landing tokens (token :: later) yield stops ((expectAny kinds >>= next) tokens progress)) :
    Lands tokens (expectAny kinds >>= next) yield stops := by
  intro progress rest h
  obtain ⟨token, later, rfl⟩ := h.exists_cons
  by_cases hmem : token.kind ∈ kinds
  · exact hnext h hmem
  · rw [bind_apply, expectAny_of_notMem h hmem hne]
    exact .stuck [] rfl (h.missAll kinds) (Progress.missAll_furthest h.behind hne)

-- ---------------------------------------------------------------------------
-- Phrases and statements
-- ---------------------------------------------------------------------------

/-- A phrase of a layer of factors or chains is not followed by an operator that binds it. -/
theorem lands_phrase {n : Nat} (hn : n ≤ 3) :
    Lands tokens (phrase n) Phrase.tokens fun _ => Kind.operatorsWithin n := by
  intro progress rest h
  refine (phrase_reads hn 0 h (Nat.le_refl _)).landing fun x reached hpost => ?_
  obtain ⟨-, -, later, htaken⟩ := hpost
  -- what would go on with a phrase are the operators up to its layer
  rw [Phrase.continuations_eq] at htaken
  exact ⟨later, htaken⟩

/-- A unary operation has taken all exponents that follow. -/
def unaryStops (x : Primary) : List Kind := if x.isUnary then [.starStar] else []

/-- A phrase that was looked for has landed, or stopped where its stage says. -/
theorem TakenPhrase.landing {result : Except Stop Primary × Progress} {stage : Stage}
    (stale : List Kind) (h : Outcome tokens stage stale rest (TakenPhrase tokens rest) result) :
    Landing tokens rest Phrase.tokens unaryStops result := by
  refine Outcome.landing h fun x reached hpost => ?_
  obtain ⟨-, -, later, htaken⟩ := hpost
  rw [Phrase.continuations_primary] at htaken
  exact ⟨later, htaken⟩

/-- A primary can be followed by all that no unary operand takes. -/
theorem lands_anyPrimary : Lands tokens anyPrimary Phrase.tokens unaryStops := by
  intro progress rest h
  have hexp : Reads tokens rest.length exp := phrase_reads (Nat.le_refl 3)
  have hfactor : Reads tokens rest.length factor := phrase_reads (Nat.zero_le 3)
  exact TakenPhrase.landing _ (primary_reads hexp hfactor 0 h (Nat.le_succ _))

/-- A primary made of one token. -/
theorem lands_single {kind : Kind} (make : Token → Primary) (hkind : kind ≠ .endOfInput)
    (htokens : ∀ token, (make token).tokens = [token])
    (hplain : ∀ token, (make token).isUnary = false) :
    Lands tokens (do return make (← expect kind)) Phrase.tokens unaryStops := by
  refine lands_of_first (List.cons_ne_nil _ _) fun {progress token later} h hmem => ?_
  have hend : token.kind ≠ .endOfInput := by
    rw [List.mem_singleton.mp hmem]
    exact hkind
  rw [bind_apply, expectAny_of_mem h hmem hend]
  have htaken := Taken.one h hend
  rw [← htokens token] at htaken
  -- one token is no unary operation, so nothing is excluded behind it
  have hstops : unaryStops (make token) = [] := by
    rw [unaryStops, hplain token]
    rfl
  rw [← hstops] at htaken
  exact htaken.landing

theorem lands_identifier : Lands tokens identifier Phrase.tokens unaryStops :=
  lands_single .identifier (by decide) (fun _ => rfl) fun _ => rfl

theorem lands_numeral : Lands tokens numeral Phrase.tokens unaryStops :=
  lands_single .numeral (by decide) (fun _ => rfl) fun _ => rfl

/-- The rules of the primaries land as the choice among them does, since a token in front picks
one. -/
theorem lands_parens : Lands tokens (parens exp) Phrase.tokens unaryStops := by
  refine lands_of_first (List.cons_ne_nil _ _) fun {progress token later} h hmem => ?_
  have hexp : Reads tokens later.length exp := phrase_reads (Nat.le_refl 3)
  -- the stage in front does not matter for where the rule comes to stand
  exact TakenPhrase.landing []
    (parens_outcome hexp 0 h (List.mem_singleton.mp hmem) (Nat.le_refl _))

theorem lands_unary : Lands tokens (unary factor) Phrase.tokens unaryStops := by
  refine lands_of_first (List.cons_ne_nil _ _) fun {progress token later} h hmem => ?_
  have hfactor : Reads tokens later.length factor := phrase_reads (Nat.zero_le 3)
  exact TakenPhrase.landing [] (unary_outcome hfactor 0 h hmem (Nat.le_refl _))

/-- So it is with a statement. -/
theorem TakenClause.landing {result : Except Stop Clause × Progress} {stage : Stage}
    (stale : List Kind) (h : Outcome tokens stage stale rest (TakenClause tokens rest) result) :
    Landing tokens rest Clause.tokens (fun _ => Kind.binaryOperators) result :=
  Outcome.landing h fun _ _ hpost => hpost.2.2

/-- A statement ends where no operator goes on. -/
theorem lands_clause : Lands tokens clause Clause.tokens fun _ => Kind.binaryOperators :=
  fun h => TakenClause.landing _ (clause_outcome h)

theorem lands_declare : Lands tokens declare Clause.tokens fun _ => Kind.binaryOperators :=
  lands_of_first (List.cons_ne_nil _ _) fun h hmem =>
    TakenClause.landing [] (declare_outcome h (List.mem_singleton.mp hmem))

theorem lands_assign : Lands tokens assign Clause.tokens fun _ => Kind.binaryOperators :=
  lands_of_first (List.cons_ne_nil _ _) fun h hmem =>
    TakenClause.landing [] (assign_outcome h (List.mem_singleton.mp hmem))

theorem lands_print : Lands tokens print Clause.tokens fun _ => Kind.binaryOperators :=
  lands_of_first (List.cons_ne_nil _ _) fun h hmem =>
    TakenClause.landing [] (print_outcome h (List.mem_singleton.mp hmem))

-- ---------------------------------------------------------------------------
-- Rules from any place
-- ---------------------------------------------------------------------------

/-- The rules for phrases and statements, with the tokens of what they match in order, and the kinds
that are not found right behind it. -/
inductive Reader : {α : Type} → Rule α → (α → List Token) → (α → List Kind) → Prop
  | exp : Reader exp Phrase.tokens fun _ =>
      [.starStar, .star, .slash, .percent, .plus, .dash, .equals]
  | sum : Reader sum Phrase.tokens fun _ => [.starStar, .star, .slash, .percent, .plus, .dash]
  | term : Reader term Phrase.tokens fun _ => [.starStar, .star, .slash, .percent]
  | factor : Reader factor Phrase.tokens fun _ => [.starStar]
  | anyPrimary : Reader anyPrimary Phrase.tokens unaryStops
  | identifier : Reader identifier Phrase.tokens unaryStops
  | numeral : Reader numeral Phrase.tokens unaryStops
  | parens : Reader (parens exp) Phrase.tokens unaryStops
  | unary : Reader (unary factor) Phrase.tokens unaryStops
  | clause : Reader clause Clause.tokens fun _ =>
      [.starStar, .star, .slash, .percent, .plus, .dash, .equals]
  | declare : Reader declare Clause.tokens fun _ =>
      [.starStar, .star, .slash, .percent, .plus, .dash, .equals]
  | assign : Reader assign Clause.tokens fun _ =>
      [.starStar, .star, .slash, .percent, .plus, .dash, .equals]
  | print : Reader print Clause.tokens fun _ =>
      [.starStar, .star, .slash, .percent, .plus, .dash, .equals]

/-- Readers are rules that the matching of a list offers. -/
theorem Reader.offered {rule : Rule α} (h : Reader rule yield stops) : Offered rule := by
  cases h <;> constructor

/-- The rules for phrases and statements land so before the rest of any list with an end token. -/
theorem Reader.lands {rule : Rule α} (h : Reader rule yield stops) :
    Lands tokens rule yield stops := by
  cases h with
  | exp => exact lands_phrase (Nat.le_refl 3)
  | sum => exact lands_phrase (show 2 ≤ 3 by decide)
  | term => exact lands_phrase (show 1 ≤ 3 by decide)
  | factor => exact lands_phrase (Nat.zero_le 3)
  | anyPrimary => exact lands_anyPrimary
  | identifier => exact lands_identifier
  | numeral => exact lands_numeral
  | parens => exact lands_parens
  | unary => exact lands_unary
  | clause => exact lands_clause
  | declare => exact lands_declare
  | assign => exact lands_assign
  | print => exact lands_print

end Rule

/-- Between the two places stand the tokens `taken`, and at the second one a token of none of the
kinds `stops`. -/
structure Progress.Passed (tokens : List Token) (progress reached : Progress)
    (taken : List Token) (stops : List Kind) : Prop where
  pos_le  : progress.pos ≤ reached.pos
  between : (tokens.drop progress.pos).take (reached.pos - progress.pos) = taken
  stop    : ∃ next, tokens[reached.pos]? = some next ∧ next.kind ∉ stops

/-- The fault is the one that is to be told at the second place, and is about the token there. -/
structure Progress.Failed (tokens : List Token) (progress reached : Progress) (fault : Fault) :
    Prop where
  pos_le  : progress.pos ≤ reached.pos
  there   : reached.furthest = reached.pos
  failure : Rule.failure tokens.toArray reached = (.ok fault, reached)
  found   : ∃ found, tokens[reached.pos]? = some found ∧
              fault = ⟨.unexpected (reached.expected.map Kind.describe) found.describe,
                found.span.start⟩

namespace Rule

variable {α : Type} {tokens : List Token} {progress reached : Progress} {rest : List Token}
  {yield : α → List Token} {stops : α → List Kind}

/-- A rule that landed has passed over the tokens of what it returns. -/
theorem Landing.passed {a : α} (h : progress.Before tokens.toArray rest)
    (hlanding : Landing tokens.toArray rest yield stops (.ok a, reached)) :
    progress.Passed tokens reached (yield a) (stops a) := by
  cases hlanding with
  | matched hsplit hbefore hstop =>
    rw [hsplit] at h
    obtain ⟨hle, hbetween⟩ := h.between hbefore
    have hnext := hbefore.getElem?_pos
    rw [List.getElem?_toArray] at hnext
    exact ⟨hle, hbetween, _, hnext, hstop⟩

/-- A rule that did not land failed at the token in front of it. -/
theorem Landing.failed {stop : Stop} (h : progress.Before tokens.toArray rest)
    (hlanding : Landing tokens.toArray rest yield stops (.error stop, reached)) :
    ∃ fault, stop = .fault fault ∧ progress.Failed tokens reached fault := by
  cases hlanding with
  | stuck taken hsplit hbefore hthere =>
    rw [hsplit] at h
    obtain ⟨hle, -⟩ := h.between hbefore
    have hfound := hbefore.getElem?_pos
    obtain ⟨found, hfurthest, hfailure⟩ := failure_eq hbefore
    -- the furthest token is the one in front, so both tell the same fault
    rw [hthere, hfound, Option.some.injEq] at hfurthest
    rw [List.getElem?_toArray] at hfound
    exact ⟨_, rfl, hle, hthere, hfurthest ▸ hfailure, _, hfound, rfl⟩

end Rule

/--
**What a rule takes.** On a list with an end token, and wherever earlier calls have led to, a rule
for phrases or statements that matches has passed the tokens of what it matched, in order, and
stands before a token that would not have made it longer. If it fails, its fault is the one to be
told where it stands, about the token there. Either way it has taken the tokens in between one after
the other, and no other.
-/
theorem reader_consumes {tokens : List Token}
    (hended : ∃ last, tokens.getLast? = some last ∧ last.kind = .endOfInput)
    {earlier : List Move} {progress : Progress} (huse : Rule.Use tokens.toArray earlier progress)
    {α : Type} {rule : Rule α} {yield : α → List Token} {stops : α → List Kind}
    (hreader : Rule.Reader rule yield stops) :
    (∀ a reached, rule tokens.toArray progress = (.ok a, reached) →
      progress.Passed tokens reached (yield a) (stops a)) ∧
    (∀ stop reached, rule tokens.toArray progress = (.error stop, reached) →
      ∃ fault, stop = .fault fault ∧ progress.Failed tokens reached fault) ∧
    (∃ moves, Rule.Makes tokens.toArray rule progress moves (rule tokens.toArray progress)) ∧
    ∀ moves, Rule.Makes tokens.toArray rule progress moves (rule tokens.toArray progress) →
      progress.takes moves = List.range' progress.pos
        ((rule tokens.toArray progress).2.pos - progress.pos) := by
  have hinside := huse.inside hended (List.prefix_refl earlier)
  rw [← huse.eq_after] at hinside
  -- the earlier calls have left the position inside the list, so the rule stands before a rest
  obtain ⟨rest, hbefore⟩ := hinside.before
  have hlanding := hreader.lands hbefore
  refine ⟨fun a reached h => ?_, fun stop reached h => ?_, ?_, fun moves hmakes => ?_⟩
  · rw [h] at hlanding
    exact hlanding.passed hbefore
  · rw [h] at hlanding
    exact hlanding.failed hbefore
  · exact hreader.offered.traceable tokens.toArray progress
  -- where the moves lead is where the rule has come to, and each take is one position
  · rw [hmakes.reached, Progress.takes_eq]

/-- On `1 ** )`, after a keyword was looked for in vain: a primary is passed, and a factor fails at
the parenthesis, where an operand was due. -/
theorem reader_consumes_of_power :
    ∃ (tokens : List Token) (progress behind stuck : Progress) (one : Primary) (fault : Fault),
      tokens.map Token.kind = [.number, .starStar, .closeParen, .endOfInput] ∧
      (∃ last, tokens.getLast? = some last ∧ last.kind = .endOfInput) ∧
      Rule.Use tokens.toArray [.miss .printWord] progress ∧
      (Rule.anyPrimary tokens.toArray progress = (.ok one, behind) ∧ behind.pos = 1 ∧
        progress.Passed tokens behind one.tokens (Rule.unaryStops one)) ∧
      (Rule.factor tokens.toArray progress = (.error (.fault fault), stuck) ∧ stuck.pos = 2 ∧
        progress.Failed tokens stuck fault) := by
  let tokens : List Token :=
    [⟨.number, "1", .ofLength "a" 0 1⟩, ⟨.starStar, "**", .ofLength "a" 2 2⟩,
      ⟨.closeParen, ")", .ofLength "a" 5 1⟩, .endOfInput ⟨6, "a"⟩]
  have hended : ∃ last, tokens.getLast? = some last ∧ last.kind = .endOfInput := ⟨_, rfl, rfl⟩
  have huse : Rule.Use tokens.toArray [.miss .printWord] ⟨0, 0, [.printWord], [⟨0, .printWord⟩]⟩ :=
    .call .start (.miss .printWord) (.miss [.printWord] .start)
  obtain ⟨hmatched, -⟩ := reader_consumes hended huse .anyPrimary
  obtain ⟨-, hstuck, -⟩ := reader_consumes hended huse .factor
  have hpassed := hmatched _ _ rfl
  obtain ⟨fault, hfault, hfailed⟩ := hstuck _ _ rfl
  exact ⟨tokens, _, _, _, _, fault, rfl, hended, huse, ⟨rfl, rfl, hpassed⟩,
    ⟨congrArg (fun stop => (Except.error stop, _)) hfault, rfl, hfailed⟩⟩

end Reckon
