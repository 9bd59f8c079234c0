import Reckon.Proofs.Diagnosis
import Reckon.Proofs.Onward

/-!
# Reckon — who calls whom

The rules bound how deep they go by the tokens that are left. The grammar knows no such bound: its
rules call each other, and loop, as long as there is something to match. Here they are written down
that way (`Call.body`), with every call of another rule and every further round of a loop left open,
and it is shown that nothing is lost. A rule comes out as its body does, whatever the open calls are
taken to be, as long as they are right *where they are made*: at a place further on, or else for a
rule that is lower in the grammar. Calls made elsewhere could come out in any way, also never, so
there are none.

Of such calls there cannot be endlessly many, one from within the other. So the bounds never show,
and the rules are the only ones that the unbounded grammar describes.

* `Call.rule_eq_body` — a rule in terms of the calls that it makes.
* `Call.wellFounded_descends`, `Call.eq_rule_of_body` — calls come to an end, in only one way.
* `matchTokens_ends` — whole lists.
-/

namespace Reckon

-- ---------------------------------------------------------------------------
-- Places further on
-- ---------------------------------------------------------------------------

/-- Inside a list there is a token at the position. -/
theorem Progress.Inside.pos_lt {tokens : Array Token} {progress : Progress}
    (h : progress.Inside tokens) : progress.pos < tokens.size := by
  obtain ⟨rest, hbefore⟩ := h.before
  have hlength := hbefore.length_rest
  have hpos := hbefore.length_pos
  omega

/-- A place further on in the list. -/
structure Progress.Further (tokens : Array Token) (earlier later : Progress) : Prop where
  inside : later.Inside tokens
  pos    : earlier.pos < later.pos

/-- Further on than further on is further on. -/
theorem Progress.Further.trans {tokens : Array Token} {first second third : Progress}
    (h : first.Further tokens second) (h' : second.Further tokens third) :
    first.Further tokens third :=
  ⟨h'.inside, Nat.lt_trans h.pos h'.pos⟩

/-- No level has the end of the input among its operators. -/
theorem Level.endOfInput_notMem (level : Level) : .endOfInput ∉ level.operators := by
  cases level <;> decide

namespace Rule

variable {α β : Type} {tokens : Array Token} {progress reached : Progress}

/-- A rule that moves on comes to a place further on. -/
theorem Forward.further {rule : Rule α} (hforward : rule.Forward) (htraceable : rule.Traceable)
    (hinside : progress.Inside tokens) {a : α} (h : rule tokens progress = (.ok a, reached)) :
    progress.Further tokens reached := by
  have hreached := htraceable.inside hinside
  rw [h] at hreached
  exact ⟨hreached, hforward tokens progress a reached h⟩

/-- A token that had to be there was taken, so the rule is further on behind it. -/
theorem further_of_expectAny {kinds : List Kind} (hend : .endOfInput ∉ kinds)
    (hinside : progress.Inside tokens) {token : Token}
    (h : expectAny kinds tokens progress = (.ok token, reached)) :
    progress.Further tokens reached :=
  (forward_expectAny hend).further (bounded_traceable.expectAny kinds) hinside h

theorem further_of_expect {kind : Kind} (hend : kind ≠ .endOfInput)
    (hinside : progress.Inside tokens) {token : Token}
    (h : expect kind tokens progress = (.ok token, reached)) :
    progress.Further tokens reached :=
  further_of_expectAny (by simpa using hend.symm) hinside h

/-- So it is with a token that was there. -/
theorem further_of_accept {kinds : List Kind} (hend : .endOfInput ∉ kinds)
    (hinside : progress.Inside tokens) {token : Token}
    (h : accept kinds tokens progress = (.ok (some token), reached)) :
    progress.Further tokens reached := by
  have hreached := (bounded_traceable.accept kinds).inside hinside
  obtain rfl := accept_some hend h
  rw [h] at hreached
  exact ⟨hreached, Nat.lt_succ_self _⟩

/-- And with a statement. -/
theorem further_of_clause (hinside : progress.Inside tokens) {x : Clause}
    (h : clause tokens progress = (.ok x, reached)) : progress.Further tokens reached :=
  forward_clause.further (bounded_traceable.clause (bounded_traceable.phrase 3)) hinside h

-- ---------------------------------------------------------------------------
-- Rules whose calls are left open
-- ---------------------------------------------------------------------------

/-- One round of a loop: an operator and an operand make the chain longer, and then comes another
round. -/
def round {n : Nat} (operand : Rule (Phrase (n + 1)))
    (again : Phrase (n + 2) → Rule (Phrase (n + 2))) (left : Phrase (n + 2)) :
    Rule (Phrase (n + 2)) := do
  match ← accept (Phrase.chainLevel n).operators with
  | some op => again (.chain left op (← operand))
  | none => return left

/-- The statement that the next token begins. -/
def statement (exp : Rule Exp) : Rule Clause := do
  let token ← current
  match token.kind with
  | .letWord => do
    let keyword ← expect .letWord
    let id ← expect .identifier
    let eq ← expect .assignment
    return .declare keyword id eq (← exp)
  | .printWord => do
    let keyword ← expect .printWord
    return .print keyword (← exp)
  | .identifier => do
    let id ← expect .identifier
    let eq ← expect .assignment
    return .assign id eq (← exp)
  | _ => reject Kind.statementStarts

/-- A statement and those behind it, if the next token begins one. -/
def statements (clause : Rule Clause) (later : Rule (List Clause)) : Rule (List Clause) := do
  let token ← current
  if token.kind ∈ Kind.statementStarts then
    let first ← clause
    return first :: (← later)
  return []

/-- To extend a chain is one round, and then to extend it again. -/
theorem extend_succ {n : Nat} (operand : Rule (Phrase (n + 1))) (limit : Nat) :
    extend operand (limit + 1) = round operand (extend operand limit) := rfl

/-- What agrees in both of its parts agrees. -/
theorem bind_congr {rule rule' : Rule α} {next next' : α → Rule β}
    (hrule : rule tokens progress = rule' tokens progress)
    (hnext : ∀ a reached, rule tokens progress = (.ok a, reached) →
      next a tokens reached = next' a tokens reached) :
    (rule >>= next) tokens progress = (rule' >>= next') tokens progress := by
  rw [bind_apply, bind_apply, ← hrule]
  match h : rule tokens progress with
  | (.ok a, reached) => exact hnext a reached h
  | (.error reason, reached) => rfl

section

variable {exp exp' : Rule Exp} {factor factor' : Rule Factor}

/-- In parentheses a rule is called further on, so only what it does there matters. -/
theorem parens_congr (hinside : progress.Inside tokens)
    (hexp : ∀ later, progress.Further tokens later → exp tokens later = exp' tokens later) :
    parens exp tokens progress = parens exp' tokens progress :=
  bind_congr rfl fun _ _ hopening =>
    bind_congr (hexp _ (further_of_expect (by decide) hinside hopening)) fun _ _ _ => rfl

/-- And so is the operand of a unary operator. -/
theorem unary_congr (hinside : progress.Inside tokens)
    (hfactor : ∀ later, progress.Further tokens later →
      factor tokens later = factor' tokens later) :
    unary factor tokens progress = unary factor' tokens progress :=
  bind_congr rfl fun _ _ hop =>
    bind_congr (hfactor _ (further_of_expectAny (by decide) hinside hop)) fun _ _ _ => rfl

/-- A primary asks for others behind its first token only. -/
theorem primary_congr (hinside : progress.Inside tokens)
    (hexp : ∀ later, progress.Further tokens later → exp tokens later = exp' tokens later)
    (hfactor : ∀ later, progress.Further tokens later →
      factor tokens later = factor' tokens later) :
    primary exp factor tokens progress = primary exp' factor' tokens progress := by
  refine bind_congr rfl fun token reached hcurrent => ?_
  obtain rfl := current_stays hcurrent
  cases hkind : token.kind with
  | openParen => exact parens_congr hinside hexp
  | dash => exact unary_congr hinside hfactor
  | absWord => exact unary_congr hinside hfactor
  | sqrtWord => exact unary_congr hinside hfactor
  | _ => rfl

/-- A factor asks for its base at once, and for an exponent behind the operator only. -/
theorem power_congr {primary primary' : Rule Primary} (htraceable : primary.Traceable)
    (hinside : progress.Inside tokens)
    (hprimary : primary tokens progress = primary' tokens progress)
    (hfactor : ∀ later, progress.Further tokens later →
      factor tokens later = factor' tokens later) :
    power primary factor tokens progress = power primary' factor' tokens progress := by
  refine bind_congr hprimary fun base between hbase => bind_congr rfl fun op reached hop => ?_
  -- the base may take tokens, so the operator is looked for no earlier than where it began
  have hbetween := htraceable.inside hinside
  have hle := htraceable.pos_le tokens progress
  rw [hbase] at hbetween hle
  cases op with
  | none => rfl
  | some op =>
    have hfurther := further_of_accept (Level.endOfInput_notMem _) hbetween hop
    exact bind_congr (hfactor reached ⟨hfurther.inside, Nat.lt_of_le_of_lt hle hfurther.pos⟩)
      fun _ _ _ => rfl

/-- A round asks for its operand behind the operator, and for another round behind the operand. -/
theorem round_congr {n : Nat} {operand operand' : Rule (Phrase (n + 1))}
    {again again' : Phrase (n + 2) → Rule (Phrase (n + 2))} (htraceable : operand.Traceable)
    (hinside : progress.Inside tokens)
    (hoperand : ∀ later, progress.Further tokens later →
      operand tokens later = operand' tokens later)
    (hagain : ∀ longer later, progress.Further tokens later →
      again longer tokens later = again' longer tokens later) (left : Phrase (n + 2)) :
    round operand again left tokens progress = round operand' again' left tokens progress := by
  refine bind_congr rfl fun op between hop => ?_
  cases op with
  | none => rfl
  | some op =>
    have hfurther := further_of_accept (Level.endOfInput_notMem _) hinside hop
    refine bind_congr (hoperand between hfurther) fun right reached hright => hagain _ reached ?_
    have hreached := htraceable.inside hfurther.inside
    have hle := htraceable.pos_le tokens between
    rw [hright] at hreached hle
    -- the operator was taken, so the next round is further on even if the operand took nothing
    exact ⟨hreached, Nat.lt_of_lt_of_le hfurther.pos hle⟩

/-- And the expression of a statement. -/
theorem statement_congr (hinside : progress.Inside tokens)
    (hexp : ∀ later, progress.Further tokens later → exp tokens later = exp' tokens later) :
    statement exp tokens progress = statement exp' tokens progress := by
  refine bind_congr rfl fun token reached hcurrent => ?_
  obtain rfl := current_stays hcurrent
  cases hkind : token.kind with
  | letWord =>
    refine bind_congr rfl fun keyword first hkeyword => bind_congr rfl fun id second hid =>
      bind_congr rfl fun eq third heq => bind_congr (hexp third ?_) fun _ _ _ => rfl
    -- each of the tokens in front of the expression is a step forward
    have hfirst := further_of_expect (by decide) hinside hkeyword
    have hsecond := further_of_expect (by decide) hfirst.inside hid
    exact (hfirst.trans hsecond).trans (further_of_expect (by decide) hsecond.inside heq)
  | printWord =>
    exact bind_congr rfl fun keyword first hkeyword =>
      bind_congr (hexp first (further_of_expect (by decide) hinside hkeyword)) fun _ _ _ => rfl
  | identifier =>
    refine bind_congr rfl fun id first hid => bind_congr rfl fun eq second heq =>
      bind_congr (hexp second ?_) fun _ _ _ => rfl
    have hfirst := further_of_expect (by decide) hinside hid
    exact hfirst.trans (further_of_expect (by decide) hfirst.inside heq)
  | _ => rfl

/-- A statement is asked for at once, and others behind it. -/
theorem statements_congr {clause' : Rule Clause} {later later' : Rule (List Clause)}
    (hinside : progress.Inside tokens) (hclause : clause tokens progress = clause' tokens progress)
    (hlater : ∀ place, progress.Further tokens place → later tokens place = later' tokens place) :
    statements clause later tokens progress = statements clause' later' tokens progress := by
  refine bind_congr rfl fun token between hcurrent => ?_
  obtain rfl := current_stays hcurrent
  split
  · exact bind_congr hclause fun first reached hfirst =>
      bind_congr (hlater reached (further_of_clause hinside hfirst)) fun _ _ _ => rfl
  · rfl

end

-- ---------------------------------------------------------------------------
-- Bounds that play no part
-- ---------------------------------------------------------------------------

/-- Every round takes an operator, so a loop does not depend on a bound that is no less than what is
left. -/
theorem extend_congr {n : Nat} {operand operand' : Rule (Phrase (n + 1))}
    (htraceable : operand.Traceable) {limit limit' : Nat} (hinside : progress.Inside tokens)
    (hlimit : tokens.size - progress.pos ≤ limit) (hlimit' : tokens.size - progress.pos ≤ limit')
    (hoperand : ∀ later, progress.Further tokens later →
      operand tokens later = operand' tokens later) (left : Phrase (n + 2)) :
    extend operand limit left tokens progress = extend operand' limit' left tokens progress := by
  have hpos := hinside.pos_lt
  -- by induction on the one bound; the other one is not zero either while tokens are left
  induction limit generalizing progress limit' left with
  | zero => omega
  | succ limit ih =>
    obtain ⟨limit', rfl⟩ : ∃ k, limit' = k + 1 := ⟨limit' - 1, by omega⟩
    rw [extend_succ, extend_succ]
    refine round_congr htraceable hinside hoperand (fun longer later hlater => ?_) left
    have hlt := hlater.pos
    exact ih hlater.inside (by omega) (by omega)
      (fun place hplace => hoperand place (hlater.trans hplace)) longer hlater.inside.pos_lt

/-- Nor does a phrase depend on the bound on how deep it goes. -/
theorem layer_eq (hinside : progress.Inside tokens) {limit limit' : Nat}
    (hlimit : tokens.size - progress.pos ≤ limit) (hlimit' : tokens.size - progress.pos ≤ limit')
    (n : Nat) :
    layer (factorWithin limit) limit n tokens progress =
      layer (factorWithin limit') limit' n tokens progress := by
  induction hleft : tokens.size - progress.pos using Nat.strong_induction_on
    generalizing progress limit limit' n with
  | _ left ih =>
    have hpos := hinside.pos_lt
    -- further on less is left, so the bounds may be less by one there
    have hfurther : ∀ {bound bound' : Nat}, left ≤ bound + 1 → left ≤ bound' + 1 →
        ∀ n later, progress.Further tokens later →
          layer (factorWithin bound) bound n tokens later =
            layer (factorWithin bound') bound' n tokens later := by
      intro bound bound' hbound hbound' n later hlater
      have hlt := hlater.pos
      exact ih (tokens.size - later.pos) (by omega) hlater.inside (by omega) (by omega) n rfl
    induction n with
    | zero =>
      obtain ⟨bound, rfl⟩ : ∃ k, limit = k + 1 := ⟨limit - 1, by omega⟩
      obtain ⟨bound', rfl⟩ : ∃ k, limit' = k + 1 := ⟨limit' - 1, by omega⟩
      have hfactor := bounded_traceable.factorWithin bound
      have hlater := @hfurther bound bound' (by omega) (by omega)
      have hexp := bounded_traceable.layer hfactor bound 3
      exact power_congr (bounded_traceable.primary hexp hfactor)
        hinside (primary_congr hinside (hlater 3) (hlater 0)) (hlater 0)
    | succ n ihn =>
      have htraceable := bounded_traceable.layer (bounded_traceable.factorWithin limit) limit n
      have hforward :=
        forward_layer (forward_factorWithin limit) (bounded_traceable.factorWithin limit) limit n
      refine bind_congr ihn fun first reached hfirst => ?_
      have hreached := hforward.further htraceable hinside hfirst
      have hlt := hreached.pos
      refine extend_congr htraceable hreached.inside (by omega) (by omega)
        (fun later hlater => ?_) _
      exact hfurther (by omega) (by omega) n later (hreached.trans hlater)

/-- Every bound that is no less than what is left gives the rule of the layer. -/
theorem phrase_eq (hinside : progress.Inside tokens) {limit : Nat}
    (hlimit : tokens.size - progress.pos ≤ limit) (n : Nat) :
    phrase n tokens progress = layer (factorWithin limit) limit n tokens progress := by
  rw [phrase, reach_bind]
  exact layer_eq hinside (Nat.le_succ _) hlimit n

/-- How many statements may be left does not matter, if it is not too few. -/
theorem clauses_eq (hinside : progress.Inside tokens) {limit limit' : Nat}
    (hlimit : tokens.size - progress.pos ≤ limit) (hlimit' : tokens.size - progress.pos ≤ limit') :
    clauses limit tokens progress = clauses limit' tokens progress := by
  have hpos := hinside.pos_lt
  induction limit generalizing progress limit' with
  | zero => omega
  | succ limit ih =>
    obtain ⟨limit', rfl⟩ : ∃ k, limit' = k + 1 := ⟨limit' - 1, by omega⟩
    refine statements_congr hinside rfl fun later hlater => ?_
    have hlt := hlater.pos
    exact ih hlater.inside (by omega) (by omega) hlater.inside.pos_lt

end Rule

-- ---------------------------------------------------------------------------
-- The grammar without bounds
-- ---------------------------------------------------------------------------

open Rule

/-- What is called while a list is matched: the rule of a layer, the loop of a chain that has come
so far, the rule for a statement, the loop of statements, and the rule for the whole list. -/
inductive Call
  | phrase (l : Nat)
  | extend {n : Nat} (left : Phrase (n + 2))
  | clause
  | clauses
  | program

namespace Call

/-- What is matched by the call. -/
def Result : Call → Type
  | .phrase l => Phrase l
  | @extend n _ => Phrase (n + 2)
  | .clause => Clause
  | .clauses => List Clause
  | .program => Derivation

/-- The place of the call in the grammar, the lowest at zero. -/
def rank : Call → Nat
  | .phrase l => l
  | @extend n _ => n + 2
  | .clause => 5
  | .clauses => 6
  | .program => 7

/-- The rule that is called. -/
def rule : (call : Call) → Rule call.Result
  | .phrase 0 => anyPrimary
  | .phrase (n + 1) => Rule.phrase n
  | @extend n left => do Rule.extend (Rule.phrase n) (← reach) left
  | .clause => Rule.clause
  | .clauses => do Rule.clauses (← reach)
  | .program => Rule.program

/-- What a call does itself, whatever those are taken to be that it makes. -/
def body (calls : (call : Call) → Rule call.Result) : (call : Call) → Rule call.Result
  | .phrase 0 => primary (calls (.phrase 4)) (calls (.phrase 1))
  | .phrase 1 => power (calls (.phrase 0)) (calls (.phrase 1))
  | .phrase (n + 2) => do
    let first ← calls (.phrase (n + 1))
    calls (.extend (.single first))
  | @extend n left => round (calls (.phrase (n + 1))) (fun longer => calls (.extend longer)) left
  | .clause => statement (calls (.phrase 4))
  | .clauses => statements (calls .clause) (calls .clauses)
  | .program => do
    let first ← calls .clause
    let later ← calls .clauses
    miss Kind.statementStarts
    let _ ← expect .endOfInput
    return ⟨first :: later⟩

/-- One call may make the other: at a place further on in the list, or at the same place, if the
other one is lower in the grammar. -/
def Descends (tokens : Array Token) (outer inner : Call × Progress) : Prop :=
  outer.2.Further tokens inner.2 ∨ inner.2 = outer.2 ∧ inner.1.rank < outer.1.rank

variable {tokens : Array Token} {progress : Progress}
  {calls : (call : Call) → Rule call.Result}

/-- A factor is a primary and maybe an exponent, if bounds play no part. -/
theorem factor_eq_power {base : Rule Primary} {exponent : Rule Factor}
    (hinside : progress.Inside tokens)
    (hbase : anyPrimary tokens progress = base tokens progress)
    (hexponent : ∀ later, progress.Further tokens later →
      factor tokens later = exponent tokens later) :
    factor tokens progress = power base exponent tokens progress := by
  have hpos := hinside.pos_lt
  obtain ⟨bound, hbound⟩ : ∃ k, tokens.size - progress.pos = k + 1 :=
    ⟨tokens.size - progress.pos - 1, by omega⟩
  have htraceable := bounded_traceable.factorWithin bound
  have hlater : ∀ n later, progress.Further tokens later →
      layer (factorWithin bound) bound n tokens later = Rule.phrase n tokens later := by
    intro n later hfurther
    have hlt := hfurther.pos
    exact (phrase_eq hfurther.inside (by omega) n).symm
  -- the rule takes its bound from what is left, and less is left further on
  have hrule : factor tokens progress = factorWithin (bound + 1) tokens progress :=
    phrase_eq hinside (Nat.le_of_eq hbound) 0
  have hexp := bounded_traceable.layer htraceable bound 3
  rw [hrule]
  refine power_congr (bounded_traceable.primary hexp htraceable)
    hinside ((primary_congr hinside (hlater 3) (hlater 0)).trans hbase) ?_
  exact fun later hfurther => (hlater 0 later hfurther).trans (hexponent later hfurther)

/-- The rule of a call comes out as its body does, if the calls are right that it may make. -/
theorem rule_eq_body (call : Call) (hinside : progress.Inside tokens)
    (h : ∀ inner place, Descends tokens (call, progress) (inner, place) →
      calls inner tokens place = inner.rule tokens place) :
    call.rule tokens progress = body calls call tokens progress := by
  have hlater : ∀ inner place, progress.Further tokens place →
      inner.rule tokens place = calls inner tokens place :=
    fun inner place hplace => (h inner place (.inl hplace)).symm
  have hlower : ∀ inner : Call, inner.rank < call.rank →
      inner.rule tokens progress = calls inner tokens progress :=
    fun inner hrank => (h inner progress (.inr ⟨rfl, hrank⟩)).symm
  -- loops and layers are opened once; what they call then is further on, or lower at the same place
  match call with
  | .phrase 0 => exact primary_congr hinside (hlater (.phrase 4)) (hlater (.phrase 1))
  | .phrase 1 =>
    exact factor_eq_power hinside (hlower (.phrase 0) Nat.zero_lt_one) (hlater (.phrase 1))
  | .phrase (n + 2) =>
    have hlimit := Nat.le_refl (tokens.size - progress.pos)
    have hoperand := (phrase_eq hinside hlimit n).symm.trans
      (hlower (.phrase (n + 1)) (Nat.lt_succ_self _))
    have hfactor := bounded_traceable.factorWithin (tokens.size - progress.pos)
    have htraceable := bounded_traceable.layer hfactor (tokens.size - progress.pos) n
    have hforward := forward_layer (forward_factorWithin _) hfactor (tokens.size - progress.pos) n
    refine (phrase_eq hinside hlimit (n + 1)).trans
      (bind_congr hoperand fun first reached hfirst => ?_)
    have hreached := hforward.further htraceable hinside hfirst
    have hlt := hreached.pos
    rw [← hlater (.extend (.single first)) reached hreached]
    refine extend_congr htraceable hreached.inside (by omega) (Nat.le_succ _)
      (fun later hfurther => ?_) _
    have hlt' := hfurther.pos
    exact (phrase_eq hfurther.inside (by omega) n).symm
  | @extend n left =>
    show Rule.extend (Rule.phrase n) (tokens.size - progress.pos + 1) left tokens progress = _
    rw [extend_succ, body]
    refine round_congr (bounded_traceable.phrase n) hinside (hlater (.phrase (n + 1)))
      (fun longer later hfurther => ?_) left
    have hlt := hfurther.pos
    rw [← hlater (.extend longer) later hfurther]
    exact extend_congr (bounded_traceable.phrase n) hfurther.inside (by omega) (Nat.le_succ _)
      (fun _ _ => rfl) longer
  | .clause => exact statement_congr hinside (hlater (.phrase 4))
  | .clauses =>
    refine statements_congr hinside (hlower .clause (by decide)) fun later hfurther => ?_
    have hlt := hfurther.pos
    rw [← hlater .clauses later hfurther]
    exact clauses_eq hfurther.inside (by omega) (Nat.le_succ _)
  | .program =>
    refine bind_congr (hlower .clause (by decide)) fun first reached hfirst => ?_
    exact bind_congr (hlater .clauses reached (further_of_clause hinside hfirst)) fun _ _ _ => rfl

/-- Calls from within calls come to an end: what is left of the list becomes less, or it stays and
the grammar is descended. -/
theorem wellFounded_descends (tokens : Array Token) :
    WellFounded fun inner outer => Descends tokens outer inner := by
  refine Subrelation.wf ?_ (InvImage.wf
    (fun place : Call × Progress => (tokens.size - place.2.pos, place.1.rank))
    (Prod.lex Nat.lt_wfRel Nat.lt_wfRel).wf)
  rintro ⟨inner, later⟩ ⟨outer, earlier⟩ hdescends
  -- both ways down lead down in the lexicographic order of what is left and of the rank
  rcases hdescends with hfurther | ⟨hsame, hrank⟩
  · have hlt : later.pos < tokens.size := hfurther.inside.pos_lt
    have hpos : earlier.pos < later.pos := hfurther.pos
    exact .left _ _ (show tokens.size - later.pos < tokens.size - earlier.pos by omega)
  · obtain rfl : later = earlier := hsame
    exact .right _ hrank

/-- Whatever calls each other as the grammar says comes out as the rules do. -/
theorem eq_rule_of_body
    (h : ∀ call place, place.Inside tokens →
      calls call tokens place = body calls call tokens place)
    (call : Call) (hinside : progress.Inside tokens) :
    calls call tokens progress = call.rule tokens progress := by
  have hall : ∀ place : Call × Progress, place.2.Inside tokens →
      calls place.1 tokens place.2 = place.1.rule tokens place.2 := by
    intro place
    -- a call agrees with its rule if the calls that it may make do, and these descend
    induction place using (wellFounded_descends tokens).induction with
    | _ outer ih =>
      intro hinside
      rw [h outer.1 outer.2 hinside]
      refine (rule_eq_body outer.1 hinside fun inner later hdescends => ?_).symm
      refine ih (inner, later) hdescends ?_
      rcases hdescends with hfurther | ⟨hsame, -⟩
      · exact hfurther.inside
      · exact hsame ▸ hinside
  exact hall (call, progress) hinside

end Call

-- ---------------------------------------------------------------------------
-- Whole lists
-- ---------------------------------------------------------------------------

/--
**Matching ends.** Every list of tokens, whether or not it ends in an end token or has others in
between, is matched as a derivation or stops with a fault. At every moment on the way the next token
and the one that a fault would be about are in the list. A rule of the grammar that matches has
moved on. And a call comes out as its body does, loops included, whatever is put for calls other
than those further on and those that are lower; of these no one leads to others without end.
-/
theorem matchTokens_ends (tokens : List Token) (file : String) :
    ((∃ derivation, (matchTokens tokens file).outcome = .ok derivation) ∨
      ∃ fault, (matchTokens tokens file).outcome = .error (.fault fault)) ∧
    (∃ moves, Makes (completed tokens file).toArray program .start moves
        (Derivation.ofTokens tokens file) ∧
      ∀ early, early <+: moves →
        (Progress.start.after early).Accounted (completed tokens file) early) ∧
    (∀ {α : Type} (rule : Rule α), rule.OfGrammar → rule.Forward) ∧
    (∀ (call : Call) progress, progress.Inside (completed tokens file).toArray →
      ∀ calls : (call : Call) → Rule call.Result,
        (∀ inner place,
          Call.Descends (completed tokens file).toArray (call, progress) (inner, place) →
            calls inner (completed tokens file).toArray place =
              inner.rule (completed tokens file).toArray place) →
        call.rule (completed tokens file).toArray progress =
          Call.body calls call (completed tokens file).toArray progress) ∧
    WellFounded fun inner outer => Call.Descends (completed tokens file).toArray outer inner := by
  obtain ⟨moves, hmakes⟩ := traceable_program (completed tokens file).toArray .start
  refine ⟨?_, ⟨moves, hmakes, ?_⟩, fun rule hrule => hrule.forward,
    fun call progress hplace calls h => Call.rule_eq_body call hplace h,
    Call.wellFounded_descends _⟩
  · cases houtcome : (matchTokens tokens file).outcome with
    | ok derivation => exact .inl ⟨derivation, rfl⟩
    | error stop =>
      obtain ⟨reached, hstuck⟩ := stuck_of_matchTokens houtcome
      obtain ⟨fault, _, _, _, rfl, -⟩ := hstuck.exactAt
      exact .inr ⟨fault, rfl⟩
  · intro early hearly
    -- every beginning of the moves is a moment on the way, and keeps inside the list
    have hinside := Progress.inside_start (completed_ended tokens file)
    exact (tallied_after early).accounted (hmakes.inside hinside hearly)

/-- The list `(`, which does not end in an end token. -/
theorem matchTokens_ends_of_open_paren :
    ∃ tokens : List Token, tokens.map Token.kind = [.openParen] ∧
      (∃ fault, (matchTokens tokens "a").outcome = .error (.fault fault)) ∧
      Rule.exp.Forward ∧
      Call.program.rule (completed tokens "a").toArray .start =
        Call.body Call.rule .program (completed tokens "a").toArray .start := by
  let tokens : List Token := [⟨.openParen, "(", .ofLength "a" 0 1⟩]
  obtain ⟨-, -, hforward, hbody, -⟩ := matchTokens_ends tokens "a"
  have hinside := Progress.inside_start (completed_ended tokens "a")
  exact ⟨tokens, rfl, ⟨_, rfl⟩, hforward Rule.exp .exp,
    hbody .program .start hinside Call.rule fun _ _ _ => rfl⟩

/-- As it stands, without an end token, its parenthesis would be taken again and again. -/
example :
    (Rule.exp #[⟨.openParen, "(", .ofLength "a" 0 1⟩] .start).1 = .error .unending ∧
      ∃ fault, (Rule.exp (completed [⟨.openParen, "(", .ofLength "a" 0 1⟩] "a").toArray .start).1 =
        .error (.fault fault) :=
  ⟨rfl, _, rfl⟩

end Reckon
