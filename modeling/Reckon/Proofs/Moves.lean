import Reckon.Derivation.Match

/-!
# Reckon — the moves of a rule

All that a rule can do to the progress is to take the next token and to miss a kind at it. These
are its *moves*. A rule that is made of others moves as these do, one after the other, so what a
rule *makes* is told along the way it is put together: every call of `miss` in it counts, also one
that changes nothing because the kind was missed there before.

The moves alone tell how far a match has come: the misses among them, each with the number of tokens
taken before it.

* `Makes` — which moves a rule makes, and how it comes out.
* `makes_accept_some`, `makes_accept_none` — a token is taken, or missed under each kind.
* `Makes.eq`, `Makes.reached` — it comes out as the rule does, and its moves lead to the progress
  that the rule leaves behind.
* `Composed`, `Bounded` — what goes over from rules to those made of them, the phrases among them.
* `bounded_traceable`, `traceable_program` — every rule makes some moves, on every list.
-/

namespace Reckon

/-- What changes the progress: the next token is taken, or a kind is missed at it. -/
inductive Move
  | take
  | miss (kind : Kind)
deriving DecidableEq, Repr

/-- The moves by which a token is taken: none if it is the end of the input, which stays. -/
def Move.taking (token : Token) : List Move := if token.kind = .endOfInput then [] else [.take]

namespace Progress

/-- The progress after a move. -/
def move (progress : Progress) : Move → Progress
  | .take => progress.step
  | .miss kind => progress.miss kind

/-- The progress after some moves. -/
def after (progress : Progress) (moves : List Move) : Progress := moves.foldl move progress

/-- Moves are made one after the other. -/
theorem after_append (progress : Progress) (first second : List Move) :
    progress.after (first ++ second) = (progress.after first).after second :=
  List.foldl_append

/-- To miss several kinds is to miss each of them in turn. -/
theorem after_misses (progress : Progress) (kinds : List Kind) :
    progress.after (kinds.map .miss) = progress.missAll kinds :=
  List.foldl_map

end Progress

namespace Rule

variable {tokens : Array Token} {α β : Type}

-- What the parts leave behind, before it is known which moves they make

/-- To look at the next token leaves everything as it is. -/
theorem current_look (tokens : Array Token) (progress : Progress) :
    (current tokens progress).2 = progress := by
  unfold current
  split <;> rfl

/-- So it does however it comes out. -/
theorem current_stays {result : Except Stop Token} {progress reached : Progress}
    (h : current tokens progress = (result, reached)) : reached = progress := by
  rw [← current_look tokens progress, h]

theorem failure_look (tokens : Array Token) (progress : Progress) :
    (failure tokens progress).2 = progress := by
  unfold failure
  split <;> rfl

/-- A token that does not end the input is stepped over. -/
theorem advance_take {token : Token} {progress : Progress}
    (hcurrent : current tokens progress = (.ok token, progress))
    (hkind : token.kind ≠ .endOfInput) :
    advance tokens progress = (.ok token, progress.step) := by
  simp [advance, bind_apply, hcurrent, hkind]

/-- The end of the input is read and stays in front. -/
theorem advance_stay {token : Token} {progress : Progress}
    (hcurrent : current tokens progress = (.ok token, progress))
    (hkind : token.kind = .endOfInput) :
    advance tokens progress = (.ok token, progress) := by
  simp [advance, bind_apply, hcurrent, hkind]

/-- The rule makes these moves and comes out so. Of the parts that all rules are made of, those that
only look make none, `advance` takes the next token unless it ends the input, and `miss` misses each
of its kinds; what comes of a part is its own answer. One rule after the other makes the moves of
both, or of the first if that one stops. -/
inductive Makes (tokens : Array Token) :
    {α : Type} → Rule α → Progress → List Move → Except Stop α × Progress → Prop
  | pure {α : Type} (a : α) (progress : Progress) :
      Makes tokens (pure a : Rule α) progress [] ((pure a : Rule α) tokens progress)
  | halt {α : Type} (reason : Stop) (progress : Progress) :
      Makes tokens (stop reason : Rule α) progress [] ((stop reason : Rule α) tokens progress)
  | current (progress : Progress) : Makes tokens current progress [] (current tokens progress)
  | failure (progress : Progress) : Makes tokens failure progress [] (failure tokens progress)
  | reach (progress : Progress) : Makes tokens reach progress [] (reach tokens progress)
  | take {token : Token} {progress : Progress}
      (hcurrent : Rule.current tokens progress = (.ok token, progress))
      (hkind : token.kind ≠ .endOfInput) :
      Makes tokens advance progress [.take] (advance tokens progress)
  | stay {token : Token} {progress : Progress}
      (hcurrent : Rule.current tokens progress = (.ok token, progress))
      (hkind : token.kind = .endOfInput) :
      Makes tokens advance progress [] (advance tokens progress)
  | miss (kinds : List Kind) (progress : Progress) :
      Makes tokens (miss kinds) progress (kinds.map .miss) (miss kinds tokens progress)
  | bind {α β : Type} {rule : Rule α} {next : α → Rule β} {progress reached : Progress}
      {first second : List Move} {a : α} {result : Except Stop β × Progress}
      (hrule : Makes tokens rule progress first (.ok a, reached))
      (hnext : Makes tokens (next a) reached second result) :
      Makes tokens (rule >>= next) progress (first ++ second) result
  | stop {α β : Type} {rule : Rule α} {next : α → Rule β} {progress reached : Progress}
      {moves : List Move} {reason : Stop}
      (hrule : Makes tokens rule progress moves (.error reason, reached)) :
      Makes tokens (rule >>= next) progress moves (.error reason, reached)

namespace Makes

variable {rule : Rule α} {progress : Progress} {moves : List Move}
  {result : Except Stop α × Progress}

/-- What is made comes out as the rule does. -/
theorem eq (h : Makes tokens rule progress moves result) : rule tokens progress = result := by
  induction h with
  | bind hrule hnext ihrule ihnext => rw [bind_apply, ihrule, ← ihnext]
  | stop hrule ih => rw [bind_apply, ih]
  | _ => rfl

/-- The moves lead to what the rule leaves behind. -/
theorem reached (h : Makes tokens rule progress moves result) :
    result.2 = progress.after moves := by
  induction h with
  | pure a progress => rfl
  | halt reason progress => rfl
  | current progress => exact current_look tokens progress
  | failure progress => exact failure_look tokens progress
  | reach progress => rfl
  | take hcurrent hkind => exact congrArg Prod.snd (advance_take hcurrent hkind)
  | stay hcurrent hkind => exact congrArg Prod.snd (advance_stay hcurrent hkind)
  | miss kinds progress => exact (Progress.after_misses progress kinds).symm
  -- the second rule goes on from where the moves of the first one lead
  | bind hrule hnext ihrule ihnext => rw [Progress.after_append, ← ihrule, ← ihnext]
  | stop hrule ih => exact ih

end Makes

-- Which moves the parts make where there is a next token

theorem makes_current {token : Token} {progress : Progress}
    (hcurrent : current tokens progress = (.ok token, progress)) :
    Makes tokens current progress [] (.ok token, progress) :=
  hcurrent ▸ .current progress

/-- To advance takes the token in front, if it can be taken. -/
theorem makes_advance {token : Token} {progress : Progress}
    (hcurrent : current tokens progress = (.ok token, progress)) :
    Makes tokens advance progress (Move.taking token)
      (.ok token, progress.after (Move.taking token)) := by
  by_cases hkind : token.kind = .endOfInput
  · rw [Move.taking, if_pos hkind]
    have hstay := Makes.stay hcurrent hkind
    rwa [advance_stay hcurrent hkind] at hstay
  · rw [Move.taking, if_neg hkind]
    have htake := Makes.take hcurrent hkind
    rwa [advance_take hcurrent hkind] at htake

/-- To miss several kinds is a move for each of them, also for those that were missed before. -/
theorem makes_miss (tokens : Array Token) (progress : Progress) (kinds : List Kind) :
    Makes tokens (miss kinds) progress (kinds.map .miss)
      (.ok (), progress.after (kinds.map .miss)) := by
  have hmiss : Makes tokens (miss kinds) progress (kinds.map .miss) (miss kinds tokens progress) :=
    .miss kinds progress
  rw [← hmiss.reached]
  exact hmiss

/-- A token of one of the kinds is taken. -/
theorem makes_accept_some {token : Token} {progress : Progress} {kinds : List Kind}
    (hcurrent : current tokens progress = (.ok token, progress)) (hmem : token.kind ∈ kinds) :
    Makes tokens (accept kinds) progress (Move.taking token)
      (.ok (some token), progress.after (Move.taking token)) := by
  have htaken : Makes tokens (advance >>= fun token => pure (some token)) progress
      (Move.taking token ++ []) (.ok (some token), progress.after (Move.taking token)) :=
    .bind (makes_advance hcurrent) (.pure (some token) _)
  rw [List.append_nil] at htaken
  refine .bind (makes_current hcurrent) ?_
  rw [if_pos hmem]
  exact htaken

/-- A token of no such kind is missed under each of them. -/
theorem makes_accept_none {token : Token} {progress : Progress} {kinds : List Kind}
    (hcurrent : current tokens progress = (.ok token, progress)) (hmem : token.kind ∉ kinds) :
    Makes tokens (accept kinds) progress (kinds.map .miss)
      (.ok none, progress.after (kinds.map .miss)) := by
  have hmissed : Makes tokens (miss kinds >>= fun _ => pure none) progress
      (kinds.map Move.miss ++ []) (.ok (none : Option Token), progress.after (kinds.map .miss)) :=
    .bind (makes_miss tokens progress kinds) (.pure none _)
  rw [List.append_nil] at hmissed
  refine .bind (makes_current hcurrent) ?_
  rw [if_neg hmem]
  exact hmissed

/-- A token that had to be there is taken like one that may be there. -/
theorem makes_expectAny_some {token : Token} {progress : Progress} {kinds : List Kind}
    (hcurrent : current tokens progress = (.ok token, progress)) (hmem : token.kind ∈ kinds) :
    Makes tokens (expectAny kinds) progress (Move.taking token)
      (.ok token, progress.after (Move.taking token)) := by
  have hmatched : Makes tokens (expectAny kinds) progress (Move.taking token ++ []) _ :=
    .bind (makes_accept_some hcurrent hmem) (.pure token _)
  rwa [List.append_nil] at hmatched

/-- A token that had to be there and is not is missed before the fault is told. -/
theorem makes_expectAny_none {token : Token} {progress : Progress} {kinds : List Kind}
    {fault : Fault} (hcurrent : current tokens progress = (.ok token, progress))
    (hmem : token.kind ∉ kinds)
    (hfailure : failure tokens (progress.after (kinds.map .miss)) =
      (.ok fault, progress.after (kinds.map .miss))) :
    Makes tokens (expectAny kinds) progress (kinds.map .miss)
      (.error (.fault fault), progress.after (kinds.map .miss)) := by
  have hlook : Makes tokens failure (progress.after (kinds.map .miss)) []
      (failure tokens (progress.after (kinds.map .miss))) := .failure _
  rw [hfailure] at hlook
  have htold : Makes tokens (fail : Rule Token) (progress.after (kinds.map .miss)) []
      (.error (.fault fault), progress.after (kinds.map .miss)) :=
    .bind hlook (.halt (.fault fault) _)
  have hstopped : Makes tokens (expectAny kinds) progress (kinds.map .miss ++ []) _ :=
    .bind (makes_accept_none hcurrent hmem) htold
  rwa [List.append_nil] at hstopped

-- ---------------------------------------------------------------------------
-- What holds of rules that are composed of others
-- ---------------------------------------------------------------------------

/-- What goes over from rules to those that are composed of them. To look for kinds is a part of its
own, so what holds may depend on it that no token of these kinds is missed. -/
structure Composed (holds : {α : Type} → Rule α → Prop) : Prop where
  pure    : ∀ {α : Type} (a : α), holds (pure a : Rule α)
  bind    : ∀ {α β : Type} {rule : Rule α} {next : α → Rule β}, holds rule →
              (∀ a, holds (next a)) → holds (rule >>= next)
  current : holds current
  accept  : ∀ kinds, holds (accept kinds)
  fail    : ∀ {α : Type}, holds (fail : Rule α)
  /-- One of some kinds is looked for, by the rule that the next token begins. -/
  choose  : ∀ {α : Type} {next : Token → Rule α} (kinds : List Kind),
              (∀ token, token.kind ∈ kinds → holds (next token)) →
              (∀ token, token.kind ∉ kinds → next token = reject kinds) →
              holds (Rule.current >>= next)

/-- What holds of the rules that all others are made of, and of one rule after the other. -/
structure Inherited (holds : {α : Type} → Rule α → Prop) : Prop where
  pure    : ∀ {α : Type} (a : α), holds (pure a : Rule α)
  bind    : ∀ {α β : Type} {rule : Rule α} {next : α → Rule β}, holds rule →
              (∀ a, holds (next a)) → holds (rule >>= next)
  current : holds current
  advance : holds advance
  miss    : ∀ kinds, holds (miss kinds)
  fail    : ∀ {α : Type}, holds (fail : Rule α)

/-- What holds of all that rules are made of goes over to those composed of them. -/
theorem Inherited.composed {holds : {α : Type} → Rule α → Prop} (h : Inherited holds) :
    Composed holds where
  pure := h.pure
  bind := h.bind
  current := h.current
  accept kinds := by
    refine h.bind h.current fun token => ?_
    split
    · exact h.bind h.advance fun _ => h.pure _
    · exact h.bind (h.miss kinds) fun _ => h.pure _
  fail := h.fail
  choose kinds hfound hmissed := by
    refine h.bind h.current fun token => ?_
    by_cases hmem : token.kind ∈ kinds
    · exact hfound token hmem
    · rw [hmissed token hmem]
      exact h.bind (h.miss kinds) fun _ => h.fail

namespace Composed

variable {holds : {α : Type} → Rule α → Prop}

/-- What holds of looking for a kind and of stopping holds of insisting on one. -/
theorem expectAny (h : Composed holds) (kinds : List Kind) : holds (expectAny kinds) := by
  refine h.bind (h.accept kinds) fun token => ?_
  cases token with
  | none => exact h.fail
  | some token => exact h.pure token

theorem identifier (h : Composed holds) : holds identifier :=
  h.bind (h.expectAny _) fun _ => h.pure _

theorem numeral (h : Composed holds) : holds numeral :=
  h.bind (h.expectAny _) fun _ => h.pure _

/-- The rule in parentheses may be any rule of which it holds. -/
theorem parens (h : Composed holds) {exp : Rule Exp} (hexp : holds exp) : holds (parens exp) :=
  h.bind (h.expectAny _) fun _ => h.bind hexp fun _ => h.bind (h.expectAny _) fun _ => h.pure _

theorem unary (h : Composed holds) {factor : Rule Factor} (hfactor : holds factor) :
    holds (unary factor) :=
  h.bind (h.expectAny _) fun _ => h.bind hfactor fun _ => h.pure _

/-- Each kind that a primary begins with leads to a rule of its own, and there is no other. -/
theorem primary (h : Composed holds) {exp : Rule Exp} {factor : Rule Factor} (hexp : holds exp)
    (hfactor : holds factor) : holds (primary exp factor) := by
  refine h.choose Kind.primaryStarts (fun token hstart => ?_) (fun token hstart => ?_)
  · cases hkind : token.kind with
    | identifier => exact h.identifier
    | number => exact h.numeral
    | openParen => exact h.parens hexp
    | dash => exact h.unary hfactor
    | absWord => exact h.unary hfactor
    | sqrtWord => exact h.unary hfactor
    | _ => exact absurd (hkind ▸ hstart) (by decide)
  · cases hkind : token.kind with
    | identifier | number | openParen | dash | absWord | sqrtWord =>
      exact absurd (hkind ▸ by decide) hstart
    | _ => rfl

/-- A power is a primary, and perhaps an exponent behind it. -/
theorem power (h : Composed holds) {primary : Rule Primary} {factor : Rule Factor}
    (hprimary : holds primary) (hfactor : holds factor) : holds (power primary factor) := by
  refine h.bind hprimary fun base => h.bind (h.accept _) fun op => ?_
  cases op with
  | none => exact h.pure _
  | some op => exact h.bind hfactor fun _ => h.pure _

theorem declare (h : Composed holds) (hexp : holds exp) : holds declare :=
  h.bind (h.expectAny _) fun _ => h.bind (h.expectAny _) fun _ => h.bind (h.expectAny _) fun _ =>
    h.bind hexp fun _ => h.pure _

theorem assign (h : Composed holds) (hexp : holds exp) : holds assign :=
  h.bind (h.expectAny _) fun _ => h.bind (h.expectAny _) fun _ => h.bind hexp fun _ => h.pure _

theorem print (h : Composed holds) (hexp : holds exp) : holds print :=
  h.bind (h.expectAny _) fun _ => h.bind hexp fun _ => h.pure _

/-- Each kind that a statement begins with leads to a rule of its own, too. -/
theorem clause (h : Composed holds) (hexp : holds exp) : holds clause := by
  refine h.choose Kind.statementStarts (fun token hstart => ?_) (fun token hstart => ?_)
  · cases hkind : token.kind with
    | letWord => exact h.declare hexp
    | printWord => exact h.print hexp
    | identifier => exact h.assign hexp
    | _ => exact absurd (hkind ▸ hstart) (by decide)
  · cases hkind : token.kind with
    | letWord | printWord | identifier => exact absurd (hkind ▸ by decide) hstart
    | _ => rfl

end Composed

-- ---------------------------------------------------------------------------
-- Rules that bound themselves
-- ---------------------------------------------------------------------------

/-- What goes over to composed rules, and holds where a bound on depth or rounds comes in. -/
structure Bounded (holds : {α : Type} → Rule α → Prop) : Prop extends Composed holds where
  unending : ∀ {α : Type}, holds (stop .unending : Rule α)
  reach    : holds reach

namespace Bounded

variable {holds : {α : Type} → Rule α → Prop}

/-- A chain grows by operands of which it holds. -/
theorem extend (h : Bounded holds) {n : Nat} {operand : Rule (Phrase (n + 1))}
    (hoperand : holds operand) (limit : Nat) (left : Phrase (n + 2)) :
    holds (extend operand limit left) := by
  induction limit generalizing left with
  | zero => exact h.unending
  | succ limit ih =>
    refine h.bind (h.accept _) fun op => ?_
    cases op with
    | none => exact h.pure left
    | some op => exact h.bind hoperand fun right => ih (.chain left op right)

/-- Each layer above the factors is a chain of the one below it. -/
theorem layer (h : Bounded holds) {factor : Rule Factor} (hfactor : holds factor) (limit n : Nat) :
    holds (layer factor limit n) := by
  induction n with
  | zero => exact hfactor
  | succ n ih => exact h.bind ih fun first => h.extend ih limit (.single first)

/-- A factor is made of primaries, which may contain phrases and factors again. -/
theorem factorWithin (h : Bounded holds) (limit : Nat) : holds (factorWithin limit) := by
  induction limit with
  | zero => exact h.unending
  | succ limit ih => exact h.power (h.primary (h.layer ih limit 3) ih) ih

theorem phrase (h : Bounded holds) (n : Nat) : holds (phrase n) :=
  h.bind h.reach fun limit => h.layer (h.factorWithin limit) limit n

theorem clauses (h : Bounded holds) (limit : Nat) : holds (clauses limit) := by
  induction limit with
  | zero => exact h.unending
  | succ limit ih =>
    refine h.bind h.current fun token => ?_
    split
    · exact h.bind (h.clause (h.phrase 3)) fun _ => h.bind ih fun _ => h.pure _
    · exact h.pure []

end Bounded

-- ---------------------------------------------------------------------------
-- Every rule makes some moves
-- ---------------------------------------------------------------------------

/-- Wherever the rule begins, on whatever list, it makes some moves. -/
def Traceable (rule : Rule α) : Prop :=
  ∀ tokens progress, ∃ moves, Makes tokens rule progress moves (rule tokens progress)

/-- The moves of the second rule begin where those of the first one lead. -/
theorem Traceable.bind {rule : Rule α} {next : α → Rule β} (hrule : rule.Traceable)
    (hnext : ∀ a, (next a).Traceable) : (rule >>= next).Traceable := by
  intro tokens progress
  obtain ⟨first, hfirst⟩ := hrule tokens progress
  rw [bind_apply]
  match hresult : rule tokens progress with
  | (.ok a, reached) =>
    rw [hresult] at hfirst
    obtain ⟨second, hsecond⟩ := hnext a tokens reached
    exact ⟨first ++ second, .bind hfirst hsecond⟩
  | (.error reason, reached) =>
    rw [hresult] at hfirst
    exact ⟨first, .stop hfirst⟩

/-- It depends on the token in front which moves these are, and without one there are none. -/
theorem traceable_advance : advance.Traceable := by
  intro tokens progress
  match hcurrent : current tokens progress with
  | (.error reason, reached) =>
    -- on an empty list there is no next token, and `advance` stops with `current` in it
    obtain rfl := current_stays hcurrent
    have hstop : advance tokens reached = (.error reason, reached) := by
      simp [advance, bind_apply, hcurrent]
    have hlook : Makes tokens current reached [] (current tokens reached) := .current reached
    rw [hcurrent] at hlook
    rw [hstop]
    exact ⟨[], .stop hlook⟩
  | (.ok token, reached) =>
    obtain rfl := current_stays hcurrent
    by_cases hkind : token.kind = .endOfInput
    · exact ⟨[], .stay hcurrent hkind⟩
    · exact ⟨[.take], .take hcurrent hkind⟩

theorem traceable_failure : failure.Traceable := fun _ progress => ⟨[], .failure progress⟩

theorem traceable_fail : (fail : Rule α).Traceable :=
  traceable_failure.bind fun fault _ progress => ⟨[], .halt (.fault fault) progress⟩

/-- All parts of rules make some moves. -/
theorem inherited_traceable : Inherited @Traceable where
  pure a _ progress := ⟨[], .pure a progress⟩
  bind := Traceable.bind
  current _ progress := ⟨[], .current progress⟩
  advance := traceable_advance
  miss kinds _ progress := ⟨_, .miss kinds progress⟩
  fail := traceable_fail

theorem bounded_traceable : Bounded @Traceable where
  toComposed := inherited_traceable.composed
  unending _ progress := ⟨[], .halt .unending progress⟩
  reach _ progress := ⟨[], .reach progress⟩

/-- And so does the rule for a whole list. -/
theorem traceable_program : program.Traceable :=
  (bounded_traceable.clause (bounded_traceable.phrase 3)).bind fun _ =>
    bounded_traceable.reach.bind fun limit => (bounded_traceable.clauses limit).bind fun _ =>
      (inherited_traceable.miss _).bind fun _ =>
        (bounded_traceable.expectAny _).bind fun _ => bounded_traceable.pure _

end Rule

end Reckon
