import Reckon.Proofs.Onward
import Reckon.Proofs.Reading

/-!
# Reckon — the log and the result

The log of a run is written while nobody knows yet how the run comes out, and misses are noted all
over the rules. It tells the same story as the result. This rests on one observation about the
rules: a kind is only ever missed at a token of another kind, because every rule that misses kinds
has looked at the next token before. So what holds of the progress is *kept* by all rules if it is
kept by a step and by such a miss.

The journal is in order, and says each thing once, because a miss is entered only if its kind is not
pending, and what is pending is what the journal says about the next token. So the kinds that a
fault lists are the last block of the log.

* `Kept.program` — what steps and genuine misses keep, the rules keep.
* `Chronicled` — what is known of the journal.
* `parse_events` — the events of a run, and how they go with its outcome.
-/

namespace Reckon

-- ---------------------------------------------------------------------------
-- What all rules keep
-- ---------------------------------------------------------------------------

/-- What holds of the progress is kept when a token is taken, unless it is the end of the input, and
when a kind is missed that the next token is not of. -/
structure Progress.Kept (tokens : Array Token) (holds : Progress → Prop) : Prop where
  step : ∀ {progress : Progress} {token : Token}, holds progress →
           Rule.current tokens progress = (.ok token, progress) → token.kind ≠ .endOfInput →
           holds progress.step
  miss : ∀ {progress : Progress} {token : Token} {kind : Kind}, holds progress →
           Rule.current tokens progress = (.ok token, progress) → token.kind ≠ kind →
           holds (progress.miss kind)

namespace Rule

variable {α β : Type} {tokens : Array Token} {holds : Progress → Prop} {progress : Progress}
  {token : Token}

/-- The rule keeps what holds of the progress, however it comes out. -/
def Keeps (tokens : Array Token) (holds : Progress → Prop) (rule : Rule α) : Prop :=
  ∀ progress, holds progress → holds (rule tokens progress).2

theorem keeps_of_look {rule : Rule α} (h : ∀ tokens progress, (rule tokens progress).2 = progress) :
    rule.Keeps tokens holds := by
  intro progress hholds
  rw [h]
  exact hholds

/-- One rule after the other, where the second one only has to keep what the first one leaves. -/
theorem Keeps.bind_of {rule : Rule α} {next : α → Rule β} (hrule : rule.Keeps tokens holds)
    (hnext : ∀ a reached, rule tokens progress = (.ok a, reached) → holds reached →
      holds (next a tokens reached).2)
    (hholds : holds progress) : holds ((rule >>= next) tokens progress).2 := by
  have hreached := hrule progress hholds
  rw [bind_apply]
  match hresult : rule tokens progress with
  | (.ok a, reached) =>
    rw [hresult] at hreached
    exact hnext a reached hresult hreached
  | (.error reason, reached) =>
    rw [hresult] at hreached
    exact hreached

/-- A rule that looks at the next token has it to go by. -/
theorem keeps_of_current {next : Token → Rule α}
    (hnext : ∀ token progress, current tokens progress = (.ok token, progress) → holds progress →
      holds (next token tokens progress).2) : (current >>= next).Keeps tokens holds := by
  refine fun progress => (keeps_of_look current_look).bind_of fun token reached hcurrent => ?_
  obtain rfl := current_stays hcurrent
  exact hnext token reached hcurrent

/-- A miss leaves the next token as it is. -/
theorem current_miss (h : current tokens progress = (.ok token, progress)) (kind : Kind) :
    current tokens (progress.miss kind) = (.ok token, progress.miss kind) := by
  unfold current at h ⊢
  rw [progress.miss_pos]
  split at h
  · obtain rfl := Except.ok.inj (congrArg Prod.fst h)
    rfl
  · exact absurd (congrArg Prod.fst h) (by simp)

/-- Statements are matched until a token comes that begins none. -/
theorem current_of_clauses {limit : Nat} {progress reached : Progress} {xs : List Clause}
    (h : clauses limit tokens progress = (.ok xs, reached)) :
    ∃ token, current tokens reached = (.ok token, reached) ∧
      token.kind ∉ Kind.statementStarts := by
  -- by induction on the rounds; the last one has looked at a token and gone no further
  induction limit generalizing progress xs with
  | zero => exact absurd (congrArg Prod.fst h) (by simp [clauses, stop])
  | succ limit ih =>
    obtain ⟨token, place, hcurrent, hchoice⟩ := bind_eq_ok h
    obtain rfl := current_stays hcurrent
    split at hchoice
    · obtain ⟨first, middle, -, hlater⟩ := bind_eq_ok hchoice
      obtain ⟨later, last, hclauses, hpure⟩ := bind_eq_ok hlater
      obtain rfl : last = reached := congrArg Prod.snd hpure
      exact ih hclauses
    · next hstart =>
      obtain rfl : place = reached := congrArg Prod.snd hchoice
      exact ⟨token, hcurrent, hstart⟩

end Rule

namespace Progress.Kept

open Rule

variable {tokens : Array Token} {holds : Progress → Prop} {progress : Progress} {token : Token}

theorem missAll (h : Kept tokens holds) {kinds : List Kind} (hholds : holds progress)
    (hcurrent : Rule.current tokens progress = (.ok token, progress)) (hmem : token.kind ∉ kinds) :
    holds (progress.missAll kinds) := by
  induction kinds generalizing progress with
  | nil => exact hholds
  | cons kind kinds ih =>
    rw [List.mem_cons, not_or] at hmem
    exact ih (h.miss hholds hcurrent hmem.1) (current_miss hcurrent kind) hmem.2

theorem accept (h : Kept tokens holds) (kinds : List Kind) :
    (accept kinds).Keeps tokens holds := by
  refine keeps_of_current fun token progress hcurrent hholds => ?_
  split
  -- the end of the input may be what is looked for, and then nothing is taken
  · by_cases hkind : token.kind = .endOfInput
    · rw [bind_apply, advance_stay hcurrent hkind]
      exact hholds
    · rw [bind_apply, advance_take hcurrent hkind]
      exact h.step hholds hcurrent hkind
  · next hmem => exact h.missAll hholds hcurrent hmem

theorem reject (h : Kept tokens holds) {kinds : List Kind} {α : Type} (hholds : holds progress)
    (hcurrent : Rule.current tokens progress = (.ok token, progress)) (hmem : token.kind ∉ kinds) :
    holds ((reject kinds : Rule α) tokens progress).2 := by
  have hmissed := h.missAll hholds hcurrent hmem
  exact (keeps_of_look failure_look).bind_of (fun _ _ _ hreached => hreached) hmissed

/-- A rule that misses kinds has looked at the next token before. -/
theorem bounded (h : Kept tokens holds) :
    Bounded fun {α} (rule : Rule α) => rule.Keeps tokens holds where
  pure _ := keeps_of_look fun _ _ => rfl
  bind hrule hnext _ := hrule.bind_of fun a reached _ => hnext a reached
  current := keeps_of_look current_look
  accept := h.accept
  fail _ := (keeps_of_look failure_look).bind_of fun _ _ _ hreached => hreached
  choose kinds hfound hmissed := by
    refine keeps_of_current fun token progress hcurrent hholds => ?_
    by_cases hmem : token.kind ∈ kinds
    · exact hfound token hmem progress hholds
    · rw [hmissed token hmem]
      exact h.reject hholds hcurrent hmem
  unending := keeps_of_look fun _ _ => rfl
  reach := keeps_of_look fun _ _ => rfl

/-- What is noted behind the last statement is missed there: a token that begins a statement would
have been matched as one. -/
theorem program (h : Kept tokens holds) : program.Keeps tokens holds := by
  have hrules := h.bounded
  refine hrules.bind (hrules.clause (hrules.phrase 3)) fun first =>
    hrules.bind hrules.reach fun limit progress => ?_
  refine Keeps.bind_of (hrules.clauses limit) fun later reached hclauses hholds => ?_
  -- the misses behind the statements need a token that they miss, and the loop has left one
  obtain ⟨token, hcurrent, hstart⟩ := current_of_clauses hclauses
  have hexpect := hrules.bind (hrules.expectAny [.endOfInput]) fun _ =>
    hrules.pure (⟨first :: later⟩ : Derivation)
  exact hexpect _ (h.missAll hholds hcurrent hstart)

end Progress.Kept

-- ---------------------------------------------------------------------------
-- What is known of the journal
-- ---------------------------------------------------------------------------

/-- The kinds missed at the index, in order. -/
def Miss.kindsThere (misses : List Miss) (index : Nat) : List Kind :=
  (misses.filter fun miss => miss.position = index).map kind

/-- The misses are told as they were: each at a token of the list, which is of another kind, from
the first token to the last, and each once. -/
structure Miss.Recorded (misses : List Miss) (tokens : List Token) : Prop where
  genuine : ∀ miss ∈ misses, ∃ found, tokens[miss.position]? = some found ∧
              found.kind ≠ miss.kind
  ordered : misses.Pairwise fun earlier later => earlier.position ≤ later.position
  nodup   : misses.Nodup

theorem Miss.Recorded.nil (tokens : List Token) : Miss.Recorded [] tokens where
  genuine _ hmem := absurd hmem List.not_mem_nil
  ordered := .nil
  nodup := .nil

/-- One more miss is recorded behind the others if it is none of them and no other is further on. -/
theorem Miss.Recorded.concat {misses : List Miss} {tokens : List Token} {miss : Miss}
    {found : Token} (h : Miss.Recorded misses tokens) (hfound : tokens[miss.position]? = some found)
    (hkind : found.kind ≠ miss.kind) (hlast : ∀ earlier ∈ misses, earlier.position ≤ miss.position)
    (hnew : miss ∉ misses) : Miss.Recorded (misses ++ [miss]) tokens where
  genuine := List.forall_mem_append.mpr
    ⟨h.genuine, List.forall_mem_singleton.mpr ⟨found, hfound, hkind⟩⟩
  ordered := by
    rw [List.pairwise_append]
    refine ⟨h.ordered, List.pairwise_singleton _ _, fun earlier hmem later hlater => ?_⟩
    obtain rfl := List.mem_singleton.mp hlater
    exact hlast earlier hmem
  nodup := by
    rw [List.nodup_append]
    refine ⟨h.nodup, List.nodup_singleton _, fun earlier hmem later hlater heq => ?_⟩
    obtain rfl := List.mem_singleton.mp hlater
    exact hnew (heq ▸ hmem)

/-- The journal and the account of what is expected at the furthest token say the same. -/
structure Progress.Chronicled (progress : Progress) (tokens : List Token) : Prop where
  recorded : Miss.Recorded progress.journal.reverse tokens
  behind   : ∀ miss ∈ progress.journal.reverse, miss.position ≤ progress.furthest
  expected : progress.expected = Miss.kindsThere progress.journal.reverse progress.furthest

namespace Progress

variable {progress : Progress} {tokens : List Token} {token : Token} {kind : Kind}

/-- A miss that is pending changes nothing. -/
theorem miss_of_mem (hmem : kind ∈ progress.pending) : progress.miss kind = progress := by
  have hthere : progress.furthest = progress.pos := by
    by_contra hne
    rw [pending, if_neg hne] at hmem
    exact List.not_mem_nil hmem
  rw [pending_of_eq hthere] at hmem
  have hfocus : progress.refocus = progress := if_neg (by omega)
  rw [miss, hfocus]
  exact if_neg fun hnew => hnew.2 hmem

/-- Any other one is entered, and is pending from then on. -/
theorem miss_of_notMem (h : progress.furthest ≤ progress.pos) (hmem : kind ∉ progress.pending) :
    progress.miss kind =
      ⟨progress.pos, progress.pos, progress.pending ++ [kind],
        ⟨progress.pos, kind⟩ :: progress.journal⟩ := by
  rw [miss, refocus_eq h]
  simp [hmem]

namespace Chronicled

theorem start (tokens : List Token) : Progress.start.Chronicled tokens where
  recorded := .nil tokens
  behind _ hmem := absurd hmem List.not_mem_nil
  expected := rfl

/-- What is pending is what the journal says about the next token. -/
theorem pending_eq (h : progress.Chronicled tokens) (hbehind : progress.furthest ≤ progress.pos) :
    progress.pending = Miss.kindsThere progress.journal.reverse progress.pos := by
  rw [pending]
  split
  · next hthere => rw [h.expected, hthere]
  · next hahead =>
    have hnone : progress.journal.reverse.filter (fun miss => miss.position = progress.pos) =
        [] := by
      rw [List.filter_eq_nil_iff]
      intro miss hmem
      have hle := h.behind miss hmem
      rw [decide_eq_true_eq]
      omega
    rw [Miss.kindsThere, hnone]
    rfl

theorem step (h : progress.Chronicled tokens) : progress.step.Chronicled tokens :=
  ⟨h.recorded, h.behind, h.expected⟩

theorem miss (h : progress.Chronicled tokens) (hbehind : progress.furthest ≤ progress.pos)
    (hfound : tokens[progress.pos]? = some token) (hkind : token.kind ≠ kind) :
    (progress.miss kind).Chronicled tokens := by
  by_cases hmem : kind ∈ progress.pending
  · rw [miss_of_mem hmem]
    exact h
  · have hlast : ∀ earlier ∈ progress.journal.reverse, earlier.position ≤ progress.pos :=
      fun earlier hearlier => Nat.le_trans (h.behind earlier hearlier) hbehind
    -- a kind that is not pending at the next token is nowhere in the journal for it
    have hnew : (⟨progress.pos, kind⟩ : Miss) ∉ progress.journal.reverse := by
      intro hold
      rw [h.pending_eq hbehind] at hmem
      exact hmem (List.mem_map.mpr ⟨_, List.mem_filter.mpr ⟨hold, decide_eq_true rfl⟩, rfl⟩)
    rw [miss_of_notMem hbehind hmem]
    refine ⟨?_, ?_, ?_⟩
    · rw [List.reverse_cons]
      exact h.recorded.concat hfound hkind hlast hnew
    · rw [List.reverse_cons, List.forall_mem_append, List.forall_mem_singleton]
      exact ⟨hlast, Nat.le_refl _⟩
    · show progress.pending ++ [kind] = Miss.kindsThere _ progress.pos
      rw [h.pending_eq hbehind, List.reverse_cons, Miss.kindsThere, Miss.kindsThere,
        List.filter_append, List.map_append]
      simp

/-- Where a kind is expected, the last entry of the journal is about the furthest token. -/
theorem exists_last (h : progress.Chronicled tokens) (hne : progress.expected ≠ []) :
    ∃ last, progress.journal.reverse.getLast? = some last ∧
      last.position = progress.furthest := by
  obtain ⟨kind, hkind⟩ := List.exists_mem_of_ne_nil _ hne
  rw [h.expected, Miss.kindsThere, List.mem_map] at hkind
  obtain ⟨miss, hmiss, -⟩ := hkind
  obtain ⟨hmem, hposition⟩ := List.mem_filter.mp hmiss
  obtain ⟨front, last, hconcat⟩ :=
    (List.eq_nil_or_concat' progress.journal.reverse).resolve_left (List.ne_nil_of_mem hmem)
  have hordered := h.recorded.ordered
  have hbehind := h.behind
  rw [hconcat] at hmem hordered hbehind ⊢
  refine ⟨last, List.getLast?_concat, Nat.le_antisymm (hbehind last (by simp)) ?_⟩
  rw [← of_decide_eq_true hposition]
  -- the last entry is no nearer than the one that is known to be at the furthest token
  rcases List.mem_append.mp hmem with hfront | hlast
  · exact (List.pairwise_append.mp hordered).2.2 miss hfront last (List.mem_singleton_self _)
  · rw [List.mem_singleton.mp hlast]

end Chronicled

/-- Inside a list, every rule keeps the journal in account. -/
theorem kept_chronicled (tokens : List Token) :
    Kept tokens.toArray fun progress =>
      progress.Inside tokens.toArray ∧ progress.Chronicled tokens where
  step h hcurrent hkind := ⟨h.1.step hcurrent hkind, h.2.step⟩
  miss {progress token kind} h hcurrent hkind := by
    obtain ⟨rest, hbefore⟩ := h.1.before
    obtain ⟨next, later, rfl⟩ := hbefore.exists_cons
    -- inside the list the token that was looked at is the one at the position
    rw [Rule.current_eq hbefore] at hcurrent
    obtain rfl : next = token := by simpa using hcurrent
    have hfound := hbefore.getElem?_pos
    rw [List.getElem?_toArray] at hfound
    exact ⟨h.1.missAll [kind], h.2.miss hbefore.behind hfound hkind⟩

end Progress

-- ---------------------------------------------------------------------------
-- The events of a run
-- ---------------------------------------------------------------------------

/-- Of whole lists, the journal is in account to the end. -/
theorem chronicled_ofTokens (tokens : List Token) (file : String) :
    (Derivation.ofTokens tokens file).2.Chronicled (completed tokens file) := by
  have hkeeps := (Progress.kept_chronicled (completed tokens file)).program
  have hinside := Progress.inside_start (completed_ended tokens file)
  exact (hkeeps .start ⟨hinside, .start _⟩).2

/-- What a list that is not matched fails with is the last block of the journal. -/
theorem exists_last_of_ofTokens {tokens : List Token} {file : String} {stop : Stop}
    {progress : Progress} (h : Derivation.ofTokens tokens file = (.error stop, progress)) :
    ∃ last fault found, progress.journal.reverse.getLast? = some last ∧ stop = .fault fault ∧
      fault.ExactAt (completed tokens file) last.position found
        ((Miss.kindsThere progress.journal.reverse last.position).map Kind.describe) := by
  have hchronicled := chronicled_ofTokens tokens file
  have houtcome := ofTokens_outcome tokens file
  rw [h] at hchronicled houtcome
  -- a stop is stuck at the furthest token, and something was expected there
  obtain ⟨hthere, hne, found, rfl, hexact⟩ := Rule.Stuck.exactAt_pos houtcome
  obtain ⟨last, hlast, hposition⟩ := hchronicled.exists_last hne
  refine ⟨last, _, found, hlast, rfl, ?_⟩
  rw [hposition, ← hchronicled.expected, hthere]
  exact hexact

/-- What is told behind the misses: of a program that it was matched and built, with the number of
its statements, and of a fault nothing. -/
def Event.closing (file : String) : Except Stop Program → List Event
  | .ok program => [.matched program.length file, .built program.length]
  | .error _ => []

/--
**The log and the result.** First the number of tokens is told, then the misses, and then, exactly
of a program, that it was matched and built. The misses are recorded as they were. If there is a
fault, it is about the token of the last miss, and the kinds that were missed there are what it says
was expected.
-/
theorem parse_events (source file : String) :
    ∃ misses : List Miss,
      (parse source file).events =
        .tokenized (tokenize source file).length file ::
          (misses.map fun miss => .missed miss.position miss.kind) ++
          Event.closing file (parse source file).outcome ∧
      Miss.Recorded misses (tokenize source file) ∧
      ∀ stop, (parse source file).outcome = .error stop →
        ∃ last fault found, misses.getLast? = some last ∧ stop = .fault fault ∧
          fault.ExactAt (tokenize source file) last.position found
            ((Miss.kindsThere misses last.position).map Kind.describe) := by
  have hchronicled := chronicled_ofTokens (tokenize source file) file
  rw [completed_tokenize] at hchronicled
  have houtcome := matchTokens_outcome (tokenize source file) file
  match hresult : Derivation.ofTokens (tokenize source file) file with
  | (.ok derivation, progress) =>
    rw [hresult] at hchronicled houtcome
    obtain ⟨program, hprogram, hlength⟩ := exists_program_of_matchTokens houtcome
    have hparse := parse_outcome_eq_ok_iff.mpr ⟨derivation, houtcome, hprogram⟩
    -- a list that is matched is built as well, so that no fault comes after the misses
    refine ⟨progress.journal.reverse, ?_, hchronicled.recorded, fun stop hstop => ?_⟩
    · rw [hparse]
      simp [parse, derive, matchTokens, hresult, hprogram, Event.closing, hlength]
    · rw [hparse] at hstop
      exact absurd hstop (by simp)
  | (.error reason, progress) =>
    rw [hresult] at hchronicled houtcome
    have hparse := parse_outcome_eq_error_iff.mpr houtcome
    refine ⟨progress.journal.reverse, ?_, hchronicled.recorded, fun stop hstop => ?_⟩
    · rw [hparse]
      simp [parse, derive, matchTokens, hresult, Event.closing]
    · obtain rfl : reason = stop := Except.error.inj (hparse.symm.trans hstop)
      have hlast := exists_last_of_ofTokens hresult
      rw [completed_tokenize] at hlast
      exact hlast

/-- A keyword alone: all that could begin an operand is missed at the end of the input. -/
theorem parse_events_of_print :
    ∃ misses last, Miss.Recorded misses (tokenize "print" "a") ∧ misses.getLast? = some last ∧
      (tokenize "print" "a")[last.position]? = some (.endOfInput ⟨5, "a"⟩) ∧
      Miss.kindsThere misses last.position = Kind.primaryStarts := by
  have h : (parse "print" "a").outcome = .error (.fault
      ⟨.unexpected (Kind.primaryStarts.map Kind.describe) "end of input", ⟨5, "a"⟩⟩) := by
    decide +kernel
  have htokens : tokenize "print" "a" =
      [⟨.printWord, "print", .ofLength "a" 0 5⟩, .endOfInput ⟨5, "a"⟩] := by decide +kernel
  obtain ⟨misses, -, hrecorded, hfault⟩ := parse_events "print" "a"
  obtain ⟨last, fault, found, hlast, hstop, hexact⟩ := hfault _ h
  obtain rfl := Stop.fault.inj hstop
  have hkinds := (Cause.unexpected.inj hexact.cause).1
  have htoken := hexact.token
  obtain rfl : found = .endOfInput ⟨5, "a"⟩ := by
    have hmem := List.mem_of_getElem? htoken
    rw [htokens, List.mem_cons, List.mem_singleton] at hmem
    rcases hmem with rfl | rfl
    · exact absurd hexact.position (by decide)
    · rfl
  exact ⟨misses, last, hrecorded, hlast, htoken,
    (List.map_injective_iff.mpr fun _ _ => Kind.describe_injective) hkinds.symm⟩

end Reckon
