import Reckon.Proofs.Before
import Reckon.Proofs.Stage

/-!
# Reckon — how a rule comes out

A rule comes out in one of two ways. Either it has *taken* some tokens off the front of the rest,
and then what is pending are the kinds that would have let it go on. Or it is *stuck*: the stages
lead from where the rule began to some token, but not past it, and what is expected there is exactly
what the stages go on with, in the same order. There is no third way: on a list with an end token no
rule asks for a token that is not there, and none goes on without end.

An outcome is said relative to where the rule began. A rule that is made of others passes their
outcomes on, after it has put in front what was taken before (`Stuck.after`), so each rule is
described once and used by its description.

Kinds that were already pending when a rule began are *stale*. They matter only if it stops before
its first token.

* `Outcome.bind` — one rule after the other.
* `Outcome.after` — an outcome as seen from further ahead.
* `Stuck.here`, `expect_outcome` — the ways to stop.
-/

namespace Reckon

namespace Rule

/-- The rule stopped at a token that the stages do not go on with, and expected exactly the kinds
that they do go on with, in their order. -/
inductive Stuck (tokens : Array Token) (stage : Stage) (stale : List Kind) (rest : List Token) :
    Stop → Progress → Prop
  | intro (taken : List Token) (reached : Stage) {later : List Token} {found : Token}
      {progress : Progress}
      (split  : rest = taken ++ found :: later)
      (before : progress.Before tokens (found :: later))
      (there  : progress.furthest = progress.pos)
      (run    : stage.run? (taken.map Token.kind) = some reached)
      (going  : reached ≠ .finished)
      (dead   : found.kind ∉ reached.kinds)
      (exact  : progress.expected =
                  Progress.noted (if taken = [] then stale else []) reached.kinds) :
      Stuck tokens stage stale rest (.fault (progress.fault found)) progress

/-- The rule took `taken`, now stands before `later`, and would have gone on with any of the
`continuations`, which it looked for in this order. -/
structure Taken (tokens : Array Token) (rest taken : List Token) (continuations : List Kind)
    (later : List Token) (progress : Progress) : Prop where
  split  : rest = taken ++ later
  before : progress.Before tokens later
  exact  : progress.pending = continuations
  stop   : ∀ token ∈ later.head?, token.kind ∉ continuations

/-- The rule came out as `post` says, or is stuck. -/
def Outcome {α : Type} (tokens : Array Token) (stage : Stage) (stale : List Kind)
    (rest : List Token) (post : α → Progress → Prop) : Except Stop α × Progress → Prop
  | (.ok a, progress) => post a progress
  | (.error reason, progress) => Stuck tokens stage stale rest reason progress

variable {α β : Type} {tokens : Array Token} {stage middle : Stage} {stale stale' : List Kind}
  {rest front later : List Token} {token : Token} {progress : Progress}

-- ---------------------------------------------------------------------------
-- Outcomes of rules made of rules
-- ---------------------------------------------------------------------------

/-- One rule after the other: the second goes on where the first one left off. -/
theorem Outcome.bind {rule : Rule α} {next : α → Rule β} {post : α → Progress → Prop}
    {post' : β → Progress → Prop}
    (h : Outcome tokens stage stale rest post (rule tokens progress))
    (hnext : ∀ a reached, post a reached →
      Outcome tokens stage stale rest post' (next a tokens reached)) :
    Outcome tokens stage stale rest post' ((rule >>= next) tokens progress) := by
  rw [bind_apply]
  match hrule : rule tokens progress with
  | (.ok a, reached) =>
    rw [hrule] at h
    exact hnext a reached h
  | (.error reason, reached) =>
    rw [hrule] at h
    exact h

/-- What is stuck behind some tokens is stuck, as seen from before them. Kinds that were pending
between the two are no longer stale if the stages begin with them what they go on with. -/
theorem Stuck.after {reason : Stop} (h : Stuck tokens middle stale later reason progress)
    (hne : front ≠ []) (hrun : stage.run? (front.map Token.kind) = some middle)
    (hstale : stale <+: middle.kinds) :
    Stuck tokens stage stale' (front ++ later) reason progress := by
  obtain @⟨taken, reached, _, _, _, hsplit, hbefore, hthere, hreached, hgoing, hdead, hexact⟩ := h
  have hfront : front ++ taken ≠ [] := fun hnil => hne (List.append_eq_nil_iff.mp hnil).1
  refine .intro (front ++ taken) reached ?_ hbefore hthere ?_ hgoing hdead ?_
  · rw [hsplit, List.append_assoc]
  · rw [List.map_append, Stage.run?_append_of_eq hrun]
    exact hreached
  · rw [hexact, if_neg hfront, Progress.noted_nil reached.nodup_kinds]
    split
    · next hnil =>
      -- nothing was taken in between, so the stage is still the one between the two
      rw [hnil, List.map_nil, Stage.run?_nil, Option.some.injEq] at hreached
      exact Progress.noted_of_prefix (hreached ▸ hstale) reached.nodup_kinds
    · exact Progress.noted_nil reached.nodup_kinds

/-- An outcome as seen from further ahead. -/
theorem Outcome.after {result : Except Stop α × Progress} {post : α → Progress → Prop}
    (h : Outcome tokens middle stale later post result) (hne : front ≠ [])
    (hrun : stage.run? (front.map Token.kind) = some middle) (hstale : stale <+: middle.kinds) :
    Outcome tokens stage stale' (front ++ later) post result := by
  match result with
  | (.ok a, reached) => exact h
  | (.error reason, reached) => exact Stuck.after h hne hrun hstale

-- ---------------------------------------------------------------------------
-- Taking one token
-- ---------------------------------------------------------------------------

/-- A token taken for itself leaves nothing pending. -/
theorem Taken.one (h : progress.Before tokens (token :: later)) (hkind : token.kind ≠ .endOfInput) :
    Taken tokens (token :: later) [token] [] later progress.step where
  split := rfl
  before := h.step hkind
  exact := Progress.pending_step h.behind
  stop := by
    intro next _
    exact List.not_mem_nil

theorem Taken.after {taken : List Token} {continuations : List Kind} (front : List Token)
    (h : Taken tokens rest taken continuations later progress) :
    Taken tokens (front ++ rest) (front ++ taken) continuations later progress where
  split := by rw [h.split, List.append_assoc]
  before := h.before
  exact := h.exact
  stop := h.stop

/-- Some kinds were missed, and the stages go on with these and what was pending. -/
theorem Stuck.here (taken : List Token) {kinds : List Kind}
    (h : progress.Before tokens (token :: later)) (hne : kinds ≠ [])
    (hsplit : rest = taken ++ token :: later)
    (hrun : stage.run? (taken.map Token.kind) = some middle) (hgoing : middle ≠ .finished)
    (hdead : token.kind ∉ middle.kinds)
    (hexact : Progress.noted progress.pending kinds =
      Progress.noted (if taken = [] then stale else []) middle.kinds) :
    Stuck tokens stage stale rest (.fault ((progress.missAll kinds).fault token))
      (progress.missAll kinds) := by
  have hthere := Progress.missAll_furthest h.behind hne
  refine .intro taken middle hsplit (h.missAll kinds) hthere hrun hgoing hdead ?_
  rw [← Progress.pending_of_eq hthere, Progress.pending_missAll h.behind, hexact]

/-- Where a single kind is due, it is taken or the rule is stuck. -/
theorem expect_outcome {kind : Kind} (h : progress.Before tokens later)
    (hpending : progress.pending = []) (hkind : kind ≠ .endOfInput) (hne : front ≠ [])
    (hrun : stage.run? (front.map Token.kind) = some middle) (hmiddle : middle.kinds = [kind]) :
    Outcome tokens stage stale (front ++ later)
      (fun token reached => ∃ later', later = token :: later' ∧ token.kind = kind ∧
        reached.Before tokens later' ∧ reached.pending = [])
      (expect kind tokens progress) := by
  obtain ⟨token, later, rfl⟩ := h.exists_cons
  by_cases htoken : token.kind = kind
  · have hend : token.kind ≠ .endOfInput := htoken ▸ hkind
    rw [expect_of_eq h htoken hkind]
    exact ⟨later, rfl, htoken, h.step hend, Progress.pending_step h.behind⟩
  · rw [expect_of_ne h htoken]
    have hgoing : middle ≠ .finished := by
      rintro rfl
      exact absurd hmiddle (by simp [Stage.kinds])
    refine Stuck.here front h (List.cons_ne_nil _ _) rfl hrun hgoing (by simp [hmiddle, htoken]) ?_
    rw [hpending, hmiddle, if_neg hne]

end Rule

end Reckon
