import Reckon.Derivation.Rule

/-!
# Reckon — standing before the rest of a list

On a list with an end token, the rules only ever see what is left of it: the progress *stands
before* a rest that is not empty and that ends in an end token. All that the rules are made of is
restated here for a progress that does. A token is taken off the rest unless it is an end token, and
a miss leaves the rest alone.

What was missed before counts only as long as the progress has not moved: the kinds *pending* at the
next token are those missed there, and a step forward drops them. So a stop always speaks of the
token at which it happens.

* `pending_missAll` — misses add to what is pending, in the order in which they come.
* `accept_of_mem`, `accept_of_notMem` — taking a token of one of several kinds, and missing it.
* `expectAny_of_notMem`, `reject_eq` — the two ways to stop.
-/

namespace Reckon

namespace Progress

/-- The kinds missed at the next token so far. -/
def pending (progress : Progress) : List Kind :=
  if progress.furthest = progress.pos then progress.expected else []

/-- The kinds of a list, and behind them those of another one that it does not have yet. -/
def noted (kinds more : List Kind) : List Kind :=
  more.foldl (fun kinds kind => if kind ∈ kinds then kinds else kinds ++ [kind]) kinds

/-- The fault of a stop at the furthest token. -/
def fault (progress : Progress) (found : Token) : Fault :=
  ⟨.unexpected (progress.expected.map Kind.describe) found.describe, found.span.start⟩

/-- The progress stands before `rest`, which ends in an end token, and has missed nothing further
on. -/
structure Before (tokens : Array Token) (progress : Progress) (rest : List Token) : Prop where
  left   : tokens.toList.drop progress.pos = rest
  ended  : ∃ last, rest.getLast? = some last ∧ last.kind = .endOfInput
  behind : progress.furthest ≤ progress.pos
  nodup  : progress.expected.Nodup

-- ---------------------------------------------------------------------------
-- Misses
-- ---------------------------------------------------------------------------

theorem pending_of_eq {progress : Progress} (h : progress.furthest = progress.pos) :
    progress.pending = progress.expected := by
  rw [pending, if_pos h]

/-- A step forward drops what was missed before it. -/
theorem pending_step {progress : Progress} (h : progress.furthest ≤ progress.pos) :
    progress.step.pending = [] := by
  have hne : progress.step.furthest ≠ progress.step.pos := by
    show progress.furthest ≠ progress.pos + 1
    omega
  rw [pending, if_neg hne]

/-- To refocus is to keep what is pending. -/
theorem refocus_eq {progress : Progress} (h : progress.furthest ≤ progress.pos) :
    progress.refocus =
      { progress with furthest := progress.pos, expected := progress.pending } := by
  obtain ⟨pos, furthest, expected, journal⟩ := progress
  have hle : furthest ≤ pos := h
  by_cases hlt : furthest < pos
  · have hne : furthest ≠ pos := by omega
    simp [refocus, pending, hlt, hne]
  · obtain rfl : furthest = pos := by omega
    simp [refocus, pending]

/-- A miss takes no token. -/
theorem miss_pos (progress : Progress) (kind : Kind) : (progress.miss kind).pos = progress.pos := by
  have hrefocus : progress.refocus.pos = progress.pos := by
    unfold refocus
    split <;> rfl
  unfold miss
  dsimp only
  split
  · exact hrefocus
  · exact hrefocus

/-- After a miss nothing is further than the next token. -/
theorem miss_furthest {progress : Progress} (h : progress.furthest ≤ progress.pos) (kind : Kind) :
    (progress.miss kind).furthest = progress.pos := by
  rw [miss, refocus_eq h]
  dsimp only
  split <;> rfl

theorem miss_behind {progress : Progress} (h : progress.furthest ≤ progress.pos) (kind : Kind) :
    (progress.miss kind).furthest ≤ (progress.miss kind).pos := by
  rw [miss_pos]
  exact Nat.le_of_eq (miss_furthest h kind)

/-- A kind is noted at the next token once, behind those that are pending there. -/
theorem miss_expected {progress : Progress} (h : progress.furthest ≤ progress.pos) (kind : Kind) :
    (progress.miss kind).expected =
      if kind ∈ progress.pending then progress.pending else progress.pending ++ [kind] := by
  rw [miss, refocus_eq h]
  dsimp only
  by_cases hmem : kind ∈ progress.pending <;> simp [hmem]

/-- After a miss all that is expected is pending. -/
theorem pending_miss {progress : Progress} (h : progress.furthest ≤ progress.pos) (kind : Kind) :
    (progress.miss kind).pending = (progress.miss kind).expected := by
  apply pending_of_eq
  rw [miss_furthest h, miss_pos]

/-- No kind is pending twice. -/
theorem nodup_pending {progress : Progress} (h : progress.expected.Nodup) :
    progress.pending.Nodup := by
  rw [pending]
  split
  · exact h
  · exact List.nodup_nil

/-- And no miss makes it so. -/
theorem miss_nodup {progress : Progress} (h : progress.furthest ≤ progress.pos)
    (hnodup : progress.expected.Nodup) (kind : Kind) : (progress.miss kind).expected.Nodup := by
  have hpending := nodup_pending hnodup
  rw [miss_expected h]
  split
  · exact hpending
  · next hnot =>
    rw [List.nodup_append]
    refine ⟨hpending, by simp, ?_⟩
    intro a ha b hb heq
    rw [List.mem_singleton] at hb
    exact hnot (hb ▸ heq ▸ ha)

/-- Nor do several misses take a token. -/
theorem missAll_pos (progress : Progress) (kinds : List Kind) :
    (progress.missAll kinds).pos = progress.pos := by
  induction kinds generalizing progress with
  | nil => rfl
  | cons kind kinds ih =>
    show ((progress.miss kind).missAll kinds).pos = progress.pos
    rw [ih, miss_pos]

/-- Kinds are noted one after the other. -/
theorem noted_append (kinds first second : List Kind) :
    noted kinds (first ++ second) = noted (noted kinds first) second :=
  List.foldl_append

/-- Kinds that are all new are added as they stand. -/
theorem noted_eq_append {kinds more : List Kind} (h : (kinds ++ more).Nodup) :
    noted kinds more = kinds ++ more := by
  induction more generalizing kinds with
  | nil => exact (List.append_nil kinds).symm
  | cons kind more ih =>
    rw [List.append_cons] at h
    have hnew : kind ∉ kinds := by
      intro hmem
      have hfront := (List.nodup_append.mp h).1
      exact (List.nodup_append.mp hfront).2.2 kind hmem kind (List.mem_singleton_self kind) rfl
    show noted (if kind ∈ kinds then kinds else kinds ++ [kind]) more = _
    rw [if_neg hnew, ih h, List.append_cons kinds kind more]

/-- Kinds that are there already add nothing. -/
theorem noted_self (kinds : List Kind) : noted kinds kinds = kinds := by
  -- for all kinds that are there, so that the induction leaves the list alone to which they are
  -- added
  have hsubset : ∀ more, (∀ kind ∈ more, kind ∈ kinds) → noted kinds more = kinds := by
    intro more
    induction more with
    | nil => exact fun _ => rfl
    | cons kind more ih =>
      intro h
      obtain ⟨hkind, hmore⟩ := List.forall_mem_cons.mp h
      show noted (if kind ∈ kinds then kinds else kinds ++ [kind]) more = kinds
      rw [if_pos hkind, ih hmore]
  exact hsubset kinds fun _ h => h

/-- A list that begins with what is there already adds the rest of it. -/
theorem noted_of_prefix {stale kinds : List Kind} (h : stale <+: kinds) (hnodup : kinds.Nodup) :
    noted stale kinds = kinds := by
  obtain ⟨more, rfl⟩ := h
  rw [noted_append, noted_self, noted_eq_append hnodup]

/-- To nothing they are added as they stand. -/
theorem noted_nil {kinds : List Kind} (h : kinds.Nodup) : noted [] kinds = kinds :=
  noted_of_prefix List.nil_prefix h

/-- Misses add to what is pending, in the order in which they come. -/
theorem pending_missAll {progress : Progress} (h : progress.furthest ≤ progress.pos)
    (kinds : List Kind) : (progress.missAll kinds).pending = noted progress.pending kinds := by
  induction kinds generalizing progress with
  | nil => rfl
  | cons kind kinds ih =>
    show ((progress.miss kind).missAll kinds).pending = _
    rw [ih (miss_behind h kind), pending_miss h, miss_expected h]
    rfl

/-- No miss is further than the next token. -/
theorem missAll_furthest_le {progress : Progress} (h : progress.furthest ≤ progress.pos)
    (kinds : List Kind) : (progress.missAll kinds).furthest ≤ progress.pos := by
  induction kinds generalizing progress with
  | nil => exact h
  | cons kind kinds ih =>
    have hmiss := miss_behind h kind
    have hlater := ih hmiss
    rw [miss_pos] at hlater
    exact hlater

/-- If there is any, the furthest is at the next token. -/
theorem missAll_furthest {progress : Progress} (h : progress.furthest ≤ progress.pos)
    {kinds : List Kind} (hne : kinds ≠ []) :
    (progress.missAll kinds).furthest = (progress.missAll kinds).pos := by
  induction kinds generalizing progress with
  | nil => exact absurd rfl hne
  | cons kind kinds ih =>
    have hmiss := miss_behind h kind
    cases kinds with
    | nil =>
      show (progress.miss kind).furthest = (progress.miss kind).pos
      rw [miss_furthest h, miss_pos]
    | cons second kinds => exact ih hmiss (List.cons_ne_nil _ _)

/-- No kind is noted twice, however often it is missed. -/
theorem missAll_nodup {progress : Progress} (h : progress.furthest ≤ progress.pos)
    (hnodup : progress.expected.Nodup) (kinds : List Kind) :
    (progress.missAll kinds).expected.Nodup := by
  induction kinds generalizing progress with
  | nil => exact hnodup
  | cons kind kinds ih =>
    have hmiss := miss_behind h kind
    exact ih hmiss (miss_nodup h hnodup kind)

-- ---------------------------------------------------------------------------
-- Steps and misses before a rest
-- ---------------------------------------------------------------------------

namespace Before

variable {tokens : Array Token} {progress : Progress} {rest : List Token} {token : Token}

/-- At the start the whole list is left. -/
theorem start_of_ended (tokens : List Token)
    (h : ∃ last, tokens.getLast? = some last ∧ last.kind = .endOfInput) :
    start.Before tokens.toArray tokens where
  left := rfl
  ended := h
  behind := Nat.le_refl 0
  nodup := List.nodup_nil

/-- There is always a next token. -/
theorem exists_cons (h : progress.Before tokens rest) : ∃ token later, rest = token :: later := by
  obtain ⟨last, hlast, -⟩ := h.ended
  cases rest with
  | nil => simp at hlast
  | cons token later => exact ⟨token, later, rfl⟩

theorem length_pos (h : progress.Before tokens rest) : 0 < rest.length := by
  obtain ⟨token, later, rfl⟩ := h.exists_cons
  exact Nat.succ_pos _

/-- The next token is the one at the position. -/
theorem getElem?_pos (h : progress.Before tokens (token :: rest)) :
    tokens[progress.pos]? = some token := by
  have hdrop : (tokens.toList.drop progress.pos)[0]? = some token := by rw [h.left]; rfl
  rw [List.getElem?_drop] at hdrop
  simpa using hdrop

/-- The rest is as long as the list is behind the position. -/
theorem length_rest (h : progress.Before tokens rest) :
    rest.length = tokens.size - progress.pos := by
  rw [← h.left, List.length_drop, Array.length_toList]

/-- What is behind a token that is not the end of the input still ends in an end token. -/
theorem step (h : progress.Before tokens (token :: rest)) (hkind : token.kind ≠ .endOfInput) :
    progress.step.Before tokens rest where
  left := by
    show tokens.toList.drop (progress.pos + 1) = rest
    rw [← List.drop_drop, h.left, List.drop_one, List.tail_cons]
  ended := by
    obtain ⟨last, hlast, hend⟩ := h.ended
    cases rest with
    | nil =>
      rw [List.getLast?_singleton, Option.some.injEq] at hlast
      exact absurd (hlast ▸ hend) hkind
    | cons second rest => exact ⟨last, by rwa [List.getLast?_cons_cons] at hlast, hend⟩
  behind := by
    show progress.furthest ≤ progress.pos + 1
    have := h.behind
    omega
  nodup := h.nodup

/-- A miss leaves the rest alone. -/
theorem missAll (h : progress.Before tokens rest) (kinds : List Kind) :
    (progress.missAll kinds).Before tokens rest where
  left := by rw [missAll_pos]; exact h.left
  ended := h.ended
  behind := by rw [missAll_pos]; exact missAll_furthest_le h.behind kinds
  nodup := missAll_nodup h.behind h.nodup kinds

end Before

end Progress

-- ---------------------------------------------------------------------------
-- The parts of rules before a rest
-- ---------------------------------------------------------------------------

namespace Rule

variable {tokens : Array Token} {progress : Progress} {rest : List Token} {token : Token}
  {kinds : List Kind} {α : Type}

theorem reach_bind (next : Nat → Rule α) (tokens : Array Token) (progress : Progress) :
    (reach >>= next) tokens progress = next (tokens.size - progress.pos + 1) tokens progress := rfl

theorem miss_bind (kinds : List Kind) (next : Unit → Rule α) (tokens : Array Token)
    (progress : Progress) :
    (miss kinds >>= next) tokens progress = next () tokens (progress.missAll kinds) := rfl

/-- To look is to see the first token of the rest. -/
theorem current_eq (h : progress.Before tokens (token :: rest)) :
    current tokens progress = (.ok token, progress) := by
  have hlength := h.length_rest
  rw [List.length_cons] at hlength
  have hmin : min progress.pos (tokens.size - 1) = progress.pos := by omega
  rw [current, hmin, h.getElem?_pos]

/-- A token of one of the kinds is taken off the rest. -/
theorem accept_of_mem (h : progress.Before tokens (token :: rest)) (hmem : token.kind ∈ kinds)
    (hkind : token.kind ≠ .endOfInput) :
    accept kinds tokens progress = (.ok (some token), progress.step) := by
  simp [accept, advance, bind_apply, current_eq h, hmem, hkind]

/-- Otherwise all of them are missed, and the rest stays. -/
theorem accept_of_notMem (h : progress.Before tokens (token :: rest))
    (hmem : token.kind ∉ kinds) :
    accept kinds tokens progress = (.ok none, progress.missAll kinds) := by
  simp [accept, bind_apply, current_eq h, hmem, miss]

/-- A rule that stops right after a miss names the token that it missed the kinds at. -/
theorem fail_eq (h : progress.Before tokens (token :: rest))
    (hthere : progress.furthest = progress.pos) :
    (fail : Rule α) tokens progress = (.error (.fault (progress.fault token)), progress) := by
  have hfound : tokens[progress.furthest]? = some token := by rw [hthere]; exact h.getElem?_pos
  simp [fail, failure, stop, bind_apply, hfound, Progress.fault]

/-- Where nothing can begin, all beginnings are missed and named. -/
theorem reject_eq (h : progress.Before tokens (token :: rest)) (hne : kinds ≠ []) :
    (reject kinds : Rule α) tokens progress =
      (.error (.fault ((progress.missAll kinds).fault token)), progress.missAll kinds) := by
  have hfail := fail_eq (α := α) (h.missAll kinds) (Progress.missAll_furthest h.behind hne)
  rw [reject, bind_apply]
  exact hfail

/-- To insist on what is there is to take it. -/
theorem expectAny_of_mem (h : progress.Before tokens (token :: rest)) (hmem : token.kind ∈ kinds)
    (hkind : token.kind ≠ .endOfInput) :
    expectAny kinds tokens progress = (.ok token, progress.step) := by
  simp [expectAny, bind_apply, accept_of_mem h hmem hkind]

/-- To insist on what is not there is to stop, at this token. -/
theorem expectAny_of_notMem (h : progress.Before tokens (token :: rest))
    (hmem : token.kind ∉ kinds) (hne : kinds ≠ []) :
    expectAny kinds tokens progress =
      (.error (.fault ((progress.missAll kinds).fault token)), progress.missAll kinds) := by
  have hfail := fail_eq (α := Token) (h.missAll kinds) (Progress.missAll_furthest h.behind hne)
  rw [expectAny, bind_apply, accept_of_notMem h hmem]
  exact hfail

/-- A single kind is taken in the same way. -/
theorem expect_of_eq {kind : Kind} (h : progress.Before tokens (token :: rest))
    (hkind : token.kind = kind) (hend : kind ≠ .endOfInput) :
    expect kind tokens progress = (.ok token, progress.step) :=
  expectAny_of_mem h (by simp [hkind]) (hkind ▸ hend)

/-- And missed in the same way. -/
theorem expect_of_ne {kind : Kind} (h : progress.Before tokens (token :: rest))
    (hkind : token.kind ≠ kind) :
    expect kind tokens progress =
      (.error (.fault ((progress.missAll [kind]).fault token)), progress.missAll [kind]) :=
  expectAny_of_notMem h (by simp [hkind]) (List.cons_ne_nil _ _)

/-- The end of the input is recognised, and stays. -/
theorem expect_endOfInput (h : progress.Before tokens (token :: rest))
    (hkind : token.kind = .endOfInput) :
    expect .endOfInput tokens progress = (.ok token, progress) := by
  simp [expect, expectAny, accept, advance, bind_apply, current_eq h, hkind]

end Rule

end Reckon
