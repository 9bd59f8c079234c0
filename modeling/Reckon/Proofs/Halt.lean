import Reckon.Proofs.Diagnosis

/-!
# Reckon — where a list goes wrong

What a list fails with can be told without the rules. Read from its start, its kinds lead the stages
to a token that they do not go on with, and the list *halts* there. The fault names this token and
all that the stage goes on with, in the order of the stage. Neither derivations nor the places of
other tokens come into it, and nothing behind the token does.

So two lists that halt in the same stage, at tokens that read the same, fail alike.

* `Halt.unique` — a list halts at most once.
* `exists_halt_of_matchTokens`, `Halt.matchTokens` — a list fails exactly if it halts, and with
  what.
-/

namespace Reckon

/-- The fault at a token that is found where the stage goes on with others. -/
def Stage.fault (stage : Stage) (found : Token) : Fault :=
  ⟨.unexpected (stage.kinds.map Kind.describe) found.describe, found.span.start⟩

/-- The stages come to the token `found`, right behind `taken`, and do not go on with it. -/
structure Halt (tokens taken : List Token) (stage : Stage) (found : Token) : Prop where
  split : ∃ later, tokens = taken ++ found :: later
  run   : Stage.statement.run? (taken.map Token.kind) = some stage
  going : stage ≠ .finished
  dead  : found.kind ∉ stage.kinds

namespace Halt

variable {tokens taken taken' front rest : List Token} {stage stage' : Stage}
  {found found' : Token}

/-- Nothing was read behind the end of the input. -/
theorem endOfInput_notMem (h : Halt tokens taken stage found) :
    ∀ token ∈ taken, token.kind ≠ .endOfInput :=
  Stage.kind_ne_endOfInput_of_run? h.run h.going

theorem getElem? (h : Halt tokens taken stage found) : tokens[taken.length]? = some found := by
  obtain ⟨later, rfl⟩ := h.split
  rw [List.getElem?_append_right (Nat.le_refl _), Nat.sub_self]
  rfl

/-- The stages are nowhere led past the token at which the list halts. -/
theorem exists_eq_append (h : Halt tokens taken stage found) (hsplit : tokens = front ++ rest)
    (hrun : (Stage.statement.run? (front.map Token.kind)).isSome) :
    ∃ between, taken = front ++ between := by
  obtain ⟨later, htokens⟩ := h.split
  rw [htokens, List.append_eq_append_iff] at hsplit
  rcases hsplit with ⟨between, hfront, hbetween⟩ | ⟨between, htaken, -⟩
  · cases between with
    | nil => exact ⟨[], by rw [hfront, List.append_nil, List.append_nil]⟩
    | cons first between =>
      -- then `found` was read
      obtain ⟨rfl, -⟩ := List.cons.inj hbetween
      rw [hfront, List.map_append, Stage.run?_append_of_eq h.run, List.map_cons, Stage.run?_cons,
        Stage.next?_eq_none_iff.mpr h.dead] at hrun
      exact absurd hrun Bool.false_ne_true
  · exact ⟨between, htaken⟩

/-- A list halts at most once. -/
theorem unique (h : Halt tokens taken stage found) (h' : Halt tokens taken' stage' found') :
    taken = taken' ∧ stage = stage' ∧ found = found' := by
  obtain ⟨later, hsplit⟩ := h.split
  obtain ⟨later', hsplit'⟩ := h'.split
  obtain ⟨between, hbetween⟩ := h.exists_eq_append hsplit' (by rw [h'.run]; rfl)
  obtain ⟨between', hbetween'⟩ := h'.exists_eq_append hsplit (by rw [h.run]; rfl)
  obtain rfl : taken = taken' := by
    have hlength := congrArg List.length hbetween
    have hlength' := congrArg List.length hbetween'
    rw [List.length_append] at hlength hlength'
    obtain rfl : between = [] := List.eq_nil_of_length_eq_zero (by omega)
    rw [hbetween, List.append_nil]
  rw [hsplit, List.append_cancel_left_eq] at hsplit'
  have hstage := h.run.symm.trans h'.run
  exact ⟨rfl, Option.some.inj hstage, (List.cons.inj hsplit').1⟩

end Halt

-- ---------------------------------------------------------------------------
-- Lists that are not matched
-- ---------------------------------------------------------------------------

variable {tokens taken : List Token} {file : String} {stage : Stage} {found : Token}

/-- A list that is not matched halts, and stops with the fault that this makes. -/
theorem exists_halt_of_matchTokens {stop : Stop}
    (h : (matchTokens tokens file).outcome = .error stop) :
    ∃ taken stage found, Halt (completed tokens file) taken stage found ∧
      stop = .fault (stage.fault found) := by
  obtain ⟨progress, hstuck⟩ := stuck_of_matchTokens h
  obtain @⟨taken, stage, later, found, _, hsplit, -, -, hrun, hgoing, hdead, hexact⟩ := hstuck
  rw [ite_self, Progress.noted_nil stage.nodup_kinds] at hexact
  refine ⟨taken, stage, found, ⟨⟨later, hsplit⟩, hrun, hgoing, hdead⟩, ?_⟩
  rw [Progress.fault, hexact]
  rfl

/-- A list that a derivation covers leads the stages behind a statement. -/
theorem Derivation.Covers.run? {derivation : Derivation} (h : derivation.Covers tokens) :
    Stage.statement.run? ((beforeEnd tokens).map Token.kind) = some (.operator 0) := by
  rw [← h.yield]
  exact run?_of_mem_language (Derivation.mem_language h.nonempty h.wellKinded)

/-- So it is read to its end token, and does not halt. -/
theorem Derivation.Covers.not_halt {derivation : Derivation} (h : derivation.Covers tokens) :
    ¬ Halt (completed tokens file) taken stage found := by
  intro hhalt
  obtain ⟨last, later, hcompleted, hlast⟩ := exists_completed_eq tokens file
  have hrun : Stage.statement.run? ((beforeEnd tokens ++ [last]).map Token.kind) =
      some .finished := by
    rw [List.map_append, Stage.run?_append_of_eq h.run?, List.map_singleton, hlast]
    rfl
  have hsplit : completed tokens file = (beforeEnd tokens ++ [last]) ++ later := by
    rw [hcompleted, List.append_cons]
  obtain ⟨between, rfl⟩ := hhalt.exists_eq_append hsplit (by rw [hrun]; rfl)
  exact hhalt.endOfInput_notMem last (by simp) hlast

/-- A list that halts is not matched, and stops with the fault that this makes. -/
theorem Halt.matchTokens (h : Halt (completed tokens file) taken stage found) :
    (matchTokens tokens file).outcome = .error (.fault (stage.fault found)) := by
  cases houtcome : (Reckon.matchTokens tokens file).outcome with
  | ok derivation => exact absurd h (covers_of_matchTokens houtcome).not_halt
  | error stop =>
    obtain ⟨taken', stage', found', h', rfl⟩ := exists_halt_of_matchTokens houtcome
    obtain ⟨-, rfl, rfl⟩ := h.unique h'
    rfl

end Reckon
