import Reckon.Proofs.Acceptance

/-!
# Reckon — what a fault says

A list that is not matched has a first token that no sentence goes on with, and the fault is about
this token: it names it, stands where it stands, and lists, without repetition, every kind that a
sentence could have gone on with in its place, and no other. Nothing that was looked for at an
earlier token is left in the list, and nothing is missing from it that another rule would have asked
for, however deep in parentheses and operands the rules were when they stopped.

* `fault_of_matchTokens` — the fault, in terms of the grammar alone.
-/

namespace Reckon

/-- The fault is exact about the token `found`, the one with index `i`: what stands before it can
still become a sentence and with it cannot, and in its place a sentence goes on with exactly the
kinds that are expected. -/
structure Fault.ExactAt (fault : Fault) (tokens : List Token) (i : Nat) (found : Token)
    (expected : List String) : Prop where
  token    : tokens[i]? = some found
  inside   : ∀ earlier ∈ tokens.take i, earlier.kind ≠ .endOfInput
  viable   : Viable ((tokens.take i).map Token.kind)
  dead     : ¬ Viable ((tokens.take (i + 1)).map Token.kind)
  position : fault.position = found.span.start
  cause    : fault.cause = .unexpected expected found.describe
  nodup    : expected.Nodup
  exact    : ∀ text, text ∈ expected ↔ ∃ kind : Kind, kind.describe = text ∧
               Viable ((tokens.take i).map Token.kind ++ [kind])

/-- A list that is not matched is stuck, as seen from its start. -/
theorem stuck_of_matchTokens {tokens : List Token} {file : String} {stop : Stop}
    (h : (matchTokens tokens file).outcome = .error stop) :
    ∃ progress, Rule.Stuck (completed tokens file).toArray .statement []
      (completed tokens file) stop progress := by
  rw [matchTokens_outcome] at h
  have houtcome := ofTokens_outcome tokens file
  match hresult : Derivation.ofTokens tokens file with
  | (.ok derivation, progress) =>
    rw [hresult] at h
    exact absurd h (by simp)
  | (.error reason, progress) =>
    rw [hresult] at h houtcome
    obtain rfl : reason = stop := by simpa using h
    exact ⟨progress, houtcome⟩

/-- What a rule is stuck at, the grammar does not go on with. It is the token that the rule stands
before, where it has missed a kind at least. -/
theorem Rule.Stuck.exactAt_pos {tokens : List Token} {stop : Stop} {progress : Progress}
    (h : Stuck tokens.toArray .statement [] tokens stop progress) :
    progress.furthest = progress.pos ∧ progress.expected ≠ [] ∧
      ∃ found, stop = .fault (progress.fault found) ∧
        (progress.fault found).ExactAt tokens progress.pos found
          (progress.expected.map Kind.describe) := by
  obtain @⟨taken, reached, later, found, _, hsplit, hbefore, hthere, hrun, hgoing, hdead, hexact⟩ :=
    h
  rw [ite_self, Progress.noted_nil reached.nodup_kinds] at hexact
  -- the position counts the tokens that the stages were run over
  have hpos : progress.pos = taken.length := by
    have hlength := hbefore.length_rest
    rw [List.size_toArray, hsplit, List.length_append, List.length_cons] at hlength
    omega
  have hfound : tokens[taken.length]? = some found := by
    rw [hsplit, List.getElem?_append_right (Nat.le_refl _), Nat.sub_self]
    rfl
  have htake : tokens.take taken.length = taken := by
    rw [hsplit]
    exact List.take_left
  have htake' : tokens.take (taken.length + 1) = taken ++ [found] := by
    rw [List.take_add_one, htake, hfound]
    rfl
  refine ⟨hthere, hexact ▸ reached.kinds_ne_nil hgoing, found, rfl, ?_⟩
  rw [hpos]
  refine ⟨hfound, ?_, ?_, ?_, rfl, rfl, ?_, ?_⟩
  · -- an end token can only be read as the last one
    rw [htake]
    exact Stage.kind_ne_endOfInput_of_run? hrun hgoing
  -- what was taken is the beginning of a sentence, since the stages have run over it
  · rw [htake, viable_iff, hrun]
    rfl
  · rw [htake', List.map_append, List.map_singleton, viable_append_singleton_iff hrun]
    exact hdead
  · exact hbefore.nodup.map fun _ _ => Kind.describe_injective
  · intro text
    -- the kinds of the stage are the ones that go on from there, each with a text of its own
    rw [htake, hexact, List.mem_map]
    constructor
    · intro hexpected
      obtain ⟨kind, hmem, rfl⟩ := hexpected
      refine ⟨kind, rfl, ?_⟩
      rw [viable_append_singleton_iff hrun]
      exact hmem
    · intro hnext
      obtain ⟨kind, rfl, hviable⟩ := hnext
      rw [viable_append_singleton_iff hrun] at hviable
      exact ⟨kind, hviable, rfl⟩

/-- So the fault that a rule is stuck with is exact about one of the tokens. -/
theorem Rule.Stuck.exactAt {tokens : List Token} {stop : Stop} {progress : Progress}
    (h : Stuck tokens.toArray .statement [] tokens stop progress) :
    ∃ fault i found expected, stop = .fault fault ∧ fault.ExactAt tokens i found expected := by
  obtain ⟨-, -, found, hstop, hexact⟩ := h.exactAt_pos
  exact ⟨_, _, found, _, hstop, hexact⟩

/--
**Exact faults.** A list that is not matched stops with a fault that is exact about one of its
tokens, the end token among them that completes it.
-/
theorem fault_of_matchTokens {tokens : List Token} {file : String} {stop : Stop}
    (h : (matchTokens tokens file).outcome = .error stop) :
    ∃ fault i found expected, stop = .fault fault ∧
      fault.ExactAt (completed tokens file) i found expected := by
  obtain ⟨progress, hstuck⟩ := stuck_of_matchTokens h
  exact hstuck.exactAt

/-- The list `print ( 1`, where the end of the input comes inside a parenthesis. -/
theorem fault_of_open_paren :
    ∃ stop, (matchTokens [⟨.printWord, "print", .ofLength "a" 0 5⟩,
        ⟨.openParen, "(", .ofLength "a" 6 1⟩, ⟨.number, "1", .ofLength "a" 7 1⟩] "a").outcome =
          .error stop ∧
      ∃ fault i found expected, stop = .fault fault ∧
        fault.ExactAt (completed [⟨.printWord, "print", .ofLength "a" 0 5⟩,
          ⟨.openParen, "(", .ofLength "a" 6 1⟩, ⟨.number, "1", .ofLength "a" 7 1⟩] "a")
          i found expected :=
  ⟨_, rfl, fault_of_matchTokens rfl⟩

end Reckon
