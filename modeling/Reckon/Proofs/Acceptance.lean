import Reckon.Proofs.Descent
import Reckon.Proofs.Recovery
import Reckon.Run

/-!
# Reckon — what is accepted

The rules are greedy and look at one token, the grammar is left-recursive and ambiguous, and yet
they accept the same lists. What the rules find is a derivation that the grammar knows, so what they
accept is a sentence. For the other direction no derivation has to be transformed into another: a
sentence leads the stages behind a statement, whichever way it was derived, and a rule that is stuck
is stuck where the stages do not go on.

Of all derivations of a list, the rules find the one in which unary operators take all they can.

* `mem_language_iff_run?`, `viable_iff` — the grammar in terms of the stages.
* `matchTokens_eq_ok_iff` — which derivation is found.
* `exists_matchTokens_eq_ok_iff` — when there is one.
-/

namespace Reckon

/-- The tokens up to, and without, the first end token. -/
def beforeEnd (tokens : List Token) : List Token :=
  tokens.takeWhile fun token => token.kind ≠ .endOfInput

theorem beforeEnd_append {front : List Token} (h : ∀ token ∈ front, token.kind ≠ .endOfInput)
    (later : List Token) : beforeEnd (front ++ later) = front ++ beforeEnd later :=
  List.takeWhile_append_of_pos fun token hmem => decide_eq_true (h token hmem)

theorem beforeEnd_eq_self {tokens : List Token} (h : ∀ token ∈ tokens, token.kind ≠ .endOfInput) :
    beforeEnd tokens = tokens := by
  have happend := beforeEnd_append h []
  rw [List.append_nil] at happend
  rw [happend]
  exact List.append_nil tokens

theorem beforeEnd_cons_of_eq {token : Token} (h : token.kind = .endOfInput) (later : List Token) :
    beforeEnd (token :: later) = [] := by
  simp [beforeEnd, h]

theorem beforeEnd_concat {front : List Token} (h : ∀ token ∈ front, token.kind ≠ .endOfInput)
    (position : Position) : beforeEnd (front ++ [.endOfInput position]) = front := by
  rw [beforeEnd_append h, beforeEnd_cons_of_eq rfl, List.append_nil]

theorem beforeEnd_cons_of_ne {token : Token} (h : token.kind ≠ .endOfInput) (later : List Token) :
    beforeEnd (token :: later) = token :: beforeEnd later := by
  simp [beforeEnd, h]

theorem kind_ne_of_mem_beforeEnd {tokens : List Token} {token : Token}
    (h : token ∈ beforeEnd tokens) : token.kind ≠ .endOfInput := by
  have hall : (beforeEnd tokens).all (fun token => token.kind ≠ .endOfInput) = true :=
    List.all_takeWhile
  exact of_decide_eq_true (List.all_eq_true.mp hall token h)

/-- A list with an end token is what stands before the first one, that token, and the rest. -/
theorem exists_eq_beforeEnd_append {tokens : List Token} {final : Token} (hmem : final ∈ tokens)
    (hfinal : final.kind = .endOfInput) :
    ∃ last later, tokens = beforeEnd tokens ++ last :: later ∧ last.kind = .endOfInput := by
  induction tokens with
  | nil => exact absurd hmem List.not_mem_nil
  | cons token tokens ih =>
    by_cases htoken : token.kind = .endOfInput
    · refine ⟨token, tokens, ?_, htoken⟩
      rw [beforeEnd_cons_of_eq htoken, List.nil_append]
    · rcases List.mem_cons.mp hmem with rfl | hlater
      · exact absurd hfinal htoken
      · obtain ⟨last, later, heq, hlast⟩ := ih hlater
        refine ⟨last, later, ?_, hlast⟩
        rw [beforeEnd_cons_of_ne htoken, List.cons_append, ← heq]

-- ---------------------------------------------------------------------------
-- The completed list
-- ---------------------------------------------------------------------------

theorem completed_ended (tokens : List Token) (file : String) :
    ∃ last, (completed tokens file).getLast? = some last ∧ last.kind = .endOfInput := by
  unfold completed
  split
  · exact ⟨_, rfl, rfl⟩
  · next last hlast =>
    split
    · next hend => exact ⟨last, hlast, hend⟩
    · exact ⟨_, List.getLast?_concat, rfl⟩

/-- To complete a list changes nothing before its first end token. -/
theorem beforeEnd_completed (tokens : List Token) (file : String) :
    beforeEnd (completed tokens file) = beforeEnd tokens := by
  have hend : ∀ position, beforeEnd [.endOfInput position] = [] :=
    fun position => beforeEnd_cons_of_eq rfl []
  unfold completed
  split
  · next hnone =>
    rw [List.getLast?_eq_none_iff] at hnone
    rw [hnone, hend]
    rfl
  · next last hlast =>
    split
    · rfl
    -- if no end token is added in front of the others, it is added behind the first of them
    · by_cases hall : ∀ token ∈ tokens, token.kind ≠ .endOfInput
      · rw [beforeEnd_concat hall, beforeEnd_eq_self hall]
      · push Not at hall
        obtain ⟨final, hmem, hfinal⟩ := hall
        obtain ⟨first, later, heq, hfirst⟩ := exists_eq_beforeEnd_append hmem hfinal
        have hfront : ∀ token ∈ beforeEnd tokens, token.kind ≠ .endOfInput :=
          fun token => kind_ne_of_mem_beforeEnd
        rw [heq, List.append_assoc, beforeEnd_append hfront, List.cons_append,
          beforeEnd_cons_of_eq hfirst, List.append_nil, ← heq]

/-- A completed list is what stands before the first end token, that token, and the rest. -/
theorem exists_completed_eq (tokens : List Token) (file : String) :
    ∃ last later, completed tokens file = beforeEnd tokens ++ last :: later ∧
      last.kind = .endOfInput := by
  obtain ⟨final, hfinal, hend⟩ := completed_ended tokens file
  have hsplit := exists_eq_beforeEnd_append (List.mem_of_getLast? hfinal) hend
  rw [beforeEnd_completed] at hsplit
  exact hsplit

/-- The derivation has a statement, its tokens in order are those of the list before the first end
token, each is of the kind that its place demands, and no power has a unary operation as its
base. -/
structure Derivation.Covers (derivation : Derivation) (tokens : List Token) : Prop where
  nonempty   : derivation.clauses ≠ []
  yield      : derivation.tokens = beforeEnd tokens
  wellKinded : derivation.WellKinded
  plainBases : derivation.PlainBases

-- ---------------------------------------------------------------------------
-- How a whole list comes out
-- ---------------------------------------------------------------------------

theorem matchTokens_outcome (tokens : List Token) (file : String) :
    (matchTokens tokens file).outcome = (Derivation.ofTokens tokens file).1 := by
  unfold matchTokens
  match Derivation.ofTokens tokens file with
  | (.ok derivation, progress) => rfl
  | (.error reason, progress) => rfl

/-- On a completed list, all of the rules come out as one of them does. -/
theorem ofTokens_outcome (tokens : List Token) (file : String) :
    Rule.Outcome (completed tokens file).toArray .statement [] (completed tokens file)
      (fun derivation _ =>
        derivation.clauses ≠ [] ∧ derivation.WellKinded ∧ derivation.PlainBases ∧
          ∃ last later, completed tokens file = derivation.tokens ++ last :: later ∧
            last.kind = .endOfInput)
      (Derivation.ofTokens tokens file) :=
  Rule.program_outcome (Progress.Before.start_of_ended _ (completed_ended tokens file))

/-- A derivation that is found covers the list. -/
theorem covers_of_matchTokens {tokens : List Token} {file : String} {derivation : Derivation}
    (h : (matchTokens tokens file).outcome = .ok derivation) : derivation.Covers tokens := by
  rw [matchTokens_outcome] at h
  have houtcome := ofTokens_outcome tokens file
  match hresult : Derivation.ofTokens tokens file with
  | (.error reason, progress) =>
    rw [hresult] at h
    exact absurd h (by simp)
  | (.ok found, progress) =>
    rw [hresult] at h houtcome
    obtain rfl : found = derivation := by simpa using h
    obtain ⟨hne, hwell, hplain, last, later, hcompleted, hlast⟩ := houtcome
    refine ⟨hne, ?_, hwell, hplain⟩
    -- what comes before the end token that was added is what comes before the first one
    rw [← beforeEnd_completed tokens file, hcompleted,
      beforeEnd_append (Derivation.endOfInput_notMem hne hwell), beforeEnd_cons_of_eq hlast,
      List.append_nil]

/-- A derivation that covers the list is found. -/
theorem Derivation.Covers.matchTokens {tokens : List Token} {derivation : Derivation}
    (h : derivation.Covers tokens) (file : String) :
    (matchTokens tokens file).outcome = .ok derivation := by
  obtain ⟨last, later, hcompleted, hlast⟩ := exists_completed_eq tokens file
  have hbefore := Progress.Before.start_of_ended _ (completed_ended tokens file)
  rw [hcompleted, ← h.yield] at hbefore
  obtain ⟨reached, hprogram⟩ :=
    Rule.program_recovers h.nonempty h.wellKinded h.plainBases hlast hbefore
  rw [matchTokens_outcome, Derivation.ofTokens, hcompleted, ← h.yield, hprogram]

/-- Where the stages lead behind a statement, no rule is stuck. -/
theorem exists_matchTokens_of_run? {tokens : List Token} (file : String)
    (h : Stage.statement.run? ((beforeEnd tokens).map Token.kind) = some (.operator 0)) :
    ∃ derivation, (matchTokens tokens file).outcome = .ok derivation := by
  rw [matchTokens_outcome]
  have houtcome := ofTokens_outcome tokens file
  match hresult : Derivation.ofTokens tokens file with
  | (.ok derivation, progress) => exact ⟨derivation, rfl⟩
  | (.error reason, progress) =>
    rw [hresult] at houtcome
    obtain @⟨taken, reached, later, found, _, hsplit, -, -, hrun, hgoing, hdead, -⟩ := houtcome
    have htaken := Stage.kind_ne_endOfInput_of_run? hrun hgoing
    have hbefore := beforeEnd_completed tokens file
    rw [hsplit, beforeEnd_append htaken] at hbefore
    by_cases hfound : found.kind = .endOfInput
    · -- all was taken, and behind a statement the end of the input may come
      rw [beforeEnd_cons_of_eq hfound, List.append_nil] at hbefore
      rw [← hbefore, hrun, Option.some.injEq] at h
      rw [h, hfound] at hdead
      exact absurd hdead (by decide)
    · rw [beforeEnd_cons_of_ne hfound] at hbefore
      -- the stages would stop at the token that was found, but they go on to the end
      rw [← hbefore, List.map_append, Stage.run?_append_of_eq hrun, List.map_cons, Stage.run?_cons,
        Stage.next?_eq_none_iff.mpr hdead] at h
      exact absurd h (by simp)

-- ---------------------------------------------------------------------------
-- The grammar in terms of the stages
-- ---------------------------------------------------------------------------

/-- The sentences are the lists of kinds that lead the stages behind a statement: the rules find a
derivation for each of these. -/
theorem mem_language_iff_run? {kinds : List Kind} :
    kinds ∈ grammar.language ↔ Stage.statement.run? kinds = some (.operator 0) := by
  constructor
  · exact run?_of_mem_language
  · intro hrun
    let tokens : List Token := kinds.map fun kind => ⟨kind, "", .emptyAt ⟨0, ""⟩⟩
    have hkinds : tokens.map Token.kind = kinds := by
      rw [List.map_map]
      exact List.map_id kinds
    have htokens : Stage.statement.run? (tokens.map Token.kind) = some (.operator 0) := by
      rw [hkinds, hrun]
    have hself := beforeEnd_eq_self (Stage.kind_ne_endOfInput_of_run? htokens (by decide))
    obtain ⟨derivation, hderivation⟩ := exists_matchTokens_of_run? "" (by rw [hself, htokens])
    have hcovers := covers_of_matchTokens hderivation
    rw [← hkinds, ← hself, ← hcovers.yield]
    exact Derivation.mem_language hcovers.nonempty hcovers.wellKinded

/-- What can still become a sentence is what does not stop the stages. -/
theorem viable_iff {kinds : List Kind} :
    Viable kinds ↔ (Stage.statement.run? kinds).isSome := by
  constructor
  · exact Viable.run?_isSome
  · intro hsome
    obtain ⟨stage, hstage⟩ := Option.isSome_iff_exists.mp hsome
    obtain ⟨later, hlater⟩ := stage.exists_run?_finished
    have hall : Stage.statement.run? (kinds ++ later) = some .finished := by
      rw [Stage.run?_append_of_eq hstage, hlater]
    obtain ⟨sentence, heq, hsentence⟩ := (Stage.run?_eq_finished_iff (by simp)).mp hall
    exact ⟨sentence, mem_language_iff_run?.mpr hsentence, later, heq⟩

/-- What may come next is what the stage behind a list goes on with. -/
theorem viable_append_singleton_iff {kinds : List Kind} {stage : Stage} {kind : Kind}
    (h : Stage.statement.run? kinds = some stage) :
    Viable (kinds ++ [kind]) ↔ kind ∈ stage.kinds := by
  rw [viable_iff, Stage.run?_append_of_eq h, Stage.mem_kinds_iff, Stage.run?_cons]
  cases stage.next? kind <;> simp

-- ---------------------------------------------------------------------------
-- What is found, and when
-- ---------------------------------------------------------------------------

/--
**The derivation that is found.** A list is matched as a derivation exactly if the derivation covers
it, and no list is covered by two derivations.
-/
theorem matchTokens_eq_ok_iff (tokens : List Token) (file : String) :
    (∀ derivation, (matchTokens tokens file).outcome = .ok derivation ↔
      derivation.Covers tokens) ∧
    {derivation : Derivation | derivation.Covers tokens}.Subsingleton := by
  refine ⟨fun derivation => ⟨covers_of_matchTokens, fun h => h.matchTokens file⟩, ?_⟩
  intro first hfirst second hsecond
  have hfound := Derivation.Covers.matchTokens hfirst file
  rw [Derivation.Covers.matchTokens hsecond file] at hfound
  exact (Except.ok.inj hfound).symm

/--
**The language that is accepted.** A list is matched exactly if the kinds before its first end token
are a sentence of the grammar, however many derivations that sentence has.
-/
theorem exists_matchTokens_eq_ok_iff (tokens : List Token) (file : String) :
    (∃ derivation, (matchTokens tokens file).outcome = .ok derivation) ↔
      (beforeEnd tokens).map Token.kind ∈ grammar.language := by
  constructor
  · intro hexists
    obtain ⟨derivation, h⟩ := hexists
    have hcovers := covers_of_matchTokens h
    rw [← hcovers.yield]
    exact Derivation.mem_language hcovers.nonempty hcovers.wellKinded
  · intro h
    exact exists_matchTokens_of_run? file (run?_of_mem_language h)

end Reckon
