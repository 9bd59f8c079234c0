import Mathlib.Data.List.Induction
import Reckon.Proofs.Descent
import Reckon.Proofs.Moves

/-!
# Reckon — what is kept between calls

The rules and the parts that they are made of can also be called one by one, in any order and on any
place of a list, and calls go on after others have failed. What is missed in one call is still there
in the next. This is a story of many calls, but the account of it is short: at every moment, also in
the middle of a call, how far the match has come is told by the moves made so far. The fault that
would be reported is about the furthest token at which a kind was missed, and names the kinds missed
there, each once, the first one first.

* `tallied_after` — the progress in terms of the moves, by one lemma for each of the two moves.
* `Makes.inside`, `Use.inside` — at no moment is the end of the input passed.
* `PartsAt` — which moves the parts of rules add, each of them with its answer.
* `use_accounted` — what is known at every moment of every use.
-/

namespace Reckon

-- ---------------------------------------------------------------------------
-- The misses among the moves
-- ---------------------------------------------------------------------------

namespace Move

/-- The misses among the moves, in order, each with the number of tokens taken before it. -/
def missesFrom (index : Nat) : List Move → List Miss
  | [] => []
  | .take :: later => missesFrom (index + 1) later
  | .miss kind :: later => ⟨index, kind⟩ :: missesFrom index later

/-- The misses among moves that begin at the first token. -/
def misses (moves : List Move) : List Miss := missesFrom 0 moves

/-- The second half of the moves is counted on from the tokens that the first half took. -/
theorem missesFrom_append (index : Nat) (first second : List Move) :
    missesFrom index (first ++ second) =
      missesFrom index first ++ missesFrom (index + first.count .take) second := by
  induction first generalizing index with
  | nil => rfl
  | cons move first ih =>
    cases move with
    | take =>
      rw [List.cons_append, missesFrom, missesFrom, ih, List.count_cons_self, Nat.add_right_comm,
        Nat.add_assoc]
    | miss kind =>
      rw [List.cons_append, missesFrom, missesFrom, ih, List.count_cons_of_ne (by simp)]
      rfl

/-- To take a token is no miss. -/
theorem misses_concat_take (moves : List Move) : misses (moves ++ [.take]) = misses moves := by
  rw [misses, missesFrom_append]
  exact List.append_nil _

/-- A miss stands behind all tokens that were taken before it. -/
theorem misses_concat_miss (moves : List Move) (kind : Kind) :
    misses (moves ++ [.miss kind]) = misses moves ++ [⟨moves.count .take, kind⟩] := by
  rw [misses, missesFrom_append, Nat.zero_add]
  rfl

end Move

namespace Miss

/-- The greatest index of a miss, 0 if there is none. -/
def furthest (misses : List Miss) : Nat := ((misses.map position).max?).getD 0

/-- The kinds missed at the index, each once, in the order in which they were first missed. -/
def kindsAt (misses : List Miss) (index : Nat) : List Kind :=
  ((misses.filter fun miss => miss.position = index).map kind).eraseDups

/-- The furthest position is the greatest one. -/
theorem furthest_eq_foldl (misses : List Miss) :
    furthest misses = (misses.map position).foldl max 0 := by
  rw [List.foldl_max, Nat.zero_max]
  rfl

/-- A further miss may be the furthest one. -/
theorem furthest_concat (misses : List Miss) (miss : Miss) :
    furthest (misses ++ [miss]) = max (furthest misses) miss.position := by
  rw [furthest_eq_foldl, furthest_eq_foldl, List.map_append, List.foldl_append]
  rfl

/-- No bound of all positions is below the furthest one. -/
theorem furthest_le {misses : List Miss} {bound : Nat}
    (h : ∀ miss ∈ misses, miss.position ≤ bound) : furthest misses ≤ bound := by
  induction misses using List.reverseRecOn with
  | nil => exact Nat.zero_le bound
  | append_singleton misses miss ih =>
    rw [List.forall_mem_append] at h
    rw [furthest_concat, Nat.max_le]
    exact ⟨ih h.1, h.2 miss (List.mem_singleton_self _)⟩

/-- No miss is beyond the furthest one. -/
theorem position_le_furthest {misses : List Miss} :
    ∀ miss ∈ misses, miss.position ≤ furthest misses := by
  induction misses using List.reverseRecOn with
  | nil => exact fun _ hmem => absurd hmem List.not_mem_nil
  | append_singleton misses last ih =>
    rw [furthest_concat, List.forall_mem_append, List.forall_mem_singleton]
    exact ⟨fun miss hmem => Nat.le_trans (ih miss hmem) (Nat.le_max_left _ _), Nat.le_max_right _ _⟩

/-- Nothing was missed beyond the furthest miss. -/
theorem kindsAt_of_lt {misses : List Miss} {index : Nat} (h : furthest misses < index) :
    kindsAt misses index = [] := by
  have hnone : misses.filter (fun miss => miss.position = index) = [] := by
    rw [List.filter_eq_nil_iff]
    intro miss hmem
    have hle := position_le_furthest miss hmem
    rw [decide_eq_true_eq]
    omega
  rw [kindsAt, hnone]
  rfl

/-- A kind that is missed a second time at a token is not listed again. -/
theorem kindsAt_concat (misses : List Miss) (index : Nat) (kind : Kind) :
    kindsAt (misses ++ [⟨index, kind⟩]) index =
      if kind ∈ kindsAt misses index then kindsAt misses index
      else kindsAt misses index ++ [kind] := by
  have hlast : [(⟨index, kind⟩ : Miss)].filter (fun miss => miss.position = index) =
      [⟨index, kind⟩] := by simp
  have hone : [kind].eraseDups = [kind] := rfl
  -- a kind is listed once if it is missed at all
  have hmem : kind ∈ kindsAt misses index ↔
      kind ∈ (misses.filter fun miss => miss.position = index).map Miss.kind :=
    List.mem_eraseDups
  by_cases hold : kind ∈ kindsAt misses index
  · rw [if_pos hold, kindsAt, List.filter_append, hlast, List.map_append, List.eraseDups_append]
    simp [List.removeAll, hmem.mp hold, kindsAt]
  · rw [if_neg hold, kindsAt, List.filter_append, hlast, List.map_append, List.eraseDups_append]
    simp [List.removeAll, mt hmem.mpr hold, kindsAt, hone]

end Miss

-- ---------------------------------------------------------------------------
-- The progress in terms of the moves
-- ---------------------------------------------------------------------------

/-- How far a match has come is what its moves amount to. -/
structure Progress.Tallied (progress : Progress) (moves : List Move) : Prop where
  pos      : progress.pos = moves.count .take
  furthest : progress.furthest = Miss.furthest (Move.misses moves)
  expected : progress.expected =
               Miss.kindsAt (Move.misses moves) (Miss.furthest (Move.misses moves))
  behind   : ∀ miss ∈ Move.misses moves, miss.position ≤ progress.pos

namespace Progress.Tallied

variable {progress : Progress} {moves : List Move}

/-- No miss is beyond the next token. -/
theorem furthest_le_pos (h : progress.Tallied moves) : progress.furthest ≤ progress.pos := by
  rw [h.furthest]
  exact Miss.furthest_le h.behind

/-- The kinds pending at the next token are those missed with as many tokens taken. -/
theorem pending_eq (h : progress.Tallied moves) :
    progress.pending = Miss.kindsAt (Move.misses moves) progress.pos := by
  rw [pending]
  split
  · next hthere => rw [h.expected, ← h.furthest, hthere]
  · next hahead =>
    have hle := h.furthest_le_pos
    rw [Miss.kindsAt_of_lt]
    rw [← h.furthest]
    omega

/-- To take a token leaves the tally as it is, but for the position. -/
theorem take (h : progress.Tallied moves) : progress.step.Tallied (moves ++ [.take]) where
  pos := by
    rw [List.count_append, ← h.pos]
    rfl
  furthest := by
    rw [Move.misses_concat_take]
    exact h.furthest
  expected := by
    rw [Move.misses_concat_take]
    exact h.expected
  behind := by
    rw [Move.misses_concat_take]
    exact fun miss hmem => Nat.le_succ_of_le (h.behind miss hmem)

/-- A miss is entered behind the others. If it is further on than all of them, those that were kept
so far are dropped. -/
theorem miss (h : progress.Tallied moves) (kind : Kind) :
    (progress.miss kind).Tallied (moves ++ [.miss kind]) := by
  have hle := h.furthest_le_pos
  -- the miss is made at the next token, which is as far as any miss before it
  have hfurthest : Miss.furthest (Move.misses (moves ++ [.miss kind])) = progress.pos := by
    rw [Move.misses_concat_miss, Miss.furthest_concat, ← h.furthest, ← h.pos]
    exact Nat.max_eq_right hle
  refine ⟨?_, ?_, ?_, ?_⟩
  · rw [miss_pos, h.pos, List.count_append, List.count_singleton]
    rfl
  · rw [miss_furthest hle, hfurthest]
  · rw [hfurthest, miss_expected hle, h.pending_eq, Move.misses_concat_miss, ← h.pos,
      Miss.kindsAt_concat]
  · rw [miss_pos, Move.misses_concat_miss, List.forall_mem_append, List.forall_mem_singleton]
    exact ⟨h.behind, Nat.le_of_eq h.pos.symm⟩

end Progress.Tallied

/-- However many moves were made, the progress is what they amount to. -/
theorem tallied_after (moves : List Move) : (Progress.start.after moves).Tallied moves := by
  induction moves using List.reverseRecOn with
  | nil => exact ⟨rfl, rfl, rfl, fun _ hmem => absurd hmem List.not_mem_nil⟩
  | append_singleton moves move ih =>
    rw [Progress.after_append]
    cases move with
    | take => exact ih.take
    | miss kind => exact ih.miss kind

-- ---------------------------------------------------------------------------
-- No move past the end of the input
-- ---------------------------------------------------------------------------

/-- The progress stands before the rest of a list with an end token, and passed no end token. -/
structure Progress.Inside (progress : Progress) (tokens : Array Token) : Prop where
  before  : ∃ rest, progress.Before tokens rest
  unended : ∀ token ∈ tokens.toList.take progress.pos, token.kind ≠ .endOfInput

/-- At the start nothing is passed. -/
theorem Progress.inside_start {tokens : List Token}
    (hended : ∃ last, tokens.getLast? = some last ∧ last.kind = .endOfInput) :
    Progress.start.Inside tokens.toArray where
  before := ⟨tokens, Before.start_of_ended tokens hended⟩
  unended := by simp [start]

namespace Progress.Inside

variable {tokens : Array Token} {progress : Progress}

/-- A step from a token that does not end the list leads to a token again. -/
theorem step {token : Token} (h : progress.Inside tokens)
    (hcurrent : Rule.current tokens progress = (.ok token, progress))
    (hkind : token.kind ≠ .endOfInput) : progress.step.Inside tokens := by
  obtain ⟨rest, hbefore⟩ := h.before
  obtain ⟨next, later, rfl⟩ := hbefore.exists_cons
  rw [Rule.current_eq hbefore] at hcurrent
  obtain rfl : next = token := by simpa using hcurrent
  refine ⟨⟨later, hbefore.step hkind⟩, ?_⟩
  have hnext : tokens.toList[progress.pos]? = some next := by
    rw [Array.getElem?_toList]
    exact hbefore.getElem?_pos
  show ∀ token ∈ tokens.toList.take (progress.pos + 1), token.kind ≠ .endOfInput
  rw [List.take_add_one, hnext, List.forall_mem_append]
  exact ⟨h.unended, List.forall_mem_singleton.mpr hkind⟩

theorem missAll (h : progress.Inside tokens) (kinds : List Kind) :
    (progress.missAll kinds).Inside tokens where
  before := by
    obtain ⟨rest, hbefore⟩ := h.before
    exact ⟨rest, hbefore.missAll kinds⟩
  unended := by
    rw [missAll_pos]
    exact h.unended

end Progress.Inside

/-- Moves in two parts stay inside the list if the first part does, and then the second one. -/
theorem Progress.inside_of_prefix_append {tokens : Array Token} {progress : Progress}
    {first second early : List Move}
    (hfirst : ∀ early, early <+: first → (progress.after early).Inside tokens)
    (hsecond : ∀ early, early <+: second → ((progress.after first).after early).Inside tokens)
    (hearly : early <+: first ++ second) : (progress.after early).Inside tokens := by
  obtain ⟨later, hsplit⟩ := hearly
  rcases List.append_eq_append_iff.mp hsplit with ⟨between, hin, -⟩ | ⟨between, rfl, hin⟩
  · exact hfirst early ⟨between, hin.symm⟩
  · rw [after_append]
    exact hsecond between ⟨later, hin.symm⟩

namespace Rule

variable {tokens : Array Token} {α : Type}

/-- A rule that begins inside the list is inside it after each of its moves. -/
theorem Makes.inside {rule : Rule α} {progress : Progress} {moves early : List Move}
    {result : Except Stop α × Progress} (h : Makes tokens rule progress moves result)
    (hinside : progress.Inside tokens) (hearly : early <+: moves) :
    (progress.after early).Inside tokens := by
  induction h generalizing early with
  | pure | halt | current | failure | reach | stay =>
    obtain rfl := List.prefix_nil.mp hearly
    exact hinside
  | take hcurrent hkind =>
    cases early with
    | nil => exact hinside
    | cons move early =>
      obtain ⟨rfl, hnil⟩ := List.cons_prefix_cons.mp hearly
      obtain rfl := List.prefix_nil.mp hnil
      exact hinside.step hcurrent hkind
  | miss kinds progress =>
    -- so early a part of the misses is the misses of some of the kinds
    obtain ⟨later, hsplit⟩ := hearly
    obtain ⟨first, second, rfl, rfl, -⟩ := List.map_eq_append_iff.mp hsplit.symm
    rw [Progress.after_misses]
    exact hinside.missAll first
  | @bind _ _ _ _ _ _ first _ _ _ hrule hnext ihrule ihnext =>
    have hreached := ihrule hinside (List.prefix_refl first)
    refine Progress.inside_of_prefix_append (fun _ => ihrule hinside) (fun _ hlater => ?_) hearly
    rw [← hrule.reached] at hreached ⊢
    exact ihnext hreached hlater
  | stop hrule ih => exact ih hinside hearly

-- ---------------------------------------------------------------------------
-- Calls from outside
-- ---------------------------------------------------------------------------

/-- What can be called from outside: the parts of rules, with any kinds, among them those of one
kind or of one level of operators; and the rules for phrases and statements. -/
inductive Offered : {α : Type} → Rule α → Prop
  | current : Offered current
  | advance : Offered advance
  | accept (kinds : List Kind) : Offered (accept kinds)
  | expect (kind : Kind) : Offered (expect kind)
  | miss (kind : Kind) : Offered (miss [kind])
  | failure : Offered failure
  | exp : Offered exp
  | sum : Offered sum
  | term : Offered term
  | factor : Offered factor
  | anyPrimary : Offered anyPrimary
  | identifier : Offered identifier
  | numeral : Offered numeral
  | parens : Offered (parens exp)
  | unary : Offered (unary factor)
  | clause : Offered clause
  | declare : Offered declare
  | assign : Offered assign
  | print : Offered print

/-- What rules inherit, and what holds of phrases, holds of all that is offered. -/
theorem Offered.holds {holds : {α : Type} → Rule α → Prop} {rule : Rule α}
    (hoffered : Offered rule) (h : Inherited holds) (hfailure : holds Rule.failure)
    (hphrase : ∀ n ≤ 3, holds (phrase n)) : holds rule := by
  have hexp : holds Rule.exp := hphrase 3 (Nat.le_refl 3)
  have hfactor : holds Rule.factor := hphrase 0 (Nat.zero_le 3)
  cases hoffered with
  | current => exact h.current
  | advance => exact h.advance
  | accept kinds => exact h.composed.accept kinds
  | expect kind => exact h.composed.expectAny [kind]
  | miss kind => exact h.miss [kind]
  | failure => exact hfailure
  | exp => exact hexp
  | sum => exact hphrase 2 (by decide)
  | term => exact hphrase 1 (by decide)
  | factor => exact hfactor
  | anyPrimary => exact h.composed.primary hexp hfactor
  | identifier => exact h.composed.identifier
  | numeral => exact h.composed.numeral
  | parens => exact h.composed.parens hexp
  | unary => exact h.composed.unary hfactor
  | clause => exact h.composed.clause hexp
  | declare => exact h.composed.declare hexp
  | assign => exact h.composed.assign hexp
  | print => exact h.composed.print hexp

theorem Offered.traceable {rule : Rule α} (h : Offered rule) : rule.Traceable :=
  h.holds inherited_traceable traceable_failure fun n _ => bounded_traceable.phrase n

/-- Before the end of the input, the rule matches or stops with a fault, and stands before the end
then. -/
def Answers (tokens : Array Token) (rule : Rule α) : Prop :=
  ∀ {progress : Progress} {rest : List Token}, progress.Before tokens rest →
    (∀ reason, (rule tokens progress).1 = .error reason → ∃ fault, reason = .fault fault) ∧
      ∃ rest, (rule tokens progress).2.Before tokens rest

/-- There is a fault to be told, at the furthest token. -/
theorem failure_eq {progress : Progress} {rest : List Token}
    (h : progress.Before tokens rest) :
    ∃ found, tokens[progress.furthest]? = some found ∧
      failure tokens progress = (.ok (progress.fault found), progress) := by
  have hlength := h.length_rest
  have hpos := h.length_pos
  have hbehind := h.behind
  have hlt : progress.furthest < tokens.size := by omega
  refine ⟨tokens[progress.furthest], Array.getElem?_eq_getElem hlt, ?_⟩
  rw [failure, Array.getElem?_eq_getElem hlt]
  rfl

/-- The second rule begins inside the list, since the first one stays there. -/
theorem Answers.bind {β : Type} {rule : Rule α} {next : α → Rule β} (hrule : rule.Answers tokens)
    (hnext : ∀ a, (next a).Answers tokens) : (rule >>= next).Answers tokens := by
  intro progress rest h
  obtain ⟨hstop, rest', hreached⟩ := hrule h
  rw [bind_apply]
  match hresult : rule tokens progress with
  | (.ok a, reached) =>
    rw [hresult] at hreached
    exact hnext a hreached
  | (.error reason, reached) =>
    rw [hresult] at hstop hreached
    exact ⟨fun _ heq => hstop _ (congrArg _ (Except.error.inj heq)), rest', hreached⟩

/-- To advance never leads past the last token. -/
theorem answers_advance : advance.Answers tokens := by
  intro progress rest h
  obtain ⟨token, later, rfl⟩ := h.exists_cons
  have hcurrent := current_eq h
  by_cases hkind : token.kind = .endOfInput
  · rw [advance_stay hcurrent hkind]
    exact ⟨by simp, _, h⟩
  · rw [advance_take hcurrent hkind]
    exact ⟨by simp, later, h.step hkind⟩

/-- A fault is told at the furthest miss, which is at a token of the list. -/
theorem answers_failure : failure.Answers tokens := by
  intro progress rest h
  obtain ⟨found, -, hfailure⟩ := failure_eq h
  rw [hfailure]
  exact ⟨by simp, rest, h⟩

theorem inherited_answers (tokens : Array Token) :
    Inherited fun {α} (rule : Rule α) => rule.Answers tokens where
  pure a _ rest h := ⟨by simp, rest, h⟩
  bind := Answers.bind
  current := by
    intro progress rest h
    obtain ⟨token, later, rfl⟩ := h.exists_cons
    rw [current_eq h]
    exact ⟨by simp, _, h⟩
  advance := answers_advance
  miss kinds _ rest h := ⟨by simp [miss], rest, h.missAll kinds⟩
  fail := answers_failure.bind fun fault _ rest h => ⟨by simp [stop], rest, h⟩

/-- The rules for phrases answer, by what is known of their outcome. -/
theorem answers_phrase {n : Nat} (hn : n ≤ 3) : (phrase n).Answers tokens := by
  intro progress rest h
  have houtcome := phrase_reads hn 0 h (Nat.le_refl rest.length)
  match hresult : phrase n tokens progress with
  | (.ok x, reached) =>
    rw [hresult] at houtcome
    obtain ⟨-, -, later, htaken⟩ := houtcome
    exact ⟨by simp, later, htaken.before⟩
  | (.error reason, reached) =>
    rw [hresult] at houtcome
    obtain @⟨_, _, later, found, _, -, hbefore, -, -, -, -, -⟩ := houtcome
    exact ⟨by simp, _, hbefore⟩

theorem Offered.answers {rule : Rule α} (h : Offered rule) : rule.Answers tokens :=
  h.holds (inherited_answers tokens) answers_failure fun _ hn => answers_phrase hn

-- ---------------------------------------------------------------------------
-- One call after the other
-- ---------------------------------------------------------------------------

/-- Rules that are offered were called one after the other on the same list, whatever became of
those before, and made these moves in all. -/
inductive Use (tokens : Array Token) : List Move → Progress → Prop
  | start : Use tokens [] .start
  | call {α : Type} {rule : Rule α} {earlier moves : List Move} {progress : Progress}
      {result : Except Stop α × Progress} (huse : Use tokens earlier progress)
      (hoffered : Offered rule) (hmakes : Makes tokens rule progress moves result) :
      Use tokens (earlier ++ moves) result.2

namespace Use

variable {moves early : List Move} {progress : Progress}

/-- What the calls leave behind is told by their moves. -/
theorem eq_after (h : Use tokens moves progress) : progress = Progress.start.after moves := by
  induction h with
  | start => rfl
  | call huse hoffered hmakes ih => rw [Progress.after_append, ← ih, hmakes.reached]

/-- At no moment was the end of the input passed. -/
theorem inside (h : Use tokens moves progress)
    (hended : ∃ last, tokens.toList.getLast? = some last ∧ last.kind = .endOfInput)
    (hearly : early <+: moves) : (Progress.start.after early).Inside tokens := by
  induction h generalizing early with
  | start =>
    obtain rfl := List.prefix_nil.mp hearly
    exact Progress.inside_start hended
  | @call _ _ earlier _ _ _ huse hoffered hmakes ih =>
    have hreached := ih (List.prefix_refl earlier)
    refine Progress.inside_of_prefix_append (fun _ => ih) (fun _ hlater => ?_) hearly
    rw [← huse.eq_after] at hreached ⊢
    exact hmakes.inside hreached hlater

end Use

end Rule

-- ---------------------------------------------------------------------------
-- What is known at every moment
-- ---------------------------------------------------------------------------

/-- The account of the moves made so far: the next token is in the list, and no end token before
it. The fault that there is to tell is about the token of the furthest miss, or about the first
token if there is none, and what is expected are the kinds that were missed there. -/
structure Progress.Accounted (progress : Progress) (tokens : List Token) (moves : List Move) :
    Prop where
  inside  : progress.pos < tokens.length
  unended : ∀ token ∈ tokens.take progress.pos, token.kind ≠ .endOfInput
  behind  : progress.furthest ≤ progress.pos
  nodup   : progress.expected.Nodup
  failure : ∃ found, tokens[Miss.furthest (Move.misses moves)]? = some found ∧
              Rule.failure tokens.toArray progress =
                (.ok ⟨.unexpected ((Miss.kindsAt (Move.misses moves)
                    (Miss.furthest (Move.misses moves))).map Kind.describe) found.describe,
                  found.span.start⟩, progress)

/-- The moves account for a progress that is inside the list. -/
theorem Progress.Tallied.accounted {progress : Progress} {tokens : List Token} {moves : List Move}
    (h : progress.Tallied moves) (hinside : progress.Inside tokens.toArray) :
    progress.Accounted tokens moves := by
  obtain ⟨rest, hbefore⟩ := hinside.before
  have hlength := hbefore.length_rest
  have hpos := hbefore.length_pos
  rw [List.size_toArray] at hlength
  obtain ⟨found, hfound, hfailure⟩ := Rule.failure_eq hbefore
  rw [List.getElem?_toArray, h.furthest] at hfound
  rw [Progress.fault, h.expected] at hfailure
  exact ⟨by omega, hinside.unended, hbefore.behind, hbefore.nodup, found, hfound, hfailure⟩

/-- Called after the earlier moves, the rule answers so and makes these moves: they lead to all that
it leaves behind. -/
structure Rule.Adds {α : Type} (tokens : Array Token) (earlier : List Move) (progress : Progress)
    (rule : Rule α) (answer : Except Stop α) (moves : List Move) : Prop where
  answers : rule tokens progress = (answer, Progress.start.after (earlier ++ moves))
  makes   : Makes tokens rule progress moves (rule tokens progress)

/-- What the parts of rules do at the next token. A token that is taken is one move, unless it ends
the input. To look for kinds takes the token if it is of one of them; else it misses each of them,
and nothing more, so that the token is still the next one. -/
structure Rule.PartsAt (tokens : Array Token) (token : Token) (moves : List Move)
    (progress : Progress) : Prop where
  next     : tokens[progress.pos]? = some token
  current  : Adds tokens moves progress current (.ok token) []
  advance  : Adds tokens moves progress advance (.ok token) (Move.taking token)
  miss     : ∀ kinds, Adds tokens moves progress (miss kinds) (.ok ()) (kinds.map .miss)
  accepted : ∀ kinds, token.kind ∈ kinds →
               Adds tokens moves progress (accept kinds) (.ok (some token)) (Move.taking token)
  refused  : ∀ kinds, token.kind ∉ kinds →
               Adds tokens moves progress (accept kinds) (.ok none) (kinds.map .miss) ∧
                 (accept kinds tokens progress).2.pos = progress.pos
  expected : ∀ kind, token.kind = kind →
               Adds tokens moves progress (expect kind) (.ok token) (Move.taking token)
  failed   : ∀ kind, token.kind ≠ kind → ∃ fault,
               Adds tokens moves progress (expect kind) (.error (.fault fault)) [.miss kind]

/-- What a rule makes is what it adds to the moves that led to where it begins. -/
theorem Rule.Makes.adds {α : Type} {tokens : Array Token} {rule : Rule α} {answer : Except Stop α}
    {earlier moves : List Move} {progress : Progress}
    (hprogress : progress = Progress.start.after earlier)
    (h : Makes tokens rule progress moves (answer, progress.after moves)) :
    Adds tokens earlier progress rule answer moves where
  answers := by rw [h.eq, hprogress, Progress.after_append]
  makes := by
    rw [h.eq]
    exact h

/-- Inside the list there is a next token, and the parts of rules do at it what they should. -/
theorem Rule.partsAt_of_inside {tokens : Array Token} {moves : List Move} {progress : Progress}
    (hprogress : progress = Progress.start.after moves) (hinside : progress.Inside tokens) :
    ∃ token, PartsAt tokens token moves progress := by
  obtain ⟨rest, hbefore⟩ := hinside.before
  obtain ⟨token, later, rfl⟩ := hbefore.exists_cons
  have hcurrent := current_eq hbefore
  -- a miss leaves the place, so there is a fault to be told after it
  have hfailure (kind : Kind) := failure_eq (hinside.missAll [kind]).before.choose_spec
  refine ⟨token, hbefore.getElem?_pos, (makes_current hcurrent).adds hprogress,
    (makes_advance hcurrent).adds hprogress,
    fun kinds => (makes_miss tokens progress kinds).adds hprogress,
    fun kinds hmem => (makes_accept_some hcurrent hmem).adds hprogress,
    fun kinds hmem => ⟨(makes_accept_none hcurrent hmem).adds hprogress, ?_⟩,
    fun kind hkind => (makes_expectAny_some hcurrent (by simp [hkind])).adds hprogress,
    fun kind hkind => ?_⟩
  · rw [(makes_accept_none hcurrent hmem).eq, Progress.after_misses]
    exact Progress.missAll_pos progress kinds
  · obtain ⟨found, -, hfault⟩ := hfailure kind
    rw [← Progress.after_misses] at hfault
    exact ⟨_, (makes_expectAny_none hcurrent (by simp [hkind]) hfault).adds hprogress⟩

/--
**The account of a use.** Whatever is called on a list with an end token, one call after the other,
every moment of it is accounted for by the moves made up to then, and the next token is never moved
back. Anything that is offered can be called next. It makes some moves, which are counted with those
before, and it matches or stops with a fault. To take a token is one move, and to look for kinds in
vain is to miss each of them: nothing else is moved by it.
-/
theorem use_accounted {tokens : List Token}
    (hended : ∃ last, tokens.getLast? = some last ∧ last.kind = .endOfInput)
    {moves : List Move} {progress : Progress} (huse : Rule.Use tokens.toArray moves progress) :
    progress = Progress.start.after moves ∧
    (∀ early, early <+: moves → (Progress.start.after early).Accounted tokens early) ∧
    (∀ early late, early <+: late → late <+: moves →
      (Progress.start.after early).pos ≤ (Progress.start.after late).pos) ∧
    (∀ {α : Type} (rule : Rule α), rule.Offered →
      (∃ later, Rule.Makes tokens.toArray rule progress later (rule tokens.toArray progress) ∧
        Rule.Use tokens.toArray (moves ++ later) (rule tokens.toArray progress).2) ∧
      ∀ reason, (rule tokens.toArray progress).1 = .error reason →
        ∃ fault, reason = .fault fault) ∧
    ∃ token, Rule.PartsAt tokens.toArray token moves progress := by
  have hinside := huse.inside hended (List.prefix_refl moves)
  rw [← huse.eq_after] at hinside
  refine ⟨huse.eq_after, ?_, ?_, ?_, Rule.partsAt_of_inside huse.eq_after hinside⟩
  · intro early hearly
    exact (tallied_after early).accounted (huse.inside hended hearly)
  -- only `take` moves the next token, and it moves it on
  · intro early late hearly _
    rw [(tallied_after early).pos, (tallied_after late).pos]
    exact hearly.sublist.count_le .take
  · intro α rule hoffered
    obtain ⟨later, hmakes⟩ := hoffered.traceable tokens.toArray progress
    obtain ⟨rest, hbefore⟩ := hinside.before
    exact ⟨⟨later, hmakes, huse.call hoffered hmakes⟩, (hoffered.answers hbefore).1⟩

/-- On `print` and the end of the input: a miss, a step, and two misses at the end, one of them in
vain. -/
theorem use_accounted_of_print :
    ∃ tokens : List Token, tokens.map Token.kind = [.printWord, .endOfInput] ∧
      (∃ last, tokens.getLast? = some last ∧ last.kind = .endOfInput) ∧
      Rule.Use tokens.toArray [.miss .letWord, .take, .miss .number, .miss .number]
        ⟨1, 1, [.number], [⟨1, .number⟩, ⟨0, .letWord⟩]⟩ ∧
      Progress.Accounted ⟨1, 1, [.number], [⟨1, .number⟩, ⟨0, .letWord⟩]⟩ tokens
        [.miss .letWord, .take, .miss .number, .miss .number] := by
  let tokens : List Token := [⟨.printWord, "print", .ofLength "a" 0 5⟩, .endOfInput ⟨5, "a"⟩]
  have hended : ∃ last, tokens.getLast? = some last ∧ last.kind = .endOfInput := ⟨_, rfl, rfl⟩
  have hmiss : Rule.Use tokens.toArray [.miss .letWord] ⟨0, 0, [.letWord], [⟨0, .letWord⟩]⟩ :=
    .call .start (.miss .letWord) (.miss [.letWord] .start)
  have htake : Rule.Use tokens.toArray [.miss .letWord, .take]
      ⟨1, 0, [.letWord], [⟨0, .letWord⟩]⟩ :=
    hmiss.call .advance (.take rfl (by decide))
  have hend : Rule.Use tokens.toArray [.miss .letWord, .take, .miss .number]
      ⟨1, 1, [.number], [⟨1, .number⟩, ⟨0, .letWord⟩]⟩ :=
    htake.call (.miss .number) (.miss [.number] _)
  have huse : Rule.Use tokens.toArray [.miss .letWord, .take, .miss .number, .miss .number]
      ⟨1, 1, [.number], [⟨1, .number⟩, ⟨0, .letWord⟩]⟩ :=
    hend.call (.miss .number) (.miss [.number] _)
  exact ⟨tokens, rfl, hended, huse, (use_accounted hended huse).2.1 _ (List.prefix_refl _)⟩

end Reckon
