import Reckon.Derivation.Progress
import Reckon.Fault

/-!
# Reckon — rules

A rule matches the front of what is left of a token list. It reads the list, which never changes,
and moves the progress; it answers with what it matched or with the reason why it stopped. Also a
rule that stops leaves its progress behind: its misses are not forgotten.

The reasons to stop are a fault of the source and two ways in which a list without an end token
can go wrong. Neither of these two happens on a list that ends in one, which no rule moves past.

* `bind_apply` — one rule after the other: the second goes on where the first one left off.
* `accept_apply` — what taking a token of one of several kinds does in each case.
-/

namespace Reckon

/-- Why a rule stopped. -/
inductive Stop
  /-- The tokens do not match. -/
  | fault (fault : Fault)
  /-- A token was asked for at an index that the list does not have. -/
  | outOfRange
  /-- The rule would go on without end, because it takes the last token again and again. -/
  | unending
deriving DecidableEq, Repr

/-- What matches the front of what is left of a token list, as an `α`. -/
def Rule (α : Type) : Type := Array Token → Progress → Except Stop α × Progress

namespace Rule

instance : Monad Rule where
  pure a := fun _ progress => (.ok a, progress)
  bind rule next := fun tokens progress =>
    match rule tokens progress with
    | (.ok a, progress) => next a tokens progress
    | (.error stop, progress) => (.error stop, progress)

@[simp] theorem pure_apply {α : Type} (a : α) (tokens : Array Token) (progress : Progress) :
    (pure a : Rule α) tokens progress = (.ok a, progress) := rfl

/-- One rule after the other: the second goes on where the first one left off. -/
theorem bind_apply {α β : Type} (rule : Rule α) (next : α → Rule β) (tokens : Array Token)
    (progress : Progress) :
    (rule >>= next) tokens progress =
      match rule tokens progress with
      | (.ok a, progress) => next a tokens progress
      | (.error stop, progress) => (.error stop, progress) := rfl

/-- Stops at once. -/
def stop {α : Type} (reason : Stop) : Rule α := fun _ progress => (.error reason, progress)

/-- The next token; past the end of the list its last token. -/
def current : Rule Token := fun tokens progress =>
  match tokens[min progress.pos (tokens.size - 1)]? with
  | some token => (.ok token, progress)
  | none => (.error .outOfRange, progress)

/-- Takes the next token. An end token is looked at and stays. -/
def advance : Rule Token := do
  let token ← current
  if token.kind = .endOfInput then return token
  fun _ progress => (.ok token, progress.step)

/-- Notes kinds that would have been taken here. -/
def miss (kinds : List Kind) : Rule Unit := fun _ progress => (.ok (), progress.missAll kinds)

/-- The fault at the furthest token with a miss: what was found there and all that was expected. -/
def failure : Rule Fault := fun tokens progress =>
  match tokens[progress.furthest]? with
  | some token =>
    (.ok ⟨.unexpected (progress.expected.map Kind.describe) token.describe, token.span.start⟩,
      progress)
  | none => (.error .outOfRange, progress)

/-- Stops with the fault at the furthest token. -/
def fail {α : Type} : Rule α := do
  let fault ← failure
  stop (.fault fault)

/-- Takes the next token if it is of one of the kinds, else notes them all. -/
def accept (kinds : List Kind) : Rule (Option Token) := do
  let token ← current
  if token.kind ∈ kinds then return some (← advance)
  miss kinds
  return none

/-- What taking a token of one of several kinds does: past an end token the progress stays, and a
miss moves nothing. -/
theorem accept_apply (kinds : List Kind) (tokens : Array Token) (progress : Progress) :
    accept kinds tokens progress =
      match tokens[min progress.pos (tokens.size - 1)]? with
      | none => (.error .outOfRange, progress)
      | some token =>
        if token.kind ∈ kinds then
          (.ok (some token), if token.kind = .endOfInput then progress else progress.step)
        else (.ok none, progress.missAll kinds) := by
  cases h : tokens[min progress.pos (tokens.size - 1)]? with
  | none => simp [accept, bind_apply, current, h]
  | some token =>
    by_cases hk : token.kind ∈ kinds
    · by_cases he : token.kind = .endOfInput
      · simp_all [accept, bind_apply, current, advance]
      · simp_all [accept, bind_apply, current, advance]
    · simp_all [accept, bind_apply, current, miss]

/-- Takes the next token if it is of one of the kinds, else stops with the furthest fault. -/
def expectAny (kinds : List Kind) : Rule Token := do
  match ← accept kinds with
  | some token => return token
  | none => fail

/-- Takes the next token if it is of the kind, else stops with the furthest fault. -/
def expect (kind : Kind) : Rule Token := expectAny [kind]

/-- Notes the kinds and stops with the furthest fault. -/
def reject {α : Type} (kinds : List Kind) : Rule α := do
  miss kinds
  fail

/-- One more than the number of tokens left: more than any rule can take from here. -/
def reach : Rule Nat := fun tokens progress => (.ok (tokens.size - progress.pos + 1), progress)

end Rule

end Reckon
