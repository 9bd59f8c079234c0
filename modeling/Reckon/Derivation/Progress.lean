import Reckon.Token.Kind

/-!
# Reckon — progress through a token list

How far the matching of a token list has come, and what was looked for on the way. A kind that was
looked for and not found is a miss. Of all misses only those at the furthest token count as what is
expected there: they are what would have let the match go on.

The journal keeps every miss that was new when it came, also those that later ones put out of
account.
-/

namespace Reckon

/-- A kind that was looked for and not found at a token, by the index of the token. -/
structure Miss where
  position : Nat
  kind : Kind
deriving DecidableEq, Repr

/-- How far a match has come. -/
structure Progress where
  /-- The index of the next token. -/
  pos : Nat
  /-- The furthest index with a miss, 0 as long as there is none. -/
  furthest : Nat
  /-- The kinds missed at the furthest index, in the order in which they were first missed. -/
  expected : List Kind
  /-- The new misses so far, the latest first. -/
  journal : List Miss
deriving DecidableEq, Repr

namespace Progress

/-- Nothing matched and nothing missed. -/
def start : Progress := ⟨0, 0, [], []⟩

/-- One token further on. -/
def step (progress : Progress) : Progress := { progress with pos := progress.pos + 1 }

/-- Moves the account of what is expected to the next token, if that is further than it was. -/
def refocus (progress : Progress) : Progress :=
  if progress.furthest < progress.pos then
    { progress with furthest := progress.pos, expected := [] }
  else progress

/-- Notes that `kind` would have been taken at the next token. -/
def miss (progress : Progress) (kind : Kind) : Progress :=
  let progress := progress.refocus
  if progress.pos = progress.furthest ∧ kind ∉ progress.expected then
    { progress with
      expected := progress.expected ++ [kind]
      journal := ⟨progress.pos, kind⟩ :: progress.journal }
  else progress

/-- Notes one kind after the other. -/
def missAll (progress : Progress) (kinds : List Kind) : Progress := kinds.foldl miss progress

end Progress

end Reckon
