import Reckon.Derivation.Match
import Reckon.Event
import Reckon.Program.Build
import Reckon.Token.Scan

/-!
# Reckon — from source to program

The way of a source through the whole front end, as a run: its outcome and the events on the way,
in order. `derive` stops at the derivation, `parse` goes on to the program.
-/

namespace Reckon

/-- How a run came out, and what happened on the way. -/
structure Run (α : Type) where
  outcome : Except Stop α
  events : List Event

/-- Matches a token list; `file` names the source of a list without any token. -/
def matchTokens (tokens : List Token) (file : String) : Run Derivation :=
  let (outcome, progress) := Derivation.ofTokens tokens file
  let misses := progress.journal.reverse.map fun miss => .missed miss.position miss.kind
  match outcome with
  | .ok derivation => ⟨.ok derivation, misses ++ [.matched derivation.clauses.length file]⟩
  | .error stop => ⟨.error stop, misses⟩

/-- The derivation of a source. -/
def derive (source : String) (file : String) : Run Derivation :=
  let tokens := tokenize source file
  let run := matchTokens tokens file
  { run with events := .tokenized tokens.length file :: run.events }

/-- The program of a source. -/
def parse (source : String) (file : String) : Run Program :=
  let run := derive source file
  match run.outcome with
  | .error stop => ⟨.error stop, run.events⟩
  | .ok derivation =>
    match derivation.program with
    | .error fault => ⟨.error (.fault fault), run.events⟩
    | .ok program => ⟨.ok program, run.events ++ [.built program.length]⟩

/-- Whether two sources came out alike: as the same program, or with an equal fault. -/
def sameOutcome : Except Stop Program → Except Stop Program → Bool
  | .ok program, .ok program' => program.same program'
  | .error stop, .error stop' => stop == stop'
  | _, _ => false

end Reckon
