import Reckon.Token.Kind

/-!
# Reckon — events

What is told about a run while it goes on: that a source was tokenized, which kinds were looked
for and not found, that the tokens were matched and the program was built. Every event is an entry
of the log, of some importance.
-/

namespace Reckon

/-- How important an entry of the log is, the most important first. -/
inductive Importance
  | error
  | warn
  | info
  | debug
  | trace
deriving DecidableEq, Repr

namespace Importance

/-- All degrees, the most important first. -/
def all : List Importance := [error, warn, info, debug, trace]

/-- The name of the degree, in capitals. -/
def name : Importance → String
  | error => "ERROR"
  | warn => "WARN"
  | info => "INFO"
  | debug => "DEBUG"
  | trace => "TRACE"

/-- The place among all degrees, counted from one. -/
def rank : Importance → Nat
  | error => 1
  | warn => 2
  | info => 3
  | debug => 4
  | trace => 5

end Importance

/-- An entry of the log: what happened, in words, and the particulars by name. -/
structure Entry where
  importance : Importance
  message : String
  fields : List (String × String)
deriving DecidableEq, Repr

/-- The entry on one line. -/
def Entry.line (entry : Entry) : String :=
  entry.importance.name ++ " " ++ entry.message ++
    String.join (entry.fields.map fun (name, value) => " " ++ name ++ "=" ++ value)

/-- Something that happened in a run. -/
inductive Event
  /-- A source was split into so many tokens. -/
  | tokenized (tokens : Nat) (file : String)
  /-- A kind was looked for and not found at the token with this index. -/
  | missed (position : Nat) (kind : Kind)
  /-- All tokens were matched, as so many statements. -/
  | matched (statements : Nat) (file : String)
  /-- A program of so many statements was built. -/
  | built (statements : Nat)
deriving DecidableEq, Repr

/-- The event as an entry of the log. -/
def Event.entry : Event → Entry
  | .tokenized tokens file =>
    ⟨.debug, "tokenized source", [("tokens", toString tokens), ("file", file)]⟩
  | .missed position kind =>
    ⟨.trace, "recorded expectation", [("position", toString position), ("expected", kind.name)]⟩
  | .matched statements file =>
    ⟨.debug, "matched program", [("statements", toString statements), ("file", file)]⟩
  | .built statements => ⟨.debug, "built program", [("statements", toString statements)]⟩

end Reckon
