import Reckon.Command.Settings
import Reckon.Fault.Report
import Reckon.Run

/-!
# Reckon — the command

One run of the command line program as a function of what surrounds it: how it was called, what
the files hold and what comes in. The answer is all that can be seen from outside: the exit status
and the texts on the two outputs.

The status is 2 if the settings or the source cannot be read, 1 if the source has a fault, and
0 otherwise. Nothing is printed on standard output unless the status is 0.

A process is started with bytes. If a word among its arguments is no text, it breaks off before
anything else is done.
-/

namespace Reckon

/-- What surrounds a command: the bytes of the files by their paths, and those that come in. -/
structure Surroundings where
  file? : String → Option ByteArray
  input : ByteArray

/-- What can be seen of a command from outside. -/
structure Visible where
  status : Nat
  output : String
  /-- The log entries that were important enough, in order. -/
  log : List Entry
  /-- What is wrong with the settings or the source, as it is told to the user. -/
  complaint : String

/-- How a process comes to its end. -/
inductive Ending
  /-- The command was run. -/
  | ran (visible : Visible)
  /-- The process broke off, with nothing to show but the reason. -/
  | brokeOff

namespace Ending

/-- The status of the process. -/
def status : Ending → Nat
  | ran visible => visible.status
  | brokeOff => 101

/-- What the process printed on standard output. -/
def output : Ending → String
  | ran visible => visible.output
  | brokeOff => ""

end Ending

/-- All of the text on standard error. -/
def Visible.errorOutput (visible : Visible) : String :=
  String.join (visible.log.map fun entry => entry.line ++ "\n") ++ visible.complaint

namespace Command

/-- The text of the source, if it can be read. -/
def source? (settings : Settings) (around : Surroundings) : Option String :=
  match settings.source with
  | some path => (around.file? path).bind String.fromUTF8?
  | none => String.fromUTF8? around.input

/-- The line of a token in a listing: where it starts, in a column of six, and the token. -/
def listingLine (token : Token) : String :=
  let offset := toString token.span.start.offset
  String.ofList (List.replicate (6 - offset.length) ' ') ++ offset ++ "  " ++ token.listing ++ "\n"

/-- What is printed for a source, and the events on the way. -/
def print (output : Output) (source : String) (name : String) : Run String :=
  match output with
  | .tokens =>
    let tokens := tokenize source name
    ⟨.ok (String.join (tokens.map listingLine)), [.tokenized tokens.length name]⟩
  | .derivation =>
    let run := derive source name
    ⟨run.outcome.map fun derivation => derivation.outline.indented ++ "\n", run.events⟩
  | .ast =>
    let run := parse source name
    ⟨run.outcome.map fun program => program.outline.indented ++ "\n", run.events⟩

/-- What is told about a source that could not be printed. -/
def complaintOf (stop : Stop) (source : String) : String :=
  match stop with
  | .fault fault => ((fault.report? source).getD fault.message) ++ "\n"
  | .outOfRange | .unending => ""

/-- The command with its settings, on a source that was read. -/
def runOn (settings : Settings) (source : String) : Visible :=
  let name := settings.sourceName
  let printed := print settings.output source name
  let opening : Entry :=
    ⟨.info, "parsing", [("source", name), ("emit", settings.output.name)]⟩
  let log := opening :: printed.events.map Event.entry ++ [⟨.debug, "finished", []⟩]
  let log := log.filter fun entry => entry.importance.rank ≤ settings.log.rank
  match printed.outcome with
  | .ok text => ⟨0, text, log, ""⟩
  | .error stop => ⟨1, "", log, complaintOf stop source⟩

/-- The whole command. -/
def run (invocation : Invocation) (around : Surroundings) : Visible :=
  match Settings.resolve invocation with
  | .error misuse => ⟨2, "", [], "ael: " ++ misuse.message ++ "\n"⟩
  | .ok settings =>
    match source? settings around with
    | none => ⟨2, "", [⟨.error, "failed to read source", [("source", settings.sourceName)]⟩], ""⟩
    | some source => runOn settings source

/-- The whole process: the command, if what it was started with amounts to an invocation. -/
def start (launch : Launch) (around : Surroundings) : Ending :=
  match launch.invocation? with
  | some invocation => .ran (run invocation around)
  | none => .brokeOff

end Command

end Reckon
