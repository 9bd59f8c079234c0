import Reckon.Command.Path
import Reckon.Event
import Reckon.Number.Numeral
import Reckon.Outline.Values
import Reckon.Text.Blank

/-!
# Reckon — settings

What a command was told to do: the source to read, how much to log and what to print. A process is
started with bytes, and a command is called with the texts that these are. A text that cannot be
understood is a misuse; of several, the number of arguments is told first, then the log, then the
output.
-/

namespace Reckon

/-- What is printed for a source. -/
inductive Output
  | ast
  | tokens
  | derivation
deriving DecidableEq, Repr

/-- What a command was told that cannot be understood. -/
inductive Misuse
  | unknownImportance (text : String)
  | unknownOutput (text : String)
  | tooManyArguments (count : Nat)
deriving DecidableEq, Repr

namespace Misuse

/-- The name of the kind of misuse. -/
def name : Misuse → String
  | unknownImportance _ => "UnknownLogLevel"
  | unknownOutput _ => "UnknownEmit"
  | tooManyArguments _ => "TooManyArguments"

/-- The misuse in words. -/
def message : Misuse → String
  | unknownImportance text =>
    "unknown log level " ++ Text.quoted text ++
      " in AEL_LOG, expected error, warn, info, debug or trace"
  | unknownOutput text =>
    "unknown output " ++ Text.quoted text ++ " in AEL_EMIT, expected ast, tokens or derivation"
  | tooManyArguments count => "expected at most one source path, received " ++ toString count

/-- The misuse as structured text. -/
def outline (misuse : Misuse) : Outline :=
  match misuse with
  | unknownImportance text | unknownOutput text => .tuple misuse.name [.text text]
  | tooManyArguments count => .tuple misuse.name [.count count]

end Misuse

/-- A word without blanks around it and without capitals, of the letters of ASCII. -/
def plainWord (text : String) : String :=
  String.ofList ((Text.trim text.toList).map Char.toLower)

namespace Output

/-- The name of the output. -/
def name : Output → String
  | ast => "ast"
  | tokens => "tokens"
  | derivation => "derivation"

/-- The output that a text names. A derivation has a short name too. -/
def read (text : String) : Except Misuse Output :=
  match plainWord text with
  | "ast" => .ok ast
  | "tokens" => .ok tokens
  | "derivation" | "cst" => .ok derivation
  | _ => .error (.unknownOutput text)

end Output

namespace Importance

/-- A number as it may be given for a degree: digits, perhaps behind a plus sign. -/
def rank? : List Char → Option Nat
  | '+' :: digits => Numeral.natural? digits
  | digits => Numeral.natural? digits

/-- The degree that a text gives, by its rank or by its name. -/
def read (text : String) : Except Misuse Importance :=
  let degree :=
    match rank? (Text.trim text.toList) with
    | some n => all.find? fun degree => degree.rank == n
    | none => all.find? fun degree => plainWord degree.name == plainWord text
  match degree with
  | some degree => .ok degree
  | none => .error (.unknownImportance text)

end Importance

/-- What a command is called with: its arguments, and two settings of its surroundings. -/
structure Invocation where
  arguments : List String
  log : Option String
  output : Option String

/-- What a process is started with, in bytes: its words, the first of which is the program itself,
and two settings of its surroundings. -/
structure Launch where
  words : List ByteArray
  log : Option ByteArray
  output : Option ByteArray

/-- The invocation that a launch amounts to, if all of its words are text. A setting that is no text
counts as absent. -/
def Launch.invocation? (launch : Launch) : Option Invocation :=
  (launch.words.mapM String.fromUTF8?).map fun words =>
    ⟨words.drop 1, launch.log.bind String.fromUTF8?, launch.output.bind String.fromUTF8?⟩

/-- What a command was told to do. -/
structure Settings where
  /-- The path of the source; without one the source is read from standard input. -/
  source : Option String
  /-- Log entries that are less important than this are left out. -/
  log : Importance
  output : Output
deriving DecidableEq, Repr

namespace Settings

/-- Reads an optional setting, with a value for its absence. -/
def readOr {α : Type} (absent : α) (read : String → Except Misuse α) :
    Option String → Except Misuse α
  | none => .ok absent
  | some text => read text

/-- The settings that an invocation asks for. -/
def resolve (invocation : Invocation) : Except Misuse Settings := do
  if 1 < invocation.arguments.length then
    throw (.tooManyArguments invocation.arguments.length)
  let log ← readOr .warn Importance.read invocation.log
  let output ← readOr .ast Output.read invocation.output
  return ⟨invocation.arguments.head?, log, output⟩

/-- The name by which reports call the source. -/
def sourceName (settings : Settings) : String :=
  match settings.source with
  | some path => Path.sourceName path
  | none => "stdin"

end Settings

end Reckon
