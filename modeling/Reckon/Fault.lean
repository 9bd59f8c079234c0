import Reckon.Text.Quoted
import Reckon.Token

/-!
# Reckon — faults

What can be wrong with a source, where, and how it is put into words. A cause keeps the parts its
wording is made of; the wording itself is in this module alone.
-/

namespace Reckon

/-- What is wrong. -/
inductive Cause
  /-- Something other than what was expected, in the order in which it was looked for. -/
  | unexpected (expected : List String) (found : String)
  /-- The text of a number token that is no number. -/
  | badNumber (text : String)
deriving DecidableEq, Repr

/-- What is wrong, and where. -/
structure Fault where
  cause : Cause
  position : Position
deriving DecidableEq, Repr

/-- Alternatives the way a reader lists them: commas between, `or` before the last. -/
def alternatives : List String → String
  | [] => "nothing"
  | [only] => only
  | [first, last] => first ++ " or " ++ last
  | first :: second :: later => first ++ ", " ++ alternatives (second :: later)

/-- Advice that a report shows beside the name of the fault. -/
inductive Advice
  | none
  | text (advice : String)
deriving DecidableEq, Repr

/-- The words of the advice. -/
def Advice.words : Advice → String
  | .none => ""
  | .text advice => advice

namespace Cause

/-- The name of the kind of fault. -/
def name : Cause → String
  | .unexpected .. => "SyntaxError"
  | .badNumber _ => "NumberParseError"

/-- What is wrong, in one line. -/
def message : Cause → String
  | .unexpected expected found => "expected " ++ alternatives expected ++ ", found " ++ found
  | .badNumber text => "error parsing number: " ++ Text.quoted text

/-- The advice given about it. -/
def advice : Cause → Advice
  | .unexpected expected found =>
    .text ("Unexpected " ++ found ++ ", expected " ++ alternatives expected)
  | .badNumber text => .text ("Invalid number: \x60" ++ text ++ "\x60")

end Cause

/-- The fault in one line: its name, where it stands, and what is wrong. -/
def Fault.message (fault : Fault) : String :=
  fault.cause.name ++ " at " ++ fault.position.file ++ ":" ++ toString fault.position.offset ++
    ": " ++ fault.cause.message

end Reckon
