import Reckon.Fault
import Reckon.Text.Blank
import Reckon.Text.Line

/-!
# Reckon — reports

A fault shown in its source: what is wrong, where, the line it is in, and a caret below the
character it stands at. Columns count characters. The line is shown without the blanks at its end,
the newline among them, while the column is counted on the whole line.
-/

namespace Reckon

namespace Fault

/-- The first line of a report. -/
def heading (fault : Fault) : String :=
  match fault.cause.advice with
  | .none => "Error: " ++ fault.cause.name
  | advice => "Error: " ++ fault.cause.name ++ " (" ++ advice.words ++ ")"

/-- The report of a fault in a source, as lines without their newlines. There is none if the fault
claims to stand inside a character. -/
def reportLines? (fault : Fault) (source : List Char) : Option (List String) := do
  let line := Text.lineAt source fault.position.offset
  let (before, _) ← Text.cut line.offset line.text
  let number := toString line.number
  let column := before.length + 1
  let margin := String.ofList (List.replicate (number.length + 1) ' ')
  return [
    fault.heading,
    "-> " ++ fault.position.file ++ ":" ++ number ++ ":" ++ toString column,
    margin ++ "|",
    number ++ " | " ++ String.ofList (Text.trimEnd line.text),
    margin ++ "| " ++ String.ofList (List.replicate before.length '-') ++ "^"]

/-- The report of a fault in a source, without a newline at its end. -/
def report? (fault : Fault) (source : String) : Option String :=
  (fault.reportLines? source.toList).map ("\n".intercalate ·)

end Fault

end Reckon
