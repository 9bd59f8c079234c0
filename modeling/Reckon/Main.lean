import Reckon.Command

/-!
# Reckon — the command line program

Fetches what surrounds the command, and shows what the command made of it.
-/

namespace Reckon

/-- The bytes of a file, if there is one that can be read. -/
def fileBytes? (path : String) : IO (Option ByteArray) := do
  try
    return some (← IO.FS.readBinFile path)
  catch _ => return none

/-- All bytes of a stream, behind those that are read already. -/
partial def streamBytes (stream : IO.FS.Stream) (bytes : ByteArray) : IO ByteArray := do
  let more ← stream.read 65536
  if more.isEmpty then return bytes
  streamBytes stream (bytes ++ more)

end Reckon

open Reckon in
/-- The program: prints a source, named by the one argument or read from standard input. Nothing is
read before the settings are known to be good. -/
def main (arguments : List String) : IO UInt32 := do
  let launch : Launch := {
    words := "ael".toUTF8 :: arguments.map String.toUTF8
    log := (← IO.getEnv "AEL_LOG").map String.toUTF8
    output := (← IO.getEnv "AEL_EMIT").map String.toUTF8 }
  let nothing : Surroundings := ⟨fun _ => none, ByteArray.empty⟩
  let around : Surroundings ← match launch.invocation?.map Settings.resolve with
    | none | some (.error _) => pure nothing
    | some (.ok settings) =>
      match settings.source with
      | some path => do
        let file ← fileBytes? path
        pure { nothing with file? := fun _ => file }
      | none => do pure { nothing with input := ← streamBytes (← IO.getStdin) ByteArray.empty }
  let ending := Command.start launch around
  if let .ran visible := ending then IO.eprint visible.errorOutput
  IO.print ending.output
  return ending.status.toUInt32
