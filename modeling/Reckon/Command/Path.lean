/-!
# Reckon — paths

A path names a file by its parts, with slashes between them. Empty parts and single points say
nothing and are skipped. The last part that is left names the file, unless it is the step back to
the folder above.
-/

namespace Reckon.Path

/-- The parts of a path, as they stand between its slashes. -/
def parts : List Char → List (List Char)
  | [] => [[]]
  | c :: rest =>
    if c = '/' then [] :: parts rest
    else
      match parts rest with
      | [] => [[c]]
      | part :: later => (c :: part) :: later

/-- The parts of a path that say something. -/
def steps (path : String) : List String :=
  ((parts path.toList).map String.ofList).filter fun part => part ≠ "" ∧ part ≠ "."

/-- The name of the file that a path leads to; none if it leads to a folder by its form. -/
def fileName? (path : String) : Option String :=
  match (steps path).getLast? with
  | some ".." => none
  | last => last

/-- The name by which the source at a path is called: its file name, else the path as it is. -/
def sourceName (path : String) : String := (fileName? path).getD path

end Reckon.Path
