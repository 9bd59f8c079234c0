import Reckon.Command.Path

/-!
# Reckon — a folder of files

Files held in memory, found by paths that start at the folder they are in. A path goes down from
folder to folder and may step back up, but not above the folder it starts in. Folders are there
because of the files in them.
-/

namespace Reckon

/-- Files by their paths. -/
structure Folder where
  files : List (String × ByteArray)

namespace Folder

/-- The file at the end of the given steps, each the name of a folder but for the last. -/
def at? (folder : Folder) (steps : List String) : Option ByteArray :=
  (folder.files.find? fun (path, _) => Path.steps path == steps).map Prod.snd

/-- Whether the steps lead to a folder. -/
def hasFolder (folder : Folder) (steps : List String) : Bool :=
  steps.isEmpty || folder.files.any fun (path, _) =>
    steps.isPrefixOf (Path.steps path) && decide (steps.length < (Path.steps path).length)

/-- Goes on from a place inside the folder, part by part. Only from a folder does a path go on. -/
def walk? (folder : Folder) (place : List String) : List String → Option (List String)
  | [] => some place
  | part :: later =>
    if !folder.hasFolder place then none
    else if part = "" ∨ part = "." then walk? folder place later
    else if part = ".." then
      if place = [] then none else walk? folder place.dropLast later
    else walk? folder (place ++ [part]) later

/-- The bytes of the file at a path. -/
def file? (folder : Folder) (path : String) : Option ByteArray :=
  if path = "" ∨ path.toList.head? = some '/' then none
  else (walk? folder [] ((Path.parts path.toList).map String.ofList)).bind folder.at?

end Folder

end Reckon
