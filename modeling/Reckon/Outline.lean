/-!
# Reckon — outlines

A value as structured text: names, and between brackets the parts, with labels or without. An
outline is written flat, on one line, or indented, with each part on a line of its own that ends in
a comma.
-/

namespace Reckon

/-- What surrounds the parts of a group. -/
inductive Bracket
  /-- Braces, around parts with labels. -/
  | braces
  /-- Parentheses, around parts that are told apart by their place. -/
  | parens
  /-- Square brackets, around the items of a list. -/
  | square
deriving DecidableEq, Repr

namespace Bracket

/-- What stands before the parts, behind the name. -/
def opening : Bracket → String
  | braces => " \x7b"
  | parens => "("
  | square => "["

/-- What stands behind the parts. -/
def closing : Bracket → String
  | braces => "\x7d"
  | parens => ")"
  | square => "]"

/-- What separates the parts from the bracket on one line. -/
def padding : Bracket → String
  | braces => " "
  | _ => ""

end Bracket

/-- A value as structured text. A part is a label, which may be empty, and an outline. -/
inductive Outline
  | leaf (text : String)
  | group (bracket : Bracket) (name : String) (parts : List (String × Outline))

namespace Outline

/-- A group with labels. -/
def record (name : String) (fields : List (String × Outline)) : Outline :=
  .group .braces name (fields.map fun (label, value) => (label ++ ": ", value))

/-- A group told apart by place. -/
def tuple (name : String) (parts : List Outline) : Outline :=
  .group .parens name (parts.map fun part => ("", part))

/-- A list. -/
def list (items : List Outline) : Outline :=
  .group .square "" (items.map fun item => ("", item))

mutual

/-- Writes an outline on one line, behind what is written already. -/
def flatAfter (written : String) : Outline → String
  | .leaf text => written ++ text
  | .group bracket name parts =>
    if parts.isEmpty then written ++ name ++ bracket.opening ++ bracket.closing
    else
      flatParts (written ++ name ++ bracket.opening ++ bracket.padding) parts ++
        bracket.padding ++ bracket.closing

/-- Writes the parts of a group on one line, with commas between them. -/
def flatParts (written : String) : List (String × Outline) → String
  | [] => written
  | (label, part) :: later =>
    let written := part.flatAfter (written ++ label)
    flatParts (if later.isEmpty then written else written ++ ", ") later

end

mutual

/-- Writes an outline over several lines, behind what is written already. All lines but the first
begin with the margin. -/
def indentedAfter (margin : String) (written : String) : Outline → String
  | .leaf text => written ++ text
  | .group bracket name parts =>
    if parts.isEmpty then written ++ name ++ bracket.opening ++ bracket.closing
    else
      indentedParts (margin ++ "    ") (written ++ name ++ bracket.opening ++ "\n") parts ++
        margin ++ bracket.closing

/-- Writes the parts of a group, each on lines of its own that end in a comma. -/
def indentedParts (margin : String) (written : String) : List (String × Outline) → String
  | [] => written
  | (label, part) :: later =>
    indentedParts margin (part.indentedAfter margin (written ++ margin ++ label) ++ ",\n") later

end

/-- The outline on one line. -/
def flat (outline : Outline) : String := outline.flatAfter ""

/-- The outline with each part on a line of its own. -/
def indented (outline : Outline) : String := outline.indentedAfter "" ""

end Outline

end Reckon
