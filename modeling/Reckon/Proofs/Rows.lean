import Reckon.Outline.Values

/-!
# Reckon — values line by line

What a program or a derivation looks like on the page: which lines there are, in which order, how
deep each of them stands and what is written there. This is told for each kind of value on its own,
by the lines of its parts, and without a word about outlines or about texts that grow. A part stands
one step deeper than what it belongs to, its first line begins with its label, and its last one ends
in a comma. A list without items takes one line.

That values are written so is a fact about outlines first: each line of an outline is one of its
rows, and the rows of the outlines of values are those told here.

* `Kind.name_injective`, `BinaryOp.name_injective`, `UnaryOp.name_injective` — what is called alike
  is the same.
* `Expr.rows`, `Statement.rows`, `Program.rows` — the lines of programs.
* `Token.rows`, `Phrase.rows`, `Clause.rows`, `Derivation.rows` — the lines of derivations.
* `Outline.indented_eq_lines` — an outline is written row by row.
* `Program.indented_eq_lines`, `Derivation.indented_eq_lines` — and so are values.
-/

namespace Reckon

open Text

/-- A line of a text with margins: how deep it stands, and what stands there. -/
structure Row where
  depth : Nat
  text : String
deriving DecidableEq, Repr

namespace Row

/-- The line: four blanks for each step of the depth, the text, and a newline. -/
def line (row : Row) : String :=
  String.ofList (List.replicate (4 * row.depth) ' ') ++ row.text ++ "\n"

/-- The text that is made of the lines. -/
def lines (rows : List Row) : String := String.join (rows.map line)

/-- Rows between two others that are less deep. -/
def enclosed (depth : Nat) (opening : String) (inner : List Row) (closing : String) : List Row :=
  ⟨depth, opening⟩ :: inner ++ [⟨depth, closing⟩]

end Row

open Row

-- ---------------------------------------------------------------------------
-- Names
-- ---------------------------------------------------------------------------

/-- No two kinds are called the same. -/
theorem Kind.name_injective {a b : Kind} (h : a.name = b.name) : a = b := by
  have hname := ofName?_name a
  rw [h, ofName?_name b] at hname
  exact (Option.some.inj hname).symm

/-- And no two operators with two operands. -/
theorem BinaryOp.name_injective {a b : BinaryOp} (h : a.name = b.name) : a = b := by
  revert h
  cases a <;> cases b <;> decide

theorem UnaryOp.name_injective {a b : UnaryOp} (h : a.name = b.name) : a = b := by
  revert h
  cases a <;> cases b <;> decide

-- ---------------------------------------------------------------------------
-- The lines of programs
-- ---------------------------------------------------------------------------

/-- The lines of a name that is read or assigned to. -/
def nameRows (depth : Nat) (label name : String) : List Row :=
  enclosed depth (label ++ "IdentifierExpr \x7b")
    [⟨depth + 1, "name: " ++ quoted name ++ ","⟩] "\x7d,"

/-- The lines of an expression with a label. -/
def Expr.rows (depth : Nat) (label : String) : Expr → List Row
  | .binary op left right =>
    enclosed depth (label ++ "Binary(")
      (enclosed (depth + 1) "BinaryExpr \x7b"
        (⟨depth + 2, "operator: " ++ op.name ++ ","⟩ :: left.rows (depth + 2) "left: " ++
          right.rows (depth + 2) "right: ") "\x7d,") "),"
  | .unary op operand =>
    enclosed depth (label ++ "Unary(")
      (enclosed (depth + 1) "UnaryExpr \x7b"
        (⟨depth + 2, "operator: " ++ op.name ++ ","⟩ :: operand.rows (depth + 2) "operand: ")
        "\x7d,") "),"
  | .identifier name =>
    enclosed depth (label ++ "Identifier(") (nameRows (depth + 1) "" name) "),"
  | .number value =>
    enclosed depth (label ++ "Number(")
      (enclosed (depth + 1) "NumberExpr \x7b" [⟨depth + 2, "value: " ++ value.written ++ ","⟩]
        "\x7d,") "),"

/-- The lines of a statement. -/
def Statement.rows (depth : Nat) : Statement → List Row
  | .declare name value =>
    enclosed depth "VarDecl("
      (enclosed (depth + 1) "VarDeclStmt \x7b"
        (⟨depth + 2, "name: " ++ quoted name ++ ","⟩ :: value.rows (depth + 2) "initializer: ")
        "\x7d,") "),"
  | .assign name value =>
    enclosed depth "Assignment("
      (enclosed (depth + 1) "AssignmentStmt \x7b"
        (nameRows (depth + 2) "target: " name ++ value.rows (depth + 2) "value: ") "\x7d,") "),"
  | .print value =>
    enclosed depth "Print("
      (enclosed (depth + 1) "PrintStmt \x7b" (value.rows (depth + 2) "expression: ") "\x7d,") "),"

/-- The lines of a list with a label: one if it has no items, and else those of its items between
brackets. -/
def listRows (depth : Nat) (label : String) (items : List (List Row)) : List Row :=
  if items = [] then [⟨depth, label ++ "[],"⟩]
  else enclosed depth (label ++ "[") items.flatten "],"

/-- The lines of a program. -/
def Program.rows (program : Program) : List Row :=
  enclosed 0 "Program \x7b" (listRows 1 "statements: " (program.statements.map (Statement.rows 2)))
    "\x7d"

-- ---------------------------------------------------------------------------
-- The lines of derivations
-- ---------------------------------------------------------------------------

/-- The lines of a place in a source. -/
def Position.rows (depth : Nat) (label : String) (position : Position) : List Row :=
  enclosed depth (label ++ "Position(")
    [⟨depth + 1, toString position.offset ++ ","⟩, ⟨depth + 1, quoted position.file ++ ","⟩] "),"

/-- The lines of a token with a label. -/
def Token.rows (depth : Nat) (label : String) (token : Token) : List Row :=
  enclosed depth (label ++ "Token \x7b")
    (⟨depth + 1, "kind: " ++ token.kind.name ++ ","⟩ ::
      ⟨depth + 1, "value: " ++ quoted token.text ++ ","⟩ ::
        enclosed (depth + 1) "span: Span \x7b"
          (token.span.start.rows (depth + 2) "start: " ++ token.span.stop.rows (depth + 2) "end: ")
          "\x7d,") "\x7d,"

/-- The lines of a name as it was matched. -/
def Token.nameRows (depth : Nat) (label : String) (id : Token) : List Row :=
  enclosed depth (label ++ "VarNode \x7b") (id.rows (depth + 1) "id: ") "\x7d,"

/-- The first line of a chain, by the layer it belongs to. -/
def Phrase.chainTitle : Nat → String
  | 0 => "TermNode \x7b"
  | 1 => "Exp1Node \x7b"
  | _ => "ExpNode \x7b"

/-- The lines of a phrase with a label. The operands of a chain stand side by side: the first one,
and in a list all that come after it, each in a pair with the operator before it. The pairs of
`later` come behind those of the phrase. -/
def Phrase.rowsBefore {l : Nat} (later : List (List Row)) (depth : Nat) (label : String) :
    Phrase l → List Row
  | .identifier id => enclosed depth (label ++ "Var(") (id.nameRows (depth + 1) "") "),"
  | .numeral token => enclosed depth (label ++ "Num(") (token.rows (depth + 1) "") "),"
  | .parens opening body closing =>
    enclosed depth (label ++ "Parens \x7b")
      (opening.rows (depth + 1) "open: " ++ body.rowsBefore [] (depth + 1) "exp: " ++
        closing.rows (depth + 1) "close: ") "\x7d,"
  | .unary op operand =>
    enclosed depth (label ++ "Unary \x7b")
      (op.rows (depth + 1) "op: " ++ operand.rowsBefore [] (depth + 1) "operand: ") "\x7d,"
  | .primary inner =>
    enclosed depth (label ++ "Primary(") (inner.rowsBefore [] (depth + 1) "") "),"
  | .power base op exponent =>
    enclosed depth (label ++ "Exponentiation \x7b")
      (base.rowsBefore [] (depth + 1) "base: " ++ op.rows (depth + 1) "op: " ++
        exponent.rowsBefore [] (depth + 1) "exponent: ") "\x7d,"
  | @Phrase.single n operand =>
    enclosed depth (label ++ chainTitle n)
      (operand.rowsBefore [] (depth + 1) "first: " ++ listRows (depth + 1) "rest: " later) "\x7d,"
  | .chain left op right =>
    left.rowsBefore
      (enclosed (depth + 2) "(" (op.rows (depth + 3) "" ++ right.rowsBefore [] (depth + 3) "") "),"
        :: later) depth label

/-- The lines of an expression as it was matched. -/
def Phrase.rows {l : Nat} (depth : Nat) (label : String) (x : Phrase l) : List Row :=
  x.rowsBefore [] depth label

/-- The lines of a clause. -/
def Clause.rows (depth : Nat) : Clause → List Row
  | .declare keyword id eq exp =>
    enclosed depth "VarDecl \x7b"
      (keyword.rows (depth + 1) "let_token: " ++ id.rows (depth + 1) "id: " ++
        eq.rows (depth + 1) "eq: " ++ exp.rows (depth + 1) "exp: ") "\x7d,"
  | .assign id eq exp =>
    enclosed depth "Assign \x7b"
      (id.nameRows (depth + 1) "var: " ++ eq.rows (depth + 1) "eq: " ++
        exp.rows (depth + 1) "exp: ") "\x7d,"
  | .print keyword exp =>
    enclosed depth "Print \x7b"
      (keyword.rows (depth + 1) "print_token: " ++ exp.rows (depth + 1) "exp: ") "\x7d,"

/-- The lines of a derivation. -/
def Derivation.rows (derivation : Derivation) : List Row :=
  enclosed 0 "ProgramNode \x7b" (listRows 1 "statements: " (derivation.clauses.map (Clause.rows 2)))
    "\x7d"

-- ---------------------------------------------------------------------------
-- The rows of an outline
-- ---------------------------------------------------------------------------

namespace Outline

mutual

/-- The rows of an outline that stands between two texts. -/
def rows (depth : Nat) (label behind : String) : Outline → List Row
  | .leaf text => [⟨depth, label ++ text ++ behind⟩]
  | .group bracket name parts =>
    if parts.isEmpty then [⟨depth, label ++ name ++ bracket.opening ++ bracket.closing ++ behind⟩]
    else
      enclosed depth (label ++ name ++ bracket.opening) (partRows (depth + 1) parts)
        (bracket.closing ++ behind)

/-- The rows of the parts of a group. -/
def partRows (depth : Nat) : List (String × Outline) → List Row
  | [] => []
  | (label, part) :: later => part.rows depth label "," ++ partRows depth later

end

/-- What the lines at a depth begin with. -/
def margin (depth : Nat) : String := String.ofList (List.replicate (4 * depth) ' ')

/-- One level deeper the margin is four blanks wider. -/
theorem margin_succ (depth : Nat) : margin depth ++ "    " = margin (depth + 1) := by
  have hblanks : "    " = String.ofList (List.replicate 4 ' ') := rfl
  rw [margin, margin, hblanks, ← String.ofList_append, List.replicate_append_replicate]
  rfl

end Outline

namespace Row

theorem lines_nil : lines [] = "" := rfl

theorem lines_cons (row : Row) (rows : List Row) : lines (row :: rows) = row.line ++ lines rows :=
  String.join_cons

/-- The lines of rows that follow each other follow each other. -/
theorem lines_append (first second : List Row) :
    lines (first ++ second) = lines first ++ lines second := by
  rw [lines, List.map_append, String.join_append]
  rfl

/-- Rows between brackets: the brackets have lines of their own. -/
theorem lines_enclosed (depth : Nat) (opening : String) (inner : List Row) (closing : String) :
    lines (enclosed depth opening inner closing) =
      Outline.margin depth ++ opening ++ "\n" ++ lines inner ++
        (Outline.margin depth ++ closing ++ "\n") := by
  rw [enclosed, lines_append, lines_cons, lines_cons, lines_nil, String.append_empty]
  rfl

end Row

namespace Outline

mutual

/-- An outline is written row by row, behind what is written already. -/
theorem indentedAfter_eq (depth : Nat) (written label behind : String) : (outline : Outline) →
    outline.indentedAfter (margin depth) (written ++ margin depth ++ label) ++ behind ++ "\n" =
      written ++ Row.lines (outline.rows depth label behind)
  | .leaf text => by
    rw [indentedAfter, rows, Row.lines_cons, Row.lines_nil, String.append_empty, Row.line, margin]
    simp only [String.append_assoc]
  | .group bracket name parts => by
    rw [indentedAfter, rows]
    split
    · rw [Row.lines_cons, Row.lines_nil, String.append_empty, Row.line, margin]
      simp only [String.append_assoc]
    · rw [margin_succ, indentedParts_eq, Row.lines_enclosed]
      simp only [String.append_assoc]

/-- And so are the parts of a group. -/
theorem indentedParts_eq (depth : Nat) (written : String) : (parts : List (String × Outline)) →
    indentedParts (margin depth) written parts = written ++ Row.lines (partRows depth parts)
  | [] => by rw [indentedParts, partRows, Row.lines_nil, String.append_empty]
  | (label, part) :: later => by
    have hcomma : (",\n" : String) = "," ++ "\n" := rfl
    rw [indentedParts, partRows, hcomma, ← String.append_assoc, indentedAfter_eq,
      indentedParts_eq, Row.lines_append, String.append_assoc]

end

/-- An outline is written row by row. -/
theorem indented_eq_lines (outline : Outline) :
    outline.indented ++ "\n" = Row.lines (outline.rows 0 "" "") := by
  have h := indentedAfter_eq 0 "" "" "" outline
  simpa [indented, margin] using h

-- The rows of the three kinds of groups

variable (depth : Nat) (label behind : String)

/-- A leaf is one row. -/
theorem rows_leaf (text : String) :
    (leaf text).rows depth label behind = [⟨depth, label ++ text ++ behind⟩] := rfl

theorem partRows_eq_flatMap (parts : List (String × Outline)) :
    partRows depth parts = parts.flatMap fun part => part.2.rows depth part.1 "," := by
  induction parts with
  | nil => rfl
  | cons part later ih => rw [partRows, ih, List.flatMap_cons]

/-- A tuple has a row for each bracket and its parts between them, one level deeper. -/
theorem rows_tuple {name : String} {parts : List Outline} (h : parts ≠ []) :
    (tuple name parts).rows depth label behind =
      enclosed depth (label ++ (name ++ "(")) (parts.flatMap (rows (depth + 1) "" ","))
        (")" ++ behind) := by
  rw [tuple, rows, if_neg (by simpa using h), partRows_eq_flatMap, List.flatMap_map,
    String.append_assoc]
  rfl

/-- A record has its fields there, each behind its name. -/
theorem rows_record {name : String} {fields : List (String × Outline)} (h : fields ≠ []) :
    (record name fields).rows depth label behind =
      enclosed depth (label ++ (name ++ " \x7b"))
        (fields.flatMap fun field => field.2.rows (depth + 1) (field.1 ++ ": ") ",")
        ("\x7d" ++ behind) := by
  rw [record, rows, if_neg (by simpa using h), partRows_eq_flatMap, List.flatMap_map,
    String.append_assoc]
  rfl

/-- An empty list is one row, every other one like a tuple. -/
theorem rows_list (items : List Outline) :
    (list items).rows depth label "," =
      listRows depth label (items.map (rows (depth + 1) "" ",")) := by
  cases items with
  | nil => simp [list, rows, listRows, Bracket.opening, Bracket.closing, String.append_assoc]
  | cons item later =>
    rw [list, rows, listRows, if_neg (by simp), if_neg (by simp), partRows_eq_flatMap,
      List.flatMap_map, ← List.flatMap_def, String.append_empty]
    rfl

end Outline

-- ---------------------------------------------------------------------------
-- The rows of values
-- ---------------------------------------------------------------------------

open Outline

/-- The rows of an expression are those of its outline. -/
theorem Expr.rows_outline (e : Expr) (depth : Nat) (label : String) :
    e.outline.rows depth label "," = e.rows depth label := by
  induction e generalizing depth label with
  | binary op left right ihleft ihright =>
    simp [outline, rows, rows_tuple, rows_record, rows_leaf, ihleft, ihright]
  | unary op operand ih => simp [outline, rows, rows_tuple, rows_record, rows_leaf, ih]
  | identifier name =>
    simp [outline, rows, nameRows, Outline.identifier, Outline.text, rows_tuple, rows_record,
      rows_leaf]
  | number value => simp [outline, rows, rows_tuple, rows_record, rows_leaf]

theorem Statement.rows_outline (statement : Statement) (depth : Nat) :
    statement.outline.rows depth "" "," = statement.rows depth := by
  cases statement with
  | declare name value =>
    simp [outline, rows, Outline.text, rows_tuple, rows_record, rows_leaf, Expr.rows_outline]
  | assign name value =>
    simp [outline, rows, nameRows, Outline.identifier, Outline.text, rows_tuple, rows_record,
      rows_leaf, Expr.rows_outline]
  | print value => simp [outline, rows, rows_tuple, rows_record, Expr.rows_outline]

/-- A program is written line by line. -/
theorem Program.indented_eq_lines (program : Program) :
    program.outline.indented ++ "\n" = Row.lines program.rows := by
  rw [Outline.indented_eq_lines]
  simp [outline, rows, rows_record, rows_list, Function.comp_def, Statement.rows_outline]

example : (Program.rows ⟨[.print (.identifier "x")]⟩).map (fun row => (row.depth, row.text)) =
    [(0, "Program \x7b"), (1, "statements: ["), (2, "Print("), (3, "PrintStmt \x7b"),
      (4, "expression: Identifier("), (5, "IdentifierExpr \x7b"), (6, "name: \"x\","), (5, "\x7d,"),
      (4, "),"), (3, "\x7d,"), (2, "),"), (1, "],"), (0, "\x7d")] := by decide +kernel

theorem Position.rows_outline (position : Position) (depth : Nat) (label : String) :
    position.outline.rows depth label "," = position.rows depth label := by
  simp [outline, rows, Outline.text, Outline.count, rows_tuple, rows_leaf]

/-- A token is written with its kind, its text and its two positions. -/
theorem Token.rows_outline (token : Token) (depth : Nat) (label : String) :
    token.outline.rows depth label "," = token.rows depth label := by
  simp [outline, rows, Span.outline, Outline.text, rows_record, rows_leaf, Position.rows_outline]

/-- A variable is a record around its token. -/
theorem Token.rows_variableOutline (id : Token) (depth : Nat) (label : String) :
    id.variableOutline.rows depth label "," = id.nameRows depth label := by
  simp [variableOutline, nameRows, rows_record, Token.rows_outline]

/-- The three kinds of chains differ in their names alone. -/
theorem Phrase.chainName_append : (n : Nat) → chainName n ++ " \x7b" = chainTitle n
  | 0 => rfl
  | 1 => rfl
  | _ + 2 => rfl

/-- The pairs behind a phrase may come from any outlines. -/
theorem Phrase.rows_outlineBefore {l : Nat} (x : Phrase l) (later : List Outline) (depth : Nat)
    (label : String) :
    (x.outlineBefore later).rows depth label "," =
      x.rowsBefore (later.map (Outline.rows (depth + 2) "" ",")) depth label := by
  induction x generalizing later depth label with
  | identifier id => simp [outlineBefore, rowsBefore, rows_tuple, Token.rows_variableOutline]
  | numeral token => simp [outlineBefore, rowsBefore, rows_tuple, Token.rows_outline]
  | parens opening body closing ih =>
    simp [outlineBefore, rowsBefore, rows_record, Token.rows_outline, ih]
  | unary op operand ih => simp [outlineBefore, rowsBefore, rows_record, Token.rows_outline, ih]
  | primary inner ih => simp [outlineBefore, rowsBefore, rows_tuple, ih]
  | power base op exponent ihbase ihexponent =>
    simp [outlineBefore, rowsBefore, rows_record, Token.rows_outline, ihbase, ihexponent]
  | single operand ih =>
    simp [outlineBefore, rowsBefore, rows_record, rows_list, chainName_append, ih]
  | chain left op right ihleft ihright =>
    -- the last operator and its operand are one more pair in front of those that are there
    rw [outlineBefore, rowsBefore, ihleft, List.map_cons]
    simp [rows_tuple, Token.rows_outline, ihright]

/-- The rows of a phrase are those of its outline. -/
theorem Phrase.rows_outline {l : Nat} (x : Phrase l) (depth : Nat) (label : String) :
    x.outline.rows depth label "," = x.rows depth label :=
  x.rows_outlineBefore [] depth label

/-- And so are those of a statement. -/
theorem Clause.rows_outline (clause : Clause) (depth : Nat) :
    clause.outline.rows depth "" "," = clause.rows depth := by
  cases clause with
  | declare keyword id eq exp =>
    simp [outline, rows, rows_record, Token.rows_outline, Phrase.rows_outline]
  | assign id eq exp =>
    simp [outline, rows, rows_record, Token.rows_outline, Token.rows_variableOutline,
      Phrase.rows_outline]
  | print keyword exp => simp [outline, rows, rows_record, Token.rows_outline, Phrase.rows_outline]

/-- A derivation is written line by line. -/
theorem Derivation.indented_eq_lines (derivation : Derivation) :
    derivation.outline.indented ++ "\n" = Row.lines derivation.rows := by
  rw [Outline.indented_eq_lines]
  simp [outline, rows, rows_record, rows_list, Function.comp_def, Clause.rows_outline]

end Reckon
