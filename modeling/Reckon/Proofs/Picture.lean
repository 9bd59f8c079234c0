import Reckon.Fault.Report
import Reckon.Proofs.Lines
import Reckon.Proofs.Munch
import Reckon.Proofs.Wording

/-!
# Reckon — reports point at the right place

A report has no cut to offer for an offset inside a character, and in every other case it is a
picture of the place: the number of the line and the column are those that the source in front of
the offset tells, and the caret stands below the character at the offset, however many digits the
number of the line has. That the line is shown without the blanks at its end moves nothing.

The offsets in faults of a source are starts of tokens. So these have a report, and the caret stands
below the first character of the token that was found.

* `Fault.Pictured` — five lines that show a place.
* `Fault.reportLines?_eq_none_iff`, `Fault.exists_line` — where there is a report, and its lines.
* `report_pictures` — all reports, and those of the faults of a source.
-/

namespace Reckon

open Text

-- ---------------------------------------------------------------------------
-- Texts on one line
-- ---------------------------------------------------------------------------

/-- The text has no newline. -/
def Plain (text : String) : Prop := '\n' ∉ text.toList

instance (text : String) : Decidable (Plain text) :=
  inferInstanceAs (Decidable ('\n' ∉ text.toList))

/-- A text in one line is made of texts in one line. -/
@[simp] theorem plain_append {first second : String} :
    Plain (first ++ second) ↔ Plain first ∧ Plain second := by
  simp [Plain, String.toList_append, not_or]

@[simp] theorem plain_ofList {text : List Char} : Plain (String.ofList text) ↔ '\n' ∉ text := by
  rw [Plain, String.toList_ofList]

/-- The digits of a number stand in one line. -/
@[simp] theorem plain_repr (n : Nat) : Plain n.repr := by
  intro hmem
  rw [Nat.toList_repr] at hmem
  exact absurd (Nat.isDigit_of_mem_toDigits (by decide) (by decide) hmem) (by decide)

/-- And so do alternatives that do. -/
theorem plain_alternatives {texts : List String} (h : ∀ text ∈ texts, Plain text) :
    Plain (alternatives texts) := by
  induction texts using alternatives.induct with
  | case1 => decide
  | case2 only => exact h only List.mem_cons_self
  | case3 first last =>
    rw [alternatives, plain_append, plain_append]
    exact ⟨⟨h first (by simp), by decide⟩, h last (by simp)⟩
  | case4 first second later _ ih =>
    rw [alternatives, plain_append, plain_append]
    · exact ⟨⟨h first (by simp), by decide⟩, ih fun text hmem => h text (.tail _ hmem)⟩
    · assumption

/-- The texts that a cause keeps. -/
def Cause.texts : Cause → List String
  | .unexpected expected found => found :: expected
  | .badNumber text => [text]

/-- A heading is one line if the texts in it are. -/
theorem Fault.plain_heading {fault : Fault} (h : ∀ text ∈ fault.cause.texts, Plain text) :
    Plain fault.heading := by
  obtain ⟨cause, position⟩ := fault
  cases cause with
  | unexpected expected found =>
    obtain ⟨hfound, hexpected⟩ := List.forall_mem_cons.mp h
    have hwords := plain_alternatives hexpected
    have hheading : heading ⟨.unexpected expected found, position⟩ = "Error: SyntaxError (" ++
      ("Unexpected " ++ found ++ ", expected " ++ alternatives expected) ++ ")" := rfl
    rw [hheading]
    simp only [plain_append, hfound, hwords]
    decide
  | badNumber text =>
    have htext := h text List.mem_cons_self
    have hheading : heading ⟨.badNumber text, position⟩ = "Error: NumberParseError (" ++
      ("Invalid number: \x60" ++ text ++ "\x60") ++ ")" := rfl
    rw [hheading]
    simp only [plain_append, htext]
    decide

-- ---------------------------------------------------------------------------
-- Lines without the blanks at their end
-- ---------------------------------------------------------------------------

/-- A character that is not blank stays in its place. -/
theorem getElem?_trimEnd {text : List Char} {i : Nat} {c : Char} (h : text[i]? = some c)
    (hc : isBlank c = false) : (trimEnd text)[i]? = some c := by
  obtain ⟨dropped, hsplit, hdropped, -⟩ := trimEnd_spec text
  rw [hsplit] at h
  rcases Nat.lt_or_ge i (trimEnd text).length with hlt | hge
  · rwa [List.getElem?_append_left hlt] at h
  · rw [List.getElem?_append_right hge] at h
    rw [hdropped c (List.mem_of_getElem? h)] at hc
    exact absurd hc (by decide)

/-- To trim a text adds no character. -/
theorem trimEnd_subset (text : List Char) : trimEnd text ⊆ text := by
  obtain ⟨dropped, hsplit, -, -⟩ := trimEnd_spec text
  intro c hc
  rw [hsplit]
  exact List.mem_append_left _ hc

/-- The newline that ends a line is among the blanks that it is shown without. -/
theorem Text.Line.Holds.trimEnd_text {line : Line} {first offset : Nat}
    {text before own behind : List Char} (h : line.Holds first text offset before own behind) :
    trimEnd line.text = trimEnd own := by
  rw [h.text]
  apply trimEnd_append_blanks
  intro c hc
  cases behind with
  | nil => exact absurd hc (by simp)
  | cons d behind =>
    obtain rfl := h.ends d rfl
    obtain rfl : c = '\n' := by simpa using hc
    decide

-- ---------------------------------------------------------------------------
-- The lines of a report
-- ---------------------------------------------------------------------------

namespace Fault

variable {fault : Fault} {source front back own : List Char} {lines : List (List Char)}

/-- The offset of the fault in the source, at most that of its end. -/
def offsetIn (fault : Fault) (source : List Char) : Nat := min fault.position.offset (size source)

/-- The report of the fault at the place behind `front`, in the line `own`. -/
def drawing (fault : Fault) (front own : List Char) : List String :=
  let number := toString (lineNumber front)
  let margin := String.ofList (List.replicate (number.length + 1) ' ')
  [fault.heading,
    "-> " ++ fault.position.file ++ ":" ++ number ++ ":" ++ toString (column front),
    margin ++ "|",
    number ++ " | " ++ String.ofList (trimEnd own),
    margin ++ "| " ++ String.ofList (List.replicate (lineFront front).length '-') ++ "^"]

/-- The lines show the fault at the place behind `front`, which is in front of `back`. The first one
is its heading, and the second one tells the line and the column. The fourth one shows this line of
the source behind its number, which the margins of the others leave room for. The caret ends the
last one, as far behind the margin as the place is from the start of the line. -/
structure Pictured (fault : Fault) (source front back : List Char) (lines : List (List Char)) :
    Prop where
  five    : lines.length = 5
  heading : lines[0]? = some fault.heading.toList
  place   : lines[1]? = some ("-> " ++ fault.position.file ++ ":" ++
              toString (lineNumber front) ++ ":" ++ toString (column front)).toList
  margin  : lines[2]? = some (List.replicate ((toString (lineNumber front)).length + 1) ' ' ++
              ['|'])
  shown   : ∃ own, (source.splitOn '\n')[lineNumber front - 1]? = some own ∧
              lines[3]? = some ((toString (lineNumber front)).toList ++ [' ', '|', ' '] ++
                trimEnd own) ∧
              ∀ c, own[column front - 1]? = some c ↔ back.head? = some c ∧ c ≠ '\n'
  caret   : ∃ before, lines[4]? = some (before ++ ['^']) ∧
              before.length = (toString (lineNumber front)).length + 3 + (column front - 1)

/-- The caret that ends the last line stands below the character in the line that is shown. -/
def CaretBelow (lines : List (List Char)) (c : Char) : Prop :=
  ∃ shown before, lines[3]? = some shown ∧ lines[4]? = some (before ++ ['^']) ∧
    shown[before.length]? = some c

/-- The caret stands below the character at the offset, if this is not one of the blanks that a line
may be shown without. -/
theorem Pictured.caretBelow (h : fault.Pictured source front back lines) {c : Char}
    (hback : back.head? = some c) (hc : isBlank c = false) : CaretBelow lines c := by
  obtain ⟨own, -, hshown, hown⟩ := h.shown
  obtain ⟨before, hcaret, hlength⟩ := h.caret
  have hne : c ≠ '\n' := by
    rintro rfl
    exact absurd hc (by decide)
  -- the blanks that the line is shown without are behind the character
  have htrim := getElem?_trimEnd ((hown c).mpr ⟨hback, hne⟩) hc
  refine ⟨_, before, hshown, hcaret, ?_⟩
  have hmargin : ((toString (lineNumber front)).toList ++ [' ', '|', ' ']).length =
      (toString (lineNumber front)).length + 3 := by
    rw [List.length_append, String.length_toList]
    rfl
  rw [List.getElem?_append_right (by omega), hmargin, hlength, Nat.add_sub_cancel_left]
  exact htrim

/-- For an offset that is between two characters there is a report, of the line that it is in. -/
theorem exists_line (hsplit : source = front ++ back)
    (hsize : size front = fault.offsetIn source) :
    ∃ own, fault.reportLines? source = some (fault.drawing front own) ∧ '\n' ∉ own ∧
      (source.splitOn '\n')[lineNumber front - 1]? = some own ∧
      ∀ c, own[column front - 1]? = some c ↔ back.head? = some c ∧ c ≠ '\n' := by
  -- the line that is looked up is the one that the split is in
  obtain ⟨before, own, behind, hholds⟩ := lineAt_holds source fault.position.offset
  have hnumber := hholds.lineNumber_eq hsplit hsize
  have hcut : cut (lineAt source fault.position.offset).offset
      (lineAt source fault.position.offset).text =
        some (lineFront front, (own ++ behind.take 1).drop (lineFront front).length) := by
    obtain ⟨ahead, -, hown, -, hcolumn⟩ := hholds.exists_column hsplit hsize
    rw [← hcolumn, hholds.text, hown, List.append_assoc, cut_size_append, List.drop_left]
  refine ⟨own, ?_, hholds.plain, ?_, fun c => hholds.getElem?_own_iff hsplit hsize⟩
  · simp only [reportLines?, hcut, ← hnumber, hholds.trimEnd_text, drawing, column,
      Nat.add_comm 1 (lineFront front).length]
    rfl
  · rw [hnumber, hholds.number, Nat.add_sub_cancel_left, hholds.split]
    exact getElem?_splitOn hholds.starts hholds.plain hholds.ends

/-- There is no report exactly for a place inside a character. -/
theorem reportLines?_eq_none_iff :
    fault.reportLines? source = none ↔ Inside source (fault.offsetIn source) := by
  obtain ⟨before, own, behind, hholds⟩ := lineAt_holds source fault.position.offset
  rw [offsetIn, ← hholds.cut_eq_none_iff]
  simp only [reportLines?]
  cases cut _ _ <;> simp

/-- The lines of a drawing have no newlines, if the name of the file and the texts of the cause have
none. -/
theorem plain_of_mem_drawing (hfile : Plain fault.position.file)
    (htexts : ∀ text ∈ fault.cause.texts, Plain text) (hown : '\n' ∉ own) :
    ∀ line ∈ fault.drawing front own, Plain line := by
  have htrim : '\n' ∉ trimEnd own := fun hmem => hown (trimEnd_subset own hmem)
  have hmargin : Plain "-> " ∧ Plain ":" ∧ Plain "|" ∧ Plain " | " ∧ Plain "| " ∧ Plain "^" := by
    decide
  simp [drawing, plain_heading htexts, hfile, htrim, hmargin]

/-- A report is a drawing of its place, on lines that can be told apart. -/
theorem pictured_of_report? {source report : String} (h : fault.report? source = some report)
    (hfile : Plain fault.position.file) (htexts : ∀ text ∈ fault.cause.texts, Plain text)
    (hsplit : source.toList = front ++ back) (hsize : size front = fault.offsetIn source.toList) :
    fault.Pictured source.toList front back (report.toList.splitOn '\n') := by
  obtain ⟨own, hlines, hplain, hown, hbelow⟩ := exists_line hsplit hsize
  have hreport : "\n".intercalate (fault.drawing front own) = report := by
    rw [report?, hlines] at h
    exact Option.some.inj h
  -- no line has a newline of its own, so all newlines of the report are between its lines
  have hpieces : report.toList.splitOn '\n' = (fault.drawing front own).map String.toList := by
    rw [← hreport, String.toList_intercalate]
    apply List.splitOn_intercalate
    · intro text hmem
      obtain ⟨line, hline, rfl⟩ := List.mem_map.mp hmem
      exact plain_of_mem_drawing hfile htexts hplain line hline
    · exact List.cons_ne_nil _ _
  rw [hpieces]
  refine ⟨rfl, rfl, rfl, ?_, ⟨own, hown, ?_, hbelow⟩, ?_⟩
  · simp [drawing, String.toList_append]
  · simp [drawing, String.toList_append]
  · refine ⟨(String.ofList (List.replicate ((toString (lineNumber front)).length + 1) ' ') ++
      "| " ++ String.ofList (List.replicate (lineFront front).length '-')).toList, ?_, ?_⟩
    · simp [drawing, String.toList_append]
    · simp [column]
      omega

end Fault

-- ---------------------------------------------------------------------------
-- The faults of a source
-- ---------------------------------------------------------------------------

variable {source file : String} {token : Token}

/-- The text of a token has no newline. -/
theorem Token.Munched.plain {c : Char} {after : List Char} (h : token.Munched c after) :
    Plain token.text := by
  intro hmem
  by_cases hletter : isLetter c = true
  · have hword := (h.word hletter).1.fits _ hmem
    exact absurd hword (by decide)
  -- a number has digits and a point; a mark is one of a short list
  by_cases hdigit : c.isDigit = true
  · rcases (h.number hdigit).1.fits with hdigits | ⟨whole, places, htext, hwhole, hplaces⟩
    · exact absurd (hdigits.2 _ hmem) (by decide)
    · rw [htext, List.mem_append, List.mem_cons] at hmem
      rcases hmem with hwhole' | hpoint | hplaces'
      · exact absurd (hwhole.2 _ hwhole') (by decide)
      · exact absurd hpoint (by decide)
      · exact absurd (hplaces.2 _ hplaces') (by decide)
  by_cases hmark : [c] ∈ marks
  · have hplain : ∀ text ∈ marks, '\n' ∉ text := by decide
    exact hplain _ (h.mark hmark).1.fits hmem
  · rw [Bool.not_eq_true] at hletter hdigit
    obtain ⟨hkind, -⟩ := h.other hletter hdigit hmark
    obtain ⟨htext, hlayout, -⟩ := h.unrecognised hkind
    rw [htext, List.mem_singleton] at hmem
    exact hlayout (by simp [← hmem])

/-- The tokens of a source begin between two characters, with the character that stands there. -/
theorem exists_split_of_mem_tokenize (h : token ∈ tokenize source file) :
    ∃ front back, source.toList = front ++ back ∧ size front = token.span.start.offset ∧
      Plain token.text ∧ (token.kind ≠ .endOfInput → token.text.toList.head? = back.head?) := by
  -- the end token stands behind the whole source, and every other one at its lexeme
  by_cases hkind : token.kind = .endOfInput
  · obtain ⟨tokens, hended, hothers⟩ := (lossless_tokenize source file).ended
    rw [hended, List.mem_append, List.mem_singleton] at h
    rcases h with hmem | rfl
    · exact absurd hkind (hothers token hmem)
    · have hplain : Plain "EOF" := by decide
      exact ⟨source.toList, [], by simp, rfl, hplain, fun hne => absurd rfl hne⟩
  · obtain ⟨front, c, after, hsplit, hstart, hfirst, htext⟩ := exists_first_of_mem_scan h hkind
    obtain ⟨own, hown, -⟩ := Lexeme.text_eq_cons c after
    refine ⟨front, c :: after, hsplit, ?_, (Token.Munched.of_first hfirst htext).plain, fun _ => ?_⟩
    · rw [hstart, Nat.zero_add]
    · rw [htext, String.toList_ofList, hown]
      rfl

theorem plain_describe (kind : Kind) : Plain kind.describe := by
  cases kind <;> decide

/-- A token is described in one line if its text is one. -/
theorem Token.plain_describe (h : Plain token.text) : Plain token.describe := by
  have hquote : Plain "\"" := by decide
  unfold describe
  split
  · decide
  · simp [hquote, h]

/-- The fault at a token: it has a report, whose caret stands below the first character of the
token. -/
structure Fault.ShownAt (fault : Fault) (source : String) (found : Token) (report : String) :
    Prop where
  reported : fault.report? source = some report
  position : fault.position = found.span.start
  cause    : ∃ expected, fault.cause = .unexpected expected found.describe
  plain    : ∀ text ∈ fault.cause.texts, Plain text
  caret    : Plain fault.position.file → found.kind ≠ .endOfInput →
               ∀ c ∈ found.text.toList.head?, isBlank c = false →
                 Fault.CaretBelow (report.toList.splitOn '\n') c

/-- Every token of a source can be shown in it. -/
theorem exists_shownAt (h : token ∈ tokenize source file) (stage : Stage) :
    ∃ report, (stage.fault token).ShownAt source token report := by
  obtain ⟨front, back, hsplit, hstart, hplain, hhead⟩ := exists_split_of_mem_tokenize h
  have hoffset : size front = (stage.fault token).offsetIn source.toList := by
    have hle : size front ≤ size source.toList := by
      rw [hsplit, size_append]
      exact Nat.le_add_right _ _
    rw [Fault.offsetIn, Stage.fault, ← hstart, Nat.min_eq_left hle]
  obtain ⟨report, hreport⟩ : ∃ report, (stage.fault token).report? source = some report := by
    obtain ⟨own, hlines, -⟩ := Fault.exists_line hsplit hoffset
    exact ⟨_, by rw [Fault.report?, hlines]; rfl⟩
  -- a fault of the grammar tells kinds and the token that was found, all in one line
  have htexts : ∀ text ∈ (stage.fault token).cause.texts, Plain text := by
    refine List.forall_mem_cons.mpr ⟨token.plain_describe hplain, ?_⟩
    rw [List.forall_mem_map]
    exact fun kind _ => plain_describe kind
  refine ⟨report, hreport, rfl, ⟨_, rfl⟩, htexts, ?_⟩
  intro hfile hkind c hc hblank
  have hpictured := Fault.pictured_of_report? hreport hfile htexts hsplit hoffset
  exact hpictured.caretBelow ((hhead hkind).symm.trans hc) hblank

/--
**Reports point at the right place.** A fault has no report exactly if its offset, which counts as
the end if it is past the end, is inside a character of the source. A report in which the newlines
can only be those between its lines is a picture of the place at the offset. The faults of a source
have a report, and the caret stands below the first character of the token that was found.
-/
theorem report_pictures (source : String) :
    (∀ fault : Fault, fault.report? source = none ↔
      Inside source.toList (min fault.position.offset (size source.toList))) ∧
    (∀ (fault : Fault) (report : String), fault.report? source = some report →
      Plain fault.position.file → (∀ text ∈ fault.cause.texts, Plain text) →
      ∃ front back, source.toList = front ++ back ∧
        size front = min fault.position.offset (size source.toList) ∧
        fault.Pictured source.toList front back (report.toList.splitOn '\n')) ∧
    (∀ file stop, (parse source file).outcome = .error stop →
      ∃ fault, stop = .fault fault ∧
        ∃ found ∈ tokenize source file, ∃ report, fault.ShownAt source found report) := by
  refine ⟨fun fault => ?_, fun fault report h hfile htexts => ?_, fun file stop h => ?_⟩
  · rw [Fault.report?, Option.map_eq_none_iff]
    exact Fault.reportLines?_eq_none_iff
  · have hlines : fault.reportLines? source.toList ≠ none := by
      intro hnone
      rw [Fault.report?, hnone] at h
      exact absurd h (by simp)
    rw [ne_eq, Fault.reportLines?_eq_none_iff, Fault.offsetIn,
      not_inside_iff (Nat.min_le_right _ _)] at hlines
    obtain ⟨front, back, hsplit, hsize⟩ := hlines
    exact ⟨front, back, hsplit, hsize, Fault.pictured_of_report? h hfile htexts hsplit hsize⟩
  · obtain ⟨taken, stage, found, hhalt, rfl⟩ := parse_outcome_eq_error_iff_halt.mp h
    have hmem := List.mem_of_getElem? hhalt.getElem?
    exact ⟨_, rfl, found, hmem, exists_shownAt hmem stage⟩

/-- An offset inside the only character of a source, and the source `let = 5`. -/
theorem report_pictures_of_let :
    (∀ cause, Fault.report? ⟨cause, ⟨1, "a"⟩⟩ "é" = none) ∧
    ∃ stop, (parse "let = 5" "a").outcome = .error stop ∧
      ∃ fault, stop = .fault fault ∧
        ∃ found ∈ tokenize "let = 5" "a", ∃ report, fault.ShownAt "let = 5" found report := by
  constructor
  · have hinside : Inside "é".toList (min 1 (size "é".toList)) :=
      ⟨[], 'é', [], rfl, by decide, by decide⟩
    exact fun cause => ((report_pictures "é").1 _).mpr hinside
  · have hstop : (parse "let = 5" "a").outcome =
        .error (.fault ⟨.unexpected ["an identifier"] "\"=\"", ⟨4, "a"⟩⟩) := by
      decide +kernel
    exact ⟨_, hstop, (report_pictures "let = 5").2.2 "a" _ hstop⟩

end Reckon
