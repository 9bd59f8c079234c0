import Mathlib.Data.List.DropRight
import Reckon.Proofs.Lossless
import Reckon.Text.Line

/-!
# Reckon — the line that holds an offset

A text falls apart at its newlines, and the line that is looked up for an offset is one of the
pieces. The number of this line is told by the newlines in front of the offset, and the column by
the characters behind the last of them, so for an offset between two characters both can be read
off the part of the text in front of it. An offset that is not past the end either is between two
characters or inside one.

* `lineAt_holds` — where the line stands that is looked up, for all texts and offsets.
* `Line.Holds.exists_column`, `Line.Holds.getElem?_own_iff` — an offset between two characters, in
  its line, and the character there.
* `not_inside_iff` — the two kinds of offsets.
-/

namespace Reckon.Text

-- ---------------------------------------------------------------------------
-- Offsets inside a character, and between two
-- ---------------------------------------------------------------------------

section

variable {text front back : List Char} {n : Nat}

/-- The offset lies inside a character of the text. -/
def Inside (text : List Char) (n : Nat) : Prop :=
  ∃ front c back, text = front ++ c :: back ∧ size front < n ∧ n < size front + c.utf8Size

/-- Of two front parts of a text, the one with no more bytes is a front part of the other. -/
theorem exists_append_of_size_le {front' back' : List Char} (h : front ++ back = front' ++ back')
    (hle : size front ≤ size front') :
    ∃ between, front' = front ++ between ∧ back = between ++ back' := by
  rcases List.append_eq_append_iff.mp h with hfront | ⟨between, rfl, rfl⟩
  · exact hfront
  · have hnil : between = [] := by
      by_contra hne
      have hpos := size_pos hne
      rw [size_append] at hle
      omega
    exact ⟨[], by simp [hnil], by simp [hnil]⟩

theorem exists_split_or_inside (h : n ≤ size text) :
    (∃ front back, text = front ++ back ∧ size front = n) ∨ Inside text n := by
  induction text generalizing n with
  | nil => exact .inl ⟨[], [], rfl, (Nat.le_zero.mp h).symm⟩
  | cons c rest ih =>
    rcases Nat.eq_zero_or_pos n with rfl | hpos
    · exact .inl ⟨[], c :: rest, rfl, rfl⟩
    rcases Nat.lt_or_ge n c.utf8Size with hlt | hge
    · exact .inr ⟨[], c, rest, rfl, hpos, by simpa using hlt⟩
    rw [size_cons] at h
    rcases ih (n := n - c.utf8Size) (by omega) with hsplit | hinside
    · obtain ⟨front, back, rfl, hsize⟩ := hsplit
      exact .inl ⟨c :: front, back, rfl, by rw [size_cons]; omega⟩
    · obtain ⟨front, d, back, rfl, hlt, hgt⟩ := hinside
      exact .inr ⟨c :: front, d, back, rfl, by rw [size_cons]; omega, by rw [size_cons]; omega⟩

/-- An offset behind a front part of the text is inside none of its characters. -/
theorem not_inside_of_split (h : text = front ++ back) : ¬ Inside text (size front) := by
  rintro ⟨front', c, back', h', hlt, hgt⟩
  -- the character would begin in front of the split and end behind it
  obtain ⟨between, rfl, hbetween⟩ := exists_append_of_size_le (h'.symm.trans h) (Nat.le_of_lt hlt)
  rw [size_append] at hlt hgt
  cases between with
  | nil => exact absurd hlt (by simp)
  | cons d between =>
    obtain ⟨rfl, -⟩ := List.cons.inj hbetween
    rw [size_cons] at hgt
    omega

/-- An offset that is not past the end is inside no character exactly if a front part of the text
ends there. -/
theorem not_inside_iff (h : n ≤ size text) :
    ¬ Inside text n ↔ ∃ front back, text = front ++ back ∧ size front = n := by
  constructor
  · exact fun hnot => (exists_split_or_inside h).resolve_right hnot
  · rintro ⟨front, back, hsplit, rfl⟩
    exact not_inside_of_split hsplit

end

-- ---------------------------------------------------------------------------
-- Lines
-- ---------------------------------------------------------------------------

/-- The ways in which a text falls apart, as a principle of induction: it is one line without a
newline, or a line with its newline is in front of the rest. -/
@[elab_as_elim]
theorem lines_induction {motive : List Char → Prop} (last : ∀ own, '\n' ∉ own → motive own)
    (line : ∀ own later, '\n' ∉ own → motive later → motive (own ++ '\n' :: later))
    (text : List Char) : motive text := by
  induction hlength : text.length using Nat.strong_induction_on generalizing text with
  | _ n ih =>
    by_cases hmem : '\n' ∈ text
    · obtain ⟨own, later, rfl, hown⟩ := List.eq_append_cons_of_mem hmem
      refine line own later hown (ih later.length ?_ later rfl)
      rw [← hlength, List.length_append, List.length_cons]
      omega
    · exact last text hmem

section

variable {own : List Char}

theorem lines_last (h : '\n' ∉ own) (hne : own ≠ []) : lines own = [own] := by
  induction own with
  | nil => exact absurd rfl hne
  | cons c own ih =>
    obtain ⟨hc, hown⟩ := not_or.mp (mt List.mem_cons.mpr h)
    cases own with
    | nil => simp [lines, Ne.symm hc]
    | cons d own => simp [lines.eq_2 c, Ne.symm hc, ih hown (List.cons_ne_nil d own)]

theorem lines_line (h : '\n' ∉ own) (later : List Char) :
    lines (own ++ '\n' :: later) = (own ++ ['\n']) :: lines later := by
  induction own with
  | nil => simp [lines]
  | cons c own ih =>
    obtain ⟨hc, hown⟩ := not_or.mp (mt List.mem_cons.mpr h)
    rw [List.cons_append, lines.eq_2, if_neg (Ne.symm hc), ih hown]
    rfl

end

/-- A text that consists of whole lines, each with the newline that ends it. -/
def WholeLines (text : List Char) : Prop := ∀ c ∈ text.getLast?, c = '\n'

theorem wholeLines_append_line {own later : List Char} :
    WholeLines (own ++ '\n' :: later) ↔ WholeLines later := by
  cases later with
  | nil => simp [WholeLines]
  | cons c later => rw [WholeLines, List.getLast?_append_cons, List.getLast?_cons_cons]; rfl

/-- There are no whole lines without a newline. -/
theorem WholeLines.eq_nil {text : List Char} (h : WholeLines text) (hnone : '\n' ∉ text) :
    text = [] := by
  by_contra hne
  have hlast := h _ (List.getLast?_eq_some_getLast hne)
  exact hnone (hlast ▸ List.getLast_mem hne)

/-- The line holds the offset of the text, whose lines are numbered from `first`. It is the line
`own`, with its newline if there is one; in front of it are the lines `before`, and `behind` begins
with the newline. An offset at the newline belongs to the line, one behind it does not. -/
structure Line.Holds (line : Line) (first : Nat) (text : List Char) (offset : Nat)
    (before own behind : List Char) : Prop where
  split  : text = before ++ own ++ behind
  starts : WholeLines before
  plain  : '\n' ∉ own
  ends   : ∀ c ∈ behind.head?, c = '\n'
  text   : line.text = own ++ behind.take 1
  number : line.number = first + before.count '\n'
  offset : size before + line.offset = offset
  inside : line.offset ≤ size own

theorem size_newline : '\n'.utf8Size = 1 := by decide

/-- The line of an offset, in the lines of a text. -/
theorem lineAmong_holds {text : List Char} (first : Nat) {offset : Nat}
    (h : offset ≤ size text) :
    ∃ before own behind,
      (lineAmong first offset (lines text)).Holds first text offset before own behind := by
  -- along the lines: the offset is in the first one, or it is looked for in the rest
  induction text using lines_induction generalizing first offset with
  | last own hown =>
    have hlast : lineAmong first offset (lines own) = ⟨first, own, offset⟩ := by
      cases own with
      | nil =>
        obtain rfl := Nat.le_zero.mp h
        rfl
      | cons c own =>
        have hends : (c :: own).getLast? ≠ some '\n' :=
          fun hlast => hown (List.mem_of_getLast? hlast)
        rw [lines_last hown (List.cons_ne_nil c own), lineAmong, if_pos (.inr hends)]
    rw [hlast]
    exact ⟨[], own, [], by simp, by simp [WholeLines], hown, by simp, by simp, by simp, by simp, h⟩
  | line own later hown ih =>
    rw [lines_line hown, lineAmong]
    rw [size_append, size_cons, size_newline] at h
    have hsize : size (own ++ ['\n']) = size own + 1 := by simp [size_newline]
    split_ifs with hhere
    · -- the newline at the end rules out the second way to belong here
      have hlt : offset < size own + 1 := by
        rcases hhere with hlt | hends
        · rwa [hsize] at hlt
        · exact absurd (List.getLast?_concat ..) hends
      exact ⟨[], own, '\n' :: later, by simp, by simp [WholeLines], hown, by simp, by simp, by simp,
        by simp, Nat.le_of_lt_succ hlt⟩
    · obtain ⟨hge, -⟩ := not_or.mp hhere
      rw [hsize] at hge ⊢
      obtain ⟨before, own', behind, hholds⟩ :=
        @ih (first + 1) (offset - (size own + 1)) (by omega)
      refine ⟨own ++ '\n' :: before, own', behind, ?_, wholeLines_append_line.mpr hholds.starts,
        hholds.plain, hholds.ends, hholds.text, ?_, ?_, hholds.inside⟩
      · rw [hholds.split]
        simp
      · rw [hholds.number, List.count_append, List.count_cons_self,
          List.count_eq_zero_of_not_mem hown]
        omega
      · have hoffset := hholds.offset
        rw [size_append, size_cons, size_newline]
        omega

/-- The line that is looked up for an offset holds it. -/
theorem lineAt_holds (text : List Char) (offset : Nat) :
    ∃ before own behind,
      (lineAt text offset).Holds 1 text (min offset (size text)) before own behind :=
  lineAmong_holds 1 (Nat.min_le_right _ _)

-- ---------------------------------------------------------------------------
-- Lines and columns, read off what is in front of an offset
-- ---------------------------------------------------------------------------

/-- The number of the line that is reached behind `front`, counted from one. -/
def lineNumber (front : List Char) : Nat := 1 + front.count '\n'

/-- The characters of this line that are in `front`. -/
def lineFront (front : List Char) : List Char := front.rtakeWhile (· != '\n')

/-- The column that is reached behind `front`, in characters counted from one. -/
def column (front : List Char) : Nat := 1 + (lineFront front).length

section

variable {before own behind : List Char}

/-- Behind whole lines, the line in front of an offset begins anew. -/
theorem lineFront_append (hstarts : WholeLines before) (hown : '\n' ∉ own) :
    lineFront (before ++ own) = own := by
  have hstop : ∀ c ∈ before.reverse.head?, (c != '\n') = false := by
    intro c hc
    rw [List.head?_reverse] at hc
    simp [hstarts c hc]
  have hall : ∀ c ∈ own.reverse, (c != '\n') = true := by
    intro c hc
    rw [bne_iff_ne]
    rintro rfl
    exact hown (List.mem_reverse.mp hc)
  rw [lineFront, List.rtakeWhile, List.reverse_append, takeWhile_append_of_head hstop,
    List.takeWhile_eq_self_iff.mpr hall, List.reverse_reverse]

theorem lineNumber_append (hown : '\n' ∉ own) :
    lineNumber (before ++ own) = 1 + before.count '\n' := by
  rw [lineNumber, List.count_append, List.count_eq_zero_of_not_mem hown, Nat.add_zero]

/-- Behind whole lines, a line is the piece whose index is their number. -/
theorem getElem?_splitOn (hstarts : WholeLines before) (hown : '\n' ∉ own)
    (hends : ∀ c ∈ behind.head?, c = '\n') :
    ((before ++ own ++ behind).splitOn '\n')[before.count '\n']? = some own := by
  -- each whole line in front is one piece more, with its newline
  induction before using lines_induction with
  | last before hbefore =>
    obtain rfl := hstarts.eq_nil hbefore
    cases behind with
    | nil =>
      rw [List.append_nil, List.nil_append, List.splitOn_eq_singleton hown]
      rfl
    | cons c behind =>
      obtain rfl := hends c rfl
      rw [List.nil_append, List.splitOn_append_cons_self_of_not_mem hown]
      rfl
  | line first before hfirst ih =>
    rw [List.append_assoc, List.append_assoc, List.cons_append,
      List.splitOn_append_cons_self_of_not_mem hfirst, List.count_append, List.count_cons_self,
      List.count_eq_zero_of_not_mem hfirst, Nat.zero_add, List.getElem?_cons_succ,
      ← List.append_assoc]
    exact ih (wholeLines_append_line.mp hstarts)

end

namespace Line.Holds

variable {line : Line} {first offset : Nat} {text before own behind front back : List Char}

/-- An offset between two characters falls on a place in its line. -/
theorem exists_column (h : line.Holds first text offset before own behind)
    (hsplit : text = front ++ back) (hsize : size front = offset) :
    ∃ ahead, front = before ++ lineFront front ∧ own = lineFront front ++ ahead ∧
      back = ahead ++ behind ∧ size (lineFront front) = line.offset := by
  have hoffset := h.offset
  have hinside := h.inside
  obtain ⟨reached, hfront, hback⟩ : ∃ reached, front = before ++ reached ∧
      own ++ behind = reached ++ back := by
    apply exists_append_of_size_le
    · rw [← List.append_assoc, ← h.split, hsplit]
    · omega
  have hreached : size reached = line.offset := by
    rw [hfront, size_append] at hsize
    omega
  -- the line is no shorter than the way to the offset, so it goes on from there
  obtain ⟨ahead, hown, hback⟩ := exists_append_of_size_le hback.symm (by omega)
  have hplain : '\n' ∉ reached := fun hmem => h.plain (hown ▸ List.mem_append_left ahead hmem)
  have heq : lineFront front = reached := by
    rw [hfront]
    exact lineFront_append h.starts hplain
  rw [heq]
  exact ⟨ahead, hfront, hown, hback, hreached⟩

/-- The number of the line is told by what is in front of the offset. -/
theorem lineNumber_eq (h : line.Holds 1 text offset before own behind)
    (hsplit : text = front ++ back) (hsize : size front = offset) :
    lineNumber front = line.number := by
  obtain ⟨ahead, hfront, hown, -⟩ := h.exists_column hsplit hsize
  have hplain : '\n' ∉ lineFront front :=
    fun hmem => h.plain (hown ▸ List.mem_append_left ahead hmem)
  rw [hfront, lineNumber_append hplain, h.number]

/-- The character at the offset is in the line, at the column of the offset, unless it is the
newline that ends the line. -/
theorem getElem?_own_iff (h : line.Holds first text offset before own behind)
    (hsplit : text = front ++ back) (hsize : size front = offset) {c : Char} :
    own[column front - 1]? = some c ↔ back.head? = some c ∧ c ≠ '\n' := by
  obtain ⟨ahead, -, hown, hback, -⟩ := h.exists_column hsplit hsize
  have hahead : own[column front - 1]? = ahead.head? := by
    rw [column, Nat.add_sub_cancel_left, hown, List.getElem?_append_right (Nat.le_refl _),
      Nat.sub_self, List.head?_eq_getElem?]
  rw [hahead, hback]
  -- if the line ends there, the text goes on with a newline or not at all
  cases ahead with
  | nil =>
    constructor
    · exact fun hnone => absurd hnone (by simp)
    · rintro ⟨hhead, hne⟩
      exact absurd (h.ends c hhead) hne
  | cons d ahead =>
    constructor
    · intro hhead
      refine ⟨hhead, ?_⟩
      rintro rfl
      apply h.plain
      rw [hown]
      exact List.mem_append_right _ (List.mem_of_head? hhead)
    · exact And.left

/-- There is no cut of the line at the offset exactly if it lies inside a character of the text. -/
theorem cut_eq_none_iff (h : line.Holds first text offset before own behind) :
    cut line.offset line.text = none ↔ Inside text offset := by
  have hle : offset ≤ size text := by
    have hoffset := h.offset
    have hinside := h.inside
    rw [h.split, size_append, size_append]
    omega
  -- a cut of the line and a split of the text at the offset are made from each other
  rw [← not_iff_not, not_inside_iff hle]
  constructor
  · intro hne
    obtain ⟨⟨reached, after⟩, hcut⟩ := Option.ne_none_iff_exists'.mp hne
    obtain ⟨htext, hsize⟩ := eq_append_of_cut hcut
    refine ⟨before ++ reached, after ++ behind.drop 1, ?_, ?_⟩
    · rw [h.split, List.append_assoc, List.append_assoc, ← List.append_assoc reached, ← htext,
        h.text, List.append_assoc, List.take_append_drop]
    · rw [size_append, hsize, h.offset]
  · rintro ⟨front, back, hsplit, hsize⟩
    obtain ⟨ahead, -, hown, -, hcolumn⟩ := h.exists_column hsplit hsize
    rw [h.text, hown, ← hcolumn, List.append_assoc, cut_size_append]
    exact Option.some_ne_none _

end Line.Holds

end Reckon.Text
