import Mathlib.Order.Bounds.Basic
import Reckon.Proofs.Lines

/-!
# Reckon — the line that holds an offset, told by bytes

An offset counts bytes, and it may be any number: it may lie inside a character, or past the end,
which then counts as the end. A newline is one byte, and no other character has this byte in it, so
the line can also be told by the bytes alone: it begins behind the last newline in front of the
offset, and it ends with the next one that is not in front of it.

* `count_newline_bytes` — the newlines among the bytes are those among the characters.
* `Line.Holds.lines_eq` — the lines in front of the one that holds an offset.
* `lineAt_exact` — the line that is looked up, for all texts and offsets.
-/

namespace Reckon.Text

-- ---------------------------------------------------------------------------
-- The bytes of a text
-- ---------------------------------------------------------------------------

/-- The bytes of a text in UTF-8. -/
def bytes (text : List Char) : List UInt8 := (String.ofList text).toUTF8.data.toList

/-- The byte of a newline. -/
def newlineByte : UInt8 := 10

/-- The bytes of a text are those of its characters, one after the other. -/
theorem bytes_eq_flatMap (text : List Char) : bytes text = text.flatMap String.utf8EncodeChar := by
  rw [bytes, String.toUTF8, String.toByteArray_ofList, List.utf8Encode,
    List.toList_data_toByteArray]

@[simp] theorem bytes_nil : bytes [] = [] := bytes_eq_flatMap []

@[simp] theorem bytes_cons (c : Char) (rest : List Char) :
    bytes (c :: rest) = String.utf8EncodeChar c ++ bytes rest := by
  rw [bytes_eq_flatMap, bytes_eq_flatMap, List.flatMap_cons]

/-- The bytes of two texts one after the other are those of both. -/
@[simp] theorem bytes_append (front back : List Char) :
    bytes (front ++ back) = bytes front ++ bytes back := by
  rw [bytes_eq_flatMap, bytes_eq_flatMap, bytes_eq_flatMap, List.flatMap_append]

/-- There are as many as the text measures. -/
@[simp] theorem length_bytes (text : List Char) : (bytes text).length = size text := by
  induction text with
  | nil => rfl
  | cons c rest ih =>
    rw [bytes_cons, List.length_append, String.length_utf8EncodeChar, ih, size_cons]

theorem utf8EncodeChar_newline : String.utf8EncodeChar '\n' = [newlineByte] := by decide

/-- Of all characters only the newline has the byte of the newline in it. -/
theorem newlineByte_mem_utf8EncodeChar {c : Char} :
    newlineByte ∈ String.utf8EncodeChar c ↔ c = '\n' := by
  constructor
  · intro hmem
    have hval : c.val.toNat = 10 := by
      simp only [String.utf8EncodeChar, newlineByte] at hmem
      -- in the longer forms all bytes are 128 and more
      split_ifs at hmem <;>
        simp only [List.mem_cons, List.not_mem_nil, or_false, ← UInt8.toNat_inj,
          UInt8.toNat_ofNat', UInt8.reduceToNat, Nat.reducePow] at hmem <;> omega
    exact Char.ext (UInt32.toNat_inj.mp hval)
  · rintro rfl
    rw [utf8EncodeChar_newline]
    exact List.mem_singleton_self _

/-- The byte of a newline is part of no other character. -/
theorem newlineByte_mem_bytes {text : List Char} : newlineByte ∈ bytes text ↔ '\n' ∈ text := by
  simp [bytes_eq_flatMap, List.mem_flatMap, newlineByte_mem_utf8EncodeChar]

/-- The newlines among the bytes are those among the characters. -/
theorem count_newline_bytes (text : List Char) :
    (bytes text).count newlineByte = text.count '\n' := by
  induction text using lines_induction with
  | last own hown =>
    rw [List.count_eq_zero_of_not_mem hown,
      List.count_eq_zero_of_not_mem (mt newlineByte_mem_bytes.mp hown)]
  | line own later hown ih =>
    rw [bytes_append, bytes_cons, utf8EncodeChar_newline, List.singleton_append, List.count_append,
      List.count_append, List.count_cons_self, List.count_cons_self, ih,
      List.count_eq_zero_of_not_mem hown,
      List.count_eq_zero_of_not_mem (mt newlineByte_mem_bytes.mp hown)]

/-- Whole lines, as bytes, end in the byte of a newline. -/
theorem WholeLines.getLast?_bytes {text : List Char} (h : WholeLines text) (hne : text ≠ []) :
    (bytes text).getLast? = some newlineByte := by
  obtain ⟨front, c, rfl⟩ := (List.eq_nil_or_concat' text).resolve_left hne
  obtain rfl : c = '\n' := h c (by simp)
  simp [utf8EncodeChar_newline]

-- ---------------------------------------------------------------------------
-- The lines in front of a line
-- ---------------------------------------------------------------------------

/-- Whole lines stay what they are before a rest. -/
theorem lines_append {before : List Char} (h : WholeLines before) (rest : List Char) :
    lines (before ++ rest) = lines before ++ lines rest := by
  induction before using lines_induction with
  | last before hbefore =>
    obtain rfl := h.eq_nil hbefore
    rfl
  | line own later hown ih =>
    rw [List.append_assoc, List.cons_append, lines_line hown, lines_line hown,
      ih (wholeLines_append_line.mp h), List.cons_append]

/-- There are as many whole lines as newlines. -/
theorem length_lines {before : List Char} (h : WholeLines before) :
    (lines before).length = before.count '\n' := by
  induction before using lines_induction with
  | last before hbefore =>
    obtain rfl := h.eq_nil hbefore
    rfl
  | line own later hown ih =>
    rw [lines_line hown, List.length_cons, ih (wholeLines_append_line.mp h), List.count_append,
      List.count_cons_self, List.count_eq_zero_of_not_mem hown, Nat.zero_add]

-- ---------------------------------------------------------------------------
-- The line that holds an offset
-- ---------------------------------------------------------------------------

/-- The places up to `offset` at which a line begins: that of the first byte, and those right behind
a newline. -/
def beginnings (text : List Char) (offset : Nat) : Set Nat :=
  {place | place ≤ offset ∧ (place = 0 ∨ (bytes text)[place - 1]? = some newlineByte)}

/-- The places from `offset` on at which a line ends: those right behind a newline that is not in
front of the offset, and the end of all bytes. -/
def endings (text : List Char) (offset : Nat) : Set Nat :=
  {place | offset < place ∧ (bytes text)[place - 1]? = some newlineByte ∨
    offset ≤ place ∧ place = (bytes text).length}

/-- The line goes from `start` to `stop` and is the one around an offset that is not past the end.
It is the next one behind as many lines as there are newlines in front of the offset. -/
structure Line.Exact (line : Line) (text : List Char) (offset start stop : Nat) : Prop where
  begins : IsGreatest (beginnings text offset) start
  ends   : IsLeast (endings text offset) stop
  slice  : bytes line.text = ((bytes text).take stop).drop start
  number : line.number = 1 + ((bytes text).take offset).count newlineByte
  column : line.offset = offset - start
  inside : line.offset ≤ (bytes line.text).length
  listed : line.text = (lines text)[line.number - 1]?.getD []
  ahead  : (bytes ((lines text).take (line.number - 1)).flatten).length + line.offset = offset

namespace Line.Holds

variable {line : Line} {text before own behind : List Char} {offset : Nat}

/-- The bytes of a text are those before its line, of the line and behind it. -/
theorem bytes_eq (h : line.Holds 1 text offset before own behind) :
    bytes text = bytes before ++ (bytes own ++ bytes behind) := by
  rw [h.split, bytes_append, bytes_append, List.append_assoc]

/-- There is no newline between the beginning of the line and its own end. -/
theorem getElem?_bytes_ne (h : line.Holds 1 text offset before own behind) {place : Nat}
    (hge : size before ≤ place) (hlt : place < size before + size own) :
    (bytes text)[place]? ≠ some newlineByte := by
  intro hplace
  rw [h.bytes_eq, List.getElem?_append_right (by rwa [length_bytes]), length_bytes,
    List.getElem?_append_left (by rw [length_bytes]; omega)] at hplace
  exact h.plain (newlineByte_mem_bytes.mp (List.mem_of_getElem? hplace))

/-- A newline behind the offset is not in front of the end of the line. -/
theorem lt_of_getElem?_bytes (h : line.Holds 1 text offset before own behind) {place : Nat}
    (hlt : offset < place) (hplace : (bytes text)[place - 1]? = some newlineByte) :
    size before + size own < place := by
  have hoffset := h.offset
  by_contra hle
  exact h.getElem?_bytes_ne (by omega) (by omega) hplace

/-- The line begins behind the last newline before the offset. -/
theorem isGreatest_beginnings (h : line.Holds 1 text offset before own behind) :
    IsGreatest (beginnings text offset) (size before) := by
  have hoffset := h.offset
  have hinside := h.inside
  refine ⟨⟨by omega, ?_⟩, ?_⟩
  · rcases List.eq_nil_or_concat' before with rfl | ⟨front, c, rfl⟩
    · exact .inl rfl
    · have hne : front ++ [c] ≠ [] := List.append_ne_nil_of_right_ne_nil _ (List.cons_ne_nil c [])
      -- the lines before end with a newline, and its byte is the last of theirs
      have hlast := h.starts.getLast?_bytes hne
      have hpos := size_pos hne
      refine .inr ?_
      rw [h.bytes_eq, List.getElem?_append_left (by rw [length_bytes]; omega), ← length_bytes,
        ← List.getLast?_eq_getElem?]
      exact hlast
  · rintro place ⟨hle, rfl | hplace⟩
    · exact Nat.zero_le _
    · by_contra hgt
      -- a later beginning would have its newline in the line itself
      exact h.getElem?_bytes_ne (by omega) (by omega) hplace

/-- The line with its newline, if there is one, goes up to where a line ends. -/
theorem isLeast_endings (h : line.Holds 1 text offset before own behind) :
    IsLeast (endings text offset) (size before + size line.text) := by
  have hoffset := h.offset
  have hinside := h.inside
  have htext := h.text
  have hlength : (bytes text).length = size before + size own + size behind := by
    rw [length_bytes, h.split, size_append, size_append]
  cases behind with
  | nil =>
    -- with nothing behind, the line ends where all bytes do
    rw [List.take_nil, List.append_nil] at htext
    rw [htext]
    refine ⟨.inr ⟨by omega, by rw [hlength]; rfl⟩, ?_⟩
    rintro place (⟨hlt, hplace⟩ | ⟨-, rfl⟩)
    · exact Nat.le_of_lt (h.lt_of_getElem?_bytes hlt hplace)
    · rw [hlength]
      exact Nat.le_add_right _ _
  | cons c later =>
    -- and otherwise behind its newline, which is one byte
    obtain rfl := h.ends c rfl
    have hsize : size line.text = size own + 1 := by
      rw [htext, List.take_succ_cons, List.take_zero, size_append, size_cons, size_newline,
        size_nil]
    rw [size_cons, size_newline] at hlength
    rw [hsize]
    refine ⟨.inl ⟨by omega, ?_⟩, ?_⟩
    · rw [h.bytes_eq, ← Nat.add_assoc, Nat.add_sub_cancel, ← List.append_assoc,
        List.getElem?_append_right (by simp), bytes_cons, utf8EncodeChar_newline]
      simp
    · rintro place (⟨hlt, hplace⟩ | ⟨-, rfl⟩)
      · exact h.lt_of_getElem?_bytes hlt hplace
      · omega

/-- In front of the offset there are the newlines of the lines before. -/
theorem count_take_bytes (h : line.Holds 1 text offset before own behind) :
    ((bytes text).take offset).count newlineByte = before.count '\n' := by
  have hown : newlineByte ∉ (bytes own).take line.offset :=
    fun hmem => h.plain (newlineByte_mem_bytes.mp (List.mem_of_mem_take hmem))
  -- up to the offset there are whole lines, and a part of this one, which has no newline
  rw [h.bytes_eq, ← h.offset, ← length_bytes, List.take_length_add_append,
    List.take_append_of_le_length (by rw [length_bytes]; exact h.inside), List.count_append,
    List.count_eq_zero_of_not_mem hown, count_newline_bytes, Nat.add_zero]

/-- The line is cut out of the bytes of the text. -/
theorem bytes_text (h : line.Holds 1 text offset before own behind) :
    bytes line.text =
      ((bytes text).take (size before + size line.text)).drop (size before) := by
  obtain ⟨later, hsplit⟩ : ∃ later, text = before ++ (line.text ++ later) := by
    refine ⟨behind.drop 1, ?_⟩
    rw [h.text, List.append_assoc, List.take_append_drop, ← List.append_assoc, h.split]
  rw [hsplit, bytes_append, bytes_append, ← length_bytes before, ← length_bytes line.text,
    List.take_length_add_append, List.drop_left, List.take_left]

/-- The lines before the line are the whole lines in front of it, and the line is the next one. -/
theorem lines_eq (h : line.Holds 1 text offset before own behind) :
    (lines text).take (line.number - 1) = lines before ∧
      line.text = (lines text)[line.number - 1]?.getD [] := by
  have hnumber : line.number - 1 = (lines before).length := by
    rw [h.number, length_lines h.starts]
    omega
  have hlines : lines text = lines before ++ lines (own ++ behind) := by
    rw [h.split, List.append_assoc, lines_append h.starts]
  rw [hnumber, hlines, List.take_left, List.getElem?_append_right (Nat.le_refl _), Nat.sub_self,
    h.text]
  refine ⟨rfl, ?_⟩
  cases behind with
  | nil =>
    -- a line that is empty and last is not listed
    rcases eq_or_ne own [] with rfl | hne
    · rfl
    · rw [List.append_nil, lines_last h.plain hne, List.take_nil, List.append_nil]
      rfl
  | cons c later =>
    obtain rfl := h.ends c rfl
    rw [lines_line h.plain]
    rfl

/-- A line that holds an offset is told by the bytes of the text. -/
theorem exact (h : line.Holds 1 text offset before own behind) :
    line.Exact text offset (size before) (size before + size line.text) where
  begins := h.isGreatest_beginnings
  ends := h.isLeast_endings
  slice := h.bytes_text
  number := by rw [h.number, h.count_take_bytes]
  column := by rw [← h.offset, Nat.add_sub_cancel_left]
  inside := by
    have hinside := h.inside
    rw [length_bytes, h.text, size_append]
    omega
  listed := h.lines_eq.2
  ahead := by rw [h.lines_eq.1, flatten_lines, length_bytes, h.offset]

end Line.Holds

/--
**The line at an offset.** For every text and every offset, one past the end counting as the end,
the line that is looked up goes from behind the last newline in front of the offset to behind the
next one that is not, or from the first byte and to the last if there is none. Its number counts the
newlines in front of the offset, and the lines before it and the bytes of it in front of the offset
make up all that is in front.
-/
theorem lineAt_exact (text : List Char) (offset : Nat) :
    ∃ start stop,
      (lineAt text offset).Exact text (min offset (bytes text).length) start stop := by
  rw [length_bytes]
  obtain ⟨before, own, behind, hholds⟩ := lineAt_holds text offset
  exact ⟨_, _, hholds.exact⟩

-- inside a character, and past an end that is behind a newline
example : lineAt ['a', '\n', 'é', '\n'] 3 = ⟨2, ['é', '\n'], 1⟩ ∧
    lineAt ['a', '\n', 'é', '\n'] 9 = ⟨3, [], 0⟩ := by decide

end Reckon.Text
