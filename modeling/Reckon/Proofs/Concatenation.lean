import Reckon.Proofs.Lossless
import Reckon.Proofs.Wording

/-!
# Reckon — one source behind another

Two sources can be put on lines of their own, one behind the other, as one source. Nothing that the
first ends with reaches over the newline, not even a comment, so the tokens of the whole are those
of the one and those of the other, the end token between them left out.

Nothing that was read reaches over it in another sense. A statement that is complete could go on
with an operator, but no statement begins with one; so the second source begins anew, with all that
may stand there and with nothing left over from the first. That is told by the stages alone.

* `scan_newline`, `tokenize_newline` — the tokens.
* `Halt.of_front`, `Halt.behind` — where the whole halts if a part does.
* `parse_newline` — what comes out.
-/

namespace Reckon

open Text

-- ---------------------------------------------------------------------------
-- Tokens further back
-- ---------------------------------------------------------------------------

/-- The place so many bytes further back in its source. -/
def Position.later (n : Nat) (position : Position) : Position :=
  ⟨position.offset + n, position.file⟩

/-- The token so many bytes further back in its source. -/
def Token.later (n : Nat) (token : Token) : Token :=
  { token with span := ⟨token.span.start.later n, token.span.stop.later n⟩ }

theorem map_kind_later (n : Nat) (tokens : List Token) :
    (tokens.map (Token.later n)).map Token.kind = tokens.map Token.kind := by
  rw [List.map_map]
  rfl

theorem map_word_later (n : Nat) (tokens : List Token) :
    (tokens.map (Token.later n)).map Token.word = tokens.map Token.word := by
  rw [List.map_map]
  rfl

theorem ofLength_add (file : String) (offset n length : Nat) :
    Span.ofLength file (offset + n) length =
      ⟨.later n ⟨offset, file⟩, .later n ⟨offset + length, file⟩⟩ := by
  rw [Span.ofLength, Nat.add_right_comm]
  rfl

/-- The tokens of a text do not depend on its offset, except for their places. -/
theorem scan_add (file : String) (offset n : Nat) (text : List Char) :
    scan file (offset + n) text = (scan file offset text).map (Token.later n) := by
  induction text using reading_induction generalizing offset with
  | nil =>
    rw [scan_nil, scan_nil]
    rfl
  | layout c after hc ih => rw [scan_layout hc, scan_layout hc, Nat.add_right_comm, ih]
  | comment body rest hbody hend ih =>
    rw [scan_comment hbody hend, scan_comment hbody hend, Nat.add_right_comm, ih]
  | token c after kind hkind ih =>
    rw [scan_token hkind, scan_token hkind, List.map_cons, ← ih, ofLength_add, Nat.add_right_comm]
    rfl

-- ---------------------------------------------------------------------------
-- Tokens on both sides of a newline
-- ---------------------------------------------------------------------------

theorem scan_ne_nil (file : String) (offset : Nat) (text : List Char) :
    scan file offset text ≠ [] := by
  obtain ⟨front, position, hscan, -⟩ := exists_scan_eq file offset text
  rw [hscan]
  exact List.append_ne_nil_of_right_ne_nil _ (List.cons_ne_nil _ _)

/-- What stands before a newline is read as if nothing came behind, and what stands behind it as if
nothing came before. -/
theorem scan_newline (file : String) (offset : Nat) (first second : List Char) :
    scan file offset (first ++ '\n' :: second) =
      (scan file offset first).dropLast ++ scan file (offset + size first + 1) second := by
  induction first using reading_induction generalizing offset with
  | nil =>
    rw [List.nil_append, scan_layout rfl, scan_nil]
    rfl
  | layout c after hc ih =>
    rw [List.cons_append, scan_layout hc, scan_layout hc, ih, size_cons, Nat.add_assoc offset]
  | comment body rest hbody hend ih =>
    have hend' : ∀ c ∈ (rest ++ '\n' :: second).head?, c = '\n' := by
      -- where the first text ends with a comment, it is the newline that ends it
      cases rest with
      | nil => simp
      | cons d rest => exact hend
    rw [List.append_assoc, scan_comment hbody hend', scan_comment hbody hend, ih, size_append,
      Nat.add_assoc offset]
  | token c after kind hkind ih =>
    -- a newline is apart from what it follows, so it does not lengthen the lexeme
    have hapart : Apart ('\n' :: second) := by simp [Apart, isLayout]
    have happend := Lexeme.first_append hkind hapart
    have hsplit := congrArg size (Lexeme.first_text_append_rest c after)
    rw [size_append] at hsplit
    rw [List.cons_append, scan_token (by rw [happend]; exact hkind), happend, scan_token hkind,
      List.dropLast_cons_of_ne_nil (scan_ne_nil _ _ _), List.cons_append, ← hsplit,
      ← Nat.add_assoc offset, ← ih]
    rfl

/-- The tokens of two sources on lines of their own. -/
theorem exists_tokenize_newline (first second file : String) :
    ∃ front position, tokenize first file = front ++ [.endOfInput position] ∧
      (∀ token ∈ front, token.kind ≠ .endOfInput) ∧
      tokenize (first ++ "\n" ++ second) file =
        front ++ (tokenize second file).map (Token.later (size first.toList + 1)) := by
  obtain ⟨front, position, hfirst, hfront⟩ := exists_tokenize_eq first file
  refine ⟨front, position, hfirst, hfront, ?_⟩
  have hlist : (first ++ "\n" ++ second).toList = first.toList ++ '\n' :: second.toList := by
    simp
  rw [tokenize] at hfirst
  rw [tokenize, hlist, scan_newline, hfirst, List.dropLast_concat, Nat.add_assoc, scan_add]
  rfl

/--
**A newline parts the tokens.** The tokens of two sources with a newline between them are those of
the first without its end token, which stood right behind that source, and then those of the second,
each so many bytes further back as the first source and the newline take. It does not matter what
the first source ends with.
-/
theorem tokenize_newline (first second : String) (name : Option String) :
    ∃ front,
      tokenize first (name.getD defaultName) =
        front ++ [.endOfInput ⟨size first.toList, name.getD defaultName⟩] ∧
      (∀ token ∈ front, token.kind ≠ .endOfInput) ∧
      tokenize (first ++ "\n" ++ second) (name.getD defaultName) =
        front ++ (tokenize second (name.getD defaultName)).map fun token =>
          { token with span :=
              ⟨⟨token.span.start.offset + (size first.toList + 1), token.span.start.file⟩,
                ⟨token.span.stop.offset + (size first.toList + 1), token.span.stop.file⟩⟩ } := by
  obtain ⟨front, position, hfirst, hfront, hwhole⟩ :=
    exists_tokenize_newline first second (name.getD defaultName)
  obtain ⟨front', hended, -⟩ := (lossless_tokenize first (name.getD defaultName)).ended
  -- the same tokens, split before the last of them in two ways
  obtain rfl : front = front' := List.append_inj_left' (hfirst.symm.trans hended) rfl
  exact ⟨front, hended, hfront, hwhole⟩

-- ---------------------------------------------------------------------------
-- Printings and halts
-- ---------------------------------------------------------------------------

/-- Printings of two programs make one of all their statements. -/
theorem Program.Printing.append {program program' : Program} {words words' : List Word}
    (h : program.Printing words) (h' : program'.Printing words') :
    Program.Printing ⟨program.statements ++ program'.statements⟩ (words ++ words') := by
  obtain ⟨hne, parts, hparts, rfl⟩ := h
  obtain ⟨-, parts', hparts', rfl⟩ := h'
  refine ⟨List.append_ne_nil_of_left_ne_nil hne _, parts ++ parts', ?_, List.flatten_append.symm⟩
  exact List.rel_append hparts hparts'

namespace Halt

variable {tokens taken front : List Token} {stage : Stage} {found last : Token}

/-- A list that halts before its last token does so whatever stands there instead of it. -/
theorem of_front (h : Halt (front ++ [last]) taken stage found) (hne : found ≠ last)
    (more : List Token) : Halt (front ++ more) taken stage found := by
  obtain ⟨later, hsplit⟩ := h.split
  -- the list halts at its last token or before it, and the former is ruled out
  rcases List.eq_nil_or_concat later with rfl | ⟨between, final, rfl⟩
  · have hlast := List.append_inj_right' hsplit rfl
    exact absurd (List.cons.inj hlast).1.symm hne
  · rw [List.concat_eq_append, ← List.cons_append, ← List.append_assoc] at hsplit
    obtain rfl := List.append_inj_left' hsplit rfl
    exact ⟨⟨between ++ more, by simp⟩, h.run, h.going, h.dead⟩

/-- Behind a statement a list halts where it would by itself, if not at its first token. -/
theorem behind (h : Halt tokens taken stage found) (hne : taken ≠ [])
    (hfront : Stage.statement.run? (front.map Token.kind) = some (.operator 0)) :
    Halt (front ++ tokens) (front ++ taken) stage found := by
  obtain ⟨later, rfl⟩ := h.split
  refine ⟨⟨later, (List.append_assoc front taken _).symm⟩, ?_, h.going, h.dead⟩
  cases taken with
  | nil => exact absurd rfl hne
  | cons first taken =>
    have hrun := h.run
    rw [List.map_append, Stage.run?_append_of_eq hfront]
    -- a second statement may begin where an operator may follow the first one
    have hstart : first.kind ∈ Stage.statement.kinds := by
      by_contra hnone
      rw [List.map_cons, Stage.run?_cons, Stage.next?_eq_none_iff.mpr hnone] at hrun
      exact absurd hrun (by simp)
    rw [List.map_cons, Stage.run?_operator_of_start hstart]
    exact hrun

theorem later (h : Halt tokens taken stage found) (n : Nat) :
    Halt (tokens.map (Token.later n)) (taken.map (Token.later n)) stage (found.later n) := by
  obtain ⟨later, rfl⟩ := h.split
  refine ⟨⟨later.map (Token.later n), by simp⟩, ?_, h.going, h.dead⟩
  rw [map_kind_later]
  exact h.run

end Halt

-- ---------------------------------------------------------------------------
-- What comes out
-- ---------------------------------------------------------------------------

variable {first second file : String}

/-- Two programs on lines of their own are one program. -/
theorem parse_newline_of_ok {program program' : Program}
    (h : (parse first file).outcome = .ok program)
    (h' : (parse second file).outcome = .ok program') :
    (parse (first ++ "\n" ++ second) file).outcome =
      .ok ⟨program.statements ++ program'.statements⟩ := by
  rw [parse_outcome_eq_ok_iff_printing] at h h' ⊢
  obtain ⟨front, position, hfirst, hfront, hwhole⟩ := exists_tokenize_newline first second file
  rw [hfirst, beforeEnd_concat hfront] at h
  rw [hwhole, beforeEnd_append hfront, List.map_append, map_word_beforeEnd, map_word_later,
    ← map_word_beforeEnd]
  exact h.append h'

/-- What is wrong with the first source is wrong with both, unless it is that the first one ends. -/
theorem parse_newline_of_error {expected : List String} {found : String} {position : Position}
    (h : (parse first file).outcome = .error (.fault ⟨.unexpected expected found, position⟩))
    (hfound : found ≠ Kind.endOfInput.describe) :
    (parse (first ++ "\n" ++ second) file).outcome =
      .error (.fault ⟨.unexpected expected found, position⟩) := by
  obtain ⟨taken, stage, token, hhalt, hstop⟩ := parse_outcome_eq_error_iff_halt.mp h
  obtain ⟨front, last, hfirst, -, hwhole⟩ := exists_tokenize_newline first second file
  -- a halt at the end token would be reported as one
  have hne : token ≠ .endOfInput last := by
    rintro rfl
    obtain ⟨hcause, -⟩ := Fault.mk.inj (Stop.fault.inj hstop)
    exact hfound (Cause.unexpected.inj hcause).2
  rw [hfirst] at hhalt
  have hmore := hhalt.of_front hne
    ((tokenize second file).map (Token.later (size first.toList + 1)))
  rw [← hwhole] at hmore
  exact parse_outcome_eq_error_iff_halt.mpr ⟨taken, stage, token, hmore, hstop⟩

/-- What is wrong with the second source is wrong with both, unless it is its beginning. -/
theorem parse_newline_of_ok_of_error {program : Program} {expected : List String} {found : String}
    {position : Position} (h : (parse first file).outcome = .ok program)
    (h' : (parse second file).outcome = .error (.fault ⟨.unexpected expected found, position⟩))
    (hposition : (tokenize second file).head?.map (fun token => token.span.start) ≠ some position) :
    (parse (first ++ "\n" ++ second) file).outcome =
      .error (.fault ⟨.unexpected expected found, position.later (size first.toList + 1)⟩) := by
  obtain ⟨derivation, hcovers, -⟩ := parse_outcome_eq_ok_iff_covers.mp h
  obtain ⟨taken, stage, token, hhalt, hstop⟩ := parse_outcome_eq_error_iff_halt.mp h'
  obtain ⟨front, last, hfirst, hfront, hwhole⟩ := exists_tokenize_newline first second file
  have hfault := Stop.fault.inj hstop
  have hrun := hcovers.run?
  rw [hfirst, beforeEnd_concat hfront] at hrun
  -- with nothing taken the fault would be at the first token
  have hne : taken ≠ [] := by
    rintro rfl
    obtain ⟨later, hsplit⟩ := hhalt.split
    rw [hsplit] at hposition
    exact hposition (congrArg (some ∘ Fault.position) hfault.symm)
  have hbehind := (hhalt.later (size first.toList + 1)).behind
    (fun hnil => hne (List.map_eq_nil_iff.mp hnil)) hrun
  rw [← hwhole] at hbehind
  refine parse_outcome_eq_error_iff_halt.mpr ⟨_, stage, _, hbehind, ?_⟩
  obtain ⟨hcause, rfl⟩ := Fault.mk.inj hfault
  rw [hcause]
  rfl

/--
**Sources on lines of their own.** Two sources with a newline between them come out as both do one
after the other: as the statements of the first and of the second, or with the fault of the first
that is not its end, or, behind a first source that is good, with the fault of the second that is
not its beginning, so many bytes further back.
-/
theorem parse_newline (first second file : String) :
    (∀ program program', (parse first file).outcome = .ok program →
      (parse second file).outcome = .ok program' →
      (parse (first ++ "\n" ++ second) file).outcome =
        .ok ⟨program.statements ++ program'.statements⟩) ∧
    (∀ expected found position,
      (parse first file).outcome = .error (.fault ⟨.unexpected expected found, position⟩) →
      found ≠ Kind.endOfInput.describe →
      (parse (first ++ "\n" ++ second) file).outcome =
        .error (.fault ⟨.unexpected expected found, position⟩)) ∧
    (∀ program expected found position, (parse first file).outcome = .ok program →
      (parse second file).outcome = .error (.fault ⟨.unexpected expected found, position⟩) →
      (tokenize second file).head?.map (fun token => token.span.start) ≠ some position →
      (parse (first ++ "\n" ++ second) file).outcome =
        .error (.fault ⟨.unexpected expected found,
          ⟨position.offset + size first.toList + 1, position.file⟩⟩)) :=
  ⟨fun _ _ h h' => parse_newline_of_ok h h',
    fun _ _ _ h hfound => parse_newline_of_error h hfound,
    fun _ _ _ _ h h' hposition => parse_newline_of_ok_of_error h h' hposition⟩

/-- Two good sources, and the source `print )` before and behind a good one. -/
theorem parse_newline_prints :
    (parse ("print a" ++ "\n" ++ "print b") "f").outcome =
      .ok ⟨[.print (.identifier "a")] ++ [.print (.identifier "b")]⟩ ∧
    (parse ("print )" ++ "\n" ++ "print b") "f").outcome =
      .error (.fault ⟨.unexpected (Kind.primaryStarts.map Kind.describe) "\")\"", ⟨6, "f"⟩⟩) ∧
    (parse ("print a" ++ "\n" ++ "print )") "f").outcome =
      .error (.fault ⟨.unexpected (Kind.primaryStarts.map Kind.describe) "\")\"",
        ⟨6 + size "print a".toList + 1, "f"⟩⟩) := by
  have hgood : (parse "print a" "f").outcome = .ok ⟨[.print (.identifier "a")]⟩ := by
    decide +kernel
  have hgood' : (parse "print b" "f").outcome = .ok ⟨[.print (.identifier "b")]⟩ := by
    decide +kernel
  have hbad : (parse "print )" "f").outcome = .error (.fault
      ⟨.unexpected (Kind.primaryStarts.map Kind.describe) "\")\"", ⟨6, "f"⟩⟩) := by
    decide +kernel
  exact ⟨(parse_newline "print a" "print b" "f").1 _ _ hgood hgood',
    (parse_newline "print )" "print b" "f").2.1 _ _ _ hbad (by decide),
    (parse_newline "print a" "print )" "f").2.2 _ _ _ _ hgood hbad (by decide +kernel)⟩

end Reckon
