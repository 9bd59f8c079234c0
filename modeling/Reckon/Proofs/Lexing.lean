import Mathlib.Data.List.TakeWhile
import Reckon.Token.Scan

/-!
# Reckon — lexemes in other surroundings

The reading of a source looks at an unbounded rest, but what it finds there is settled close by. A
token is not changed by a text put behind all that follows it, if this text begins with layout; nor
by cutting off all that follows it. So the text of a token is read as the same token wherever it
stands, as long as nothing or layout comes behind it.

* `first_append`, `first_text` — more text behind the rest of a token, and no text behind it at all.
* `reading_induction` — the ways in which reading goes on, with a lemma on `scan` for each.
* `SingleToken.scan`, `singleToken_of_mem_scan` — the texts of tokens.
-/

namespace Reckon

open Text

-- ---------------------------------------------------------------------------
-- Layout
-- ---------------------------------------------------------------------------

theorem eq_of_isLayout {c : Char} (h : isLayout c = true) :
    c = ' ' ∨ c = '\t' ∨ c = '\r' ∨ c = '\n' := by
  simpa [isLayout, or_assoc] using h

/-- Words end where layout begins. -/
theorem isWordChar_of_isLayout {c : Char} (h : isLayout c = true) : isWordChar c = false := by
  rcases eq_of_isLayout h with rfl | rfl | rfl | rfl <;> decide

/-- And so do numbers. -/
theorem isDigit_of_isLayout {c : Char} (h : isLayout c = true) : c.isDigit = false := by
  rcases eq_of_isLayout h with rfl | rfl | rfl | rfl <;> decide

/-- Nothing, or a text that begins with layout. -/
def Apart (text : List Char) : Prop := ∀ c ∈ text.head?, isLayout c = true

/-- Behind a character other than layout, such a text can only be told by its first character. -/
theorem Apart.head?_ne {text : List Char} (h : Apart text) {c : Char} (hc : isLayout c = false) :
    text.head? ≠ some c := by
  intro hhead
  rw [h c hhead] at hc
  exact absurd hc (by decide)

section

variable {p : Char → Bool} {tail : List Char}

/-- What is taken from a text does not reach beyond it, if it cannot go on there. -/
theorem takeWhile_append_of_head (h : ∀ c ∈ tail.head?, p c = false) (text : List Char) :
    (text ++ tail).takeWhile p = text.takeWhile p := by
  induction text with
  | nil =>
    cases tail with
    | nil => rfl
    | cons c tail => exact List.takeWhile_cons_of_neg (by simp [h c rfl])
  | cons c text ih => simp only [List.cons_append, List.takeWhile_cons, ih]

/-- And the rest of it stays before what follows. -/
theorem dropWhile_append_of_head (h : ∀ c ∈ tail.head?, p c = false) (text : List Char) :
    (text ++ tail).dropWhile p = text.dropWhile p ++ tail := by
  induction text with
  | nil =>
    cases tail with
    | nil => rfl
    | cons c tail => exact List.dropWhile_cons_of_neg (by simp [h c rfl])
  | cons c text ih =>
    simp only [List.cons_append, List.dropWhile_cons, ih]
    split <;> rfl

end

namespace Lexeme

variable {c : Char} {after tail : List Char} {kind : Kind}

/-- The lexeme with more text behind its rest. -/
def before (lexeme : Lexeme) (tail : List Char) : Lexeme :=
  { lexeme with rest := lexeme.rest ++ tail }

/-- The lexeme with another rest. -/
def followedBy (lexeme : Lexeme) (tail : List Char) : Lexeme := { lexeme with rest := tail }

/-- The lexeme of a character that begins neither layout nor a comment. -/
def solid (c : Char) (after : List Char) : Lexeme :=
  if isLetter c then word c after
  else if c.isDigit then number c after
  else symbol c after

-- ---------------------------------------------------------------------------
-- The choice of the lexeme
-- ---------------------------------------------------------------------------

/-- Layout is taken as far as it goes. -/
theorem first_of_layout (h : isLayout c = true) (after : List Char) :
    first c after = run none isLayout c after :=
  if_pos h

/-- A comment is taken to the end of its line. -/
theorem first_of_comment (after : List Char) :
    first '/' ('/' :: after) = run none (· != '\n') '/' ('/' :: after) :=
  rfl

/-- Where neither begins, there is something that makes a token. -/
theorem first_eq_solid (hlayout : isLayout c = false)
    (hcomment : ¬ (c = '/' ∧ after.head? = some '/')) : first c after = solid c after := by
  rw [first, if_neg (by simp [hlayout]), if_neg hcomment]
  rfl

/-- And so it does. -/
theorem solid_kind_ne_none (c : Char) (after : List Char) : (solid c after).kind ≠ none := by
  unfold solid
  split
  · simp [word, run]
  · split
    · simp [number]
    · unfold symbol
      split <;> simp

/-- A lexeme makes a token unless it is layout or a comment. -/
theorem kind_eq_none_iff : (first c after).kind = none ↔
    isLayout c = true ∨ c = '/' ∧ after.head? = some '/' := by
  constructor
  · intro h
    by_contra hneither
    obtain ⟨hlayout, hcomment⟩ := not_or.mp hneither
    rw [first_eq_solid (Bool.eq_false_iff.mpr hlayout) hcomment] at h
    exact solid_kind_ne_none c after h
  · rintro (hlayout | ⟨rfl, hhead⟩)
    · rw [first_of_layout hlayout]
      rfl
    · obtain ⟨later, rfl⟩ := List.head?_eq_some_iff.mp hhead
      rw [first_of_comment]
      rfl

/-- What makes a token is neither layout nor a comment. -/
theorem not_comment_of_kind (h : (first c after).kind = some kind) :
    isLayout c = false ∧ ¬ (c = '/' ∧ after.head? = some '/') := by
  have hsome : ¬ (first c after).kind = none := by simp [h]
  rw [kind_eq_none_iff, not_or] at hsome
  exact ⟨Bool.eq_false_iff.mpr hsome.1, hsome.2⟩

/-- The kinds of words. -/
theorem kind_of_word (h : (word c after).kind = some kind) :
    kind ∈ [Kind.letWord, .printWord, .absWord, .sqrtWord, .identifier] := by
  obtain rfl := Option.some.inj h
  unfold Kind.reserved?
  split_ifs <;> decide

-- ---------------------------------------------------------------------------
-- More text behind the rest
-- ---------------------------------------------------------------------------

/-- A run ends where something else follows it. -/
theorem run_append {p : Char → Bool} (h : ∀ d ∈ tail.head?, p d = false) (kind : Option Kind)
    (c : Char) (after : List Char) :
    run kind p c (after ++ tail) = (run kind p c after).before tail := by
  simp only [run, before, takeWhile_append_of_head h, dropWhile_append_of_head h]

/-- A word stays what it is before a gap. -/
theorem word_append (h : Apart tail) (c : Char) (after : List Char) :
    word c (after ++ tail) = (word c after).before tail := by
  have hstop : ∀ d ∈ tail.head?, isWordChar d = false := fun d hd => isWordChar_of_isLayout (h d hd)
  simp only [word, takeWhile_append_of_head hstop, run_append hstop]

/-- Without a point there is no fraction. -/
theorem fraction_of_head_ne {text : List Char} (h : text.head? ≠ some '.') :
    fraction text = ([], text) := by
  unfold fraction
  split
  · exact absurd rfl h
  · rfl

/-- A fraction stays what it is before a gap: its point is not followed by a digit there. -/
theorem fraction_append_tail (h : Apart tail) (text : List Char) :
    fraction (text ++ tail) = ((fraction text).1, (fraction text).2 ++ tail) := by
  have hstop : ∀ d ∈ tail.head?, d.isDigit = false := fun d hd => isDigit_of_isLayout (h d hd)
  -- only a point that is followed by a digit begins a fraction, and both may be behind the gap
  by_cases hhead : text.head? = some '.'
  · obtain ⟨later, rfl⟩ := List.head?_eq_some_iff.mp hhead
    cases later with
    | nil =>
      cases tail with
      | nil => rfl
      | cons d tail => simp [fraction, hstop d rfl]
    | cons d later =>
      by_cases hd : d.isDigit
      · simp [fraction, hd, takeWhile_append_of_head hstop, dropWhile_append_of_head hstop]
      · simp [fraction, hd]
  · have hhead' : (text ++ tail).head? ≠ some '.' := by
      cases text with
      | nil => exact h.head?_ne (by decide)
      | cons c text => exact hhead
    rw [fraction_of_head_ne hhead, fraction_of_head_ne hhead']

/-- And so does a number. -/
theorem number_append (h : Apart tail) (c : Char) (after : List Char) :
    number c (after ++ tail) = (number c after).before tail := by
  have hstop : ∀ d ∈ tail.head?, d.isDigit = false := fun d hd => isDigit_of_isLayout (h d hd)
  simp only [number, takeWhile_append_of_head hstop, dropWhile_append_of_head hstop,
    fraction_append_tail h, before]

/-- Only the two signs that can be doubled look at what is behind them. -/
theorem symbol_single (h : after.head? = some c → c ≠ '=' ∧ c ≠ '*') :
    symbol c after = ⟨(symbol c []).kind, [c], after⟩ := by
  unfold symbol
  split
  case h_3 => exact absurd rfl (h rfl).1
  case h_7 => exact absurd rfl (h rfl).2
  case h_11 => simp_all
  all_goals rfl

/-- A mark is doubled, or it stands alone whatever follows it. -/
theorem double_or_single (c : Char) (after : List Char) :
    ((c = '=' ∨ c = '*') ∧ ∃ later, after = c :: later) ∨
      (after.head? = some c → c ≠ '=' ∧ c ≠ '*') := by
  by_cases hc : c = '=' ∨ c = '*'
  · by_cases hhead : after.head? = some c
    · exact .inl ⟨hc, List.head?_eq_some_iff.mp hhead⟩
    · exact .inr fun h => absurd h hhead
  · exact .inr fun _ => not_or.mp hc

/-- A mark stays what it is before a gap, since a gap doubles none. -/
theorem symbol_append (h : Apart tail) (c : Char) (after : List Char) :
    symbol c (after ++ tail) = (symbol c after).before tail := by
  rcases double_or_single c after with ⟨rfl | rfl, later, rfl⟩ | hsingle
  · rfl
  · rfl
  -- a sign that stands alone at the end of its text stands alone before the gap as well
  · have hsingle' : (after ++ tail).head? = some c → c ≠ '=' ∧ c ≠ '*' := by
      cases after with
      | nil =>
        intro hhead
        constructor <;> rintro rfl
        · exact h.head?_ne (by decide) hhead
        · exact h.head?_ne (by decide) hhead
      | cons d later => exact hsingle
    rw [symbol_single hsingle, symbol_single hsingle']
    rfl

/-- All that makes a token stays what it is before a gap. -/
theorem solid_append (h : Apart tail) (c : Char) (after : List Char) :
    solid c (after ++ tail) = (solid c after).before tail := by
  unfold solid
  split
  · exact word_append h c after
  · split
    · exact number_append h c after
    · exact symbol_append h c after

/-- A token is not changed by a text behind its rest that begins with layout. -/
theorem first_append (hkind : (first c after).kind = some kind) (h : Apart tail) :
    first c (after ++ tail) = (first c after).before tail := by
  obtain ⟨hlayout, hcomment⟩ := not_comment_of_kind hkind
  have hcomment' : ¬ (c = '/' ∧ (after ++ tail).head? = some '/') := by
    cases after with
    | nil => exact fun hboth => h.head?_ne (by decide) hboth.2
    | cons d later => exact hcomment
  rw [first_eq_solid hlayout hcomment, first_eq_solid hlayout hcomment', solid_append h]

-- ---------------------------------------------------------------------------
-- The text of a token by itself
-- ---------------------------------------------------------------------------

/-- A word that is read again by itself is the same word. -/
theorem word_text (c : Char) (after : List Char) :
    word c (word c after).text.tail = (word c after).followedBy [] := by
  have hdrop : (after.takeWhile isWordChar).dropWhile isWordChar = [] :=
    List.dropWhile_eq_nil_iff.mpr fun _ hd => List.mem_takeWhile_imp hd
  simp [word, run, followedBy, hdrop, List.takeWhile_idem]

/-- A fraction that is read again by itself leaves nothing behind. -/
theorem fraction_text (text : List Char) :
    fraction (fraction text).1 = ((fraction text).1, []) ∧
      ∀ d ∈ (fraction text).1.head?, d.isDigit = false := by
  by_cases hhead : text.head? = some '.'
  · obtain ⟨tail, rfl⟩ := List.head?_eq_some_iff.mp hhead
    cases tail with
    | nil => simp [fraction]
    | cons d later =>
      by_cases hd : d.isDigit
      · have hdrop : (later.takeWhile Char.isDigit).dropWhile Char.isDigit = [] :=
          List.dropWhile_eq_nil_iff.mpr fun _ hd => List.mem_takeWhile_imp hd
        simp [fraction, hd, hdrop, List.takeWhile_idem]
      · simp [fraction, hd]
  · rw [fraction_of_head_ne hhead]
    exact ⟨rfl, by simp⟩

/-- Read again by itself, a number is the same number. -/
theorem number_text (c : Char) (after : List Char) :
    number c (number c after).text.tail = (number c after).followedBy [] := by
  obtain ⟨hfraction, hstop⟩ := fraction_text (after.dropWhile Char.isDigit)
  have hdrop : (after.takeWhile Char.isDigit).dropWhile Char.isDigit = [] :=
    List.dropWhile_eq_nil_iff.mpr fun _ hd => List.mem_takeWhile_imp hd
  simp [number, followedBy, takeWhile_append_of_head hstop, dropWhile_append_of_head hstop,
    hdrop, hfraction, List.takeWhile_idem]

/-- Read again by itself, a mark is the same mark. -/
theorem symbol_text (c : Char) (after : List Char) :
    symbol c (symbol c after).text.tail = (symbol c after).followedBy [] := by
  rcases double_or_single c after with ⟨rfl | rfl, later, rfl⟩ | hsingle
  · rfl
  · rfl
  · have halone : ([] : List Char).head? = some c → c ≠ '=' ∧ c ≠ '*' := by simp
    rw [symbol_single hsingle, List.tail_cons, symbol_single halone]
    rfl

/-- So all that makes a token makes the same one by itself. -/
theorem solid_text (c : Char) (after : List Char) :
    solid c (solid c after).text.tail = (solid c after).followedBy [] := by
  unfold solid
  split
  · exact word_text c after
  · split
    · exact number_text c after
    · exact symbol_text c after

/-- A lexeme begins with the character in front. -/
theorem text_eq_cons (c : Char) (after : List Char) :
    ∃ own, (first c after).text = c :: own ∧ after = own ++ (first c after).rest := by
  have hsplit := first_text_append_rest c after
  cases htext : (first c after).text with
  | nil => exact absurd htext (first_text_ne_nil c after)
  | cons d own =>
    rw [htext, List.cons_append, List.cons.injEq] at hsplit
    obtain ⟨rfl, hafter⟩ := hsplit
    exact ⟨own, rfl, hafter.symm⟩

/-- The text of a token is read as this token by itself. -/
theorem first_text (hkind : (first c after).kind = some kind) :
    first c (first c after).text.tail = (first c after).followedBy [] := by
  obtain ⟨hlayout, hcomment⟩ := not_comment_of_kind hkind
  obtain ⟨own, htext, hafter⟩ := text_eq_cons c after
  -- by itself the text begins no comment either, as the characters behind its first are the same
  have hcomment' : ¬ (c = '/' ∧ (first c after).text.tail.head? = some '/') := by
    rw [htext, List.tail_cons]
    cases own with
    | nil => simp
    | cons d own =>
      rw [hafter] at hcomment
      exact hcomment
  rw [first_eq_solid hlayout hcomment', first_eq_solid hlayout hcomment, solid_text]

end Lexeme

-- ---------------------------------------------------------------------------
-- Reading on
-- ---------------------------------------------------------------------------

section

variable {file : String} {offset : Nat} {c : Char} {after rest : List Char} {kind : Kind}

theorem scan_nil (file : String) (offset : Nat) :
    scan file offset [] = [.endOfInput ⟨offset, file⟩] := by
  rw [scan]

/-- A token is put down, and what is behind it is read. -/
theorem scan_token (hkind : (Lexeme.first c after).kind = some kind) :
    scan file offset (c :: after) =
      ⟨kind, String.ofList (Lexeme.first c after).text,
        .ofLength file offset (size (Lexeme.first c after).text)⟩ ::
        scan file (offset + size (Lexeme.first c after).text) (Lexeme.first c after).rest := by
  rw [scan]
  simp only [hkind]

/-- What makes no token is passed over. -/
theorem scan_of_kind_none (hkind : (Lexeme.first c after).kind = none) :
    scan file offset (c :: after) =
      scan file (offset + size (Lexeme.first c after).text) (Lexeme.first c after).rest := by
  rw [scan]
  simp only [hkind]

/-- Of a run of layout, all is passed at once, which is as good as one character after the other. -/
theorem scan_layout (h : isLayout c = true) :
    scan file offset (c :: after) = scan file (offset + c.utf8Size) after := by
  have hrun : ∀ {offset d text}, isLayout d = true → scan file offset (d :: text) =
      scan file (offset + size (d :: text.takeWhile isLayout)) (text.dropWhile isLayout) := by
    intro offset d text hd
    have hfirst := Lexeme.first_of_layout hd text
    rw [scan_of_kind_none (by rw [hfirst]; rfl), hfirst]
    rfl
  -- either more layout follows, which is passed from there, or the run was this one character
  rw [hrun h]
  cases after with
  | nil => rfl
  | cons d after =>
    by_cases hd : isLayout d = true
    · rw [hrun hd, List.takeWhile_cons_of_pos hd, List.dropWhile_cons_of_pos hd]
      simp only [size_cons, Nat.add_assoc]
    · rw [List.takeWhile_cons_of_neg hd, List.dropWhile_cons_of_neg hd]
      rfl

/-- A comment is passed up to the newline that ends it, or to the end. -/
theorem scan_comment {body : List Char} (hbody : '\n' ∉ body)
    (hend : ∀ c ∈ rest.head?, c = '\n') :
    scan file offset ('/' :: '/' :: body ++ rest) =
      scan file (offset + size ('/' :: '/' :: body)) rest := by
  have hstop : ∀ c ∈ rest.head?, (c != '\n') = false := by
    intro c hc
    simp [hend c hc]
  have hall : ∀ c ∈ '/' :: body, (c != '\n') = true := by
    intro c hc
    rw [bne_iff_ne]
    rintro rfl
    rcases List.mem_cons.mp hc with hslash | hmem
    · exact absurd hslash (by decide)
    · exact hbody hmem
  -- the comment is a run of all that is no newline, and ends before the rest
  have hfirst : Lexeme.first '/' ('/' :: body ++ rest) = ⟨none, '/' :: '/' :: body, rest⟩ := by
    rw [List.cons_append, Lexeme.first_of_comment, ← List.cons_append, Lexeme.run_append hstop,
      Lexeme.run, List.takeWhile_eq_self_iff.mpr hall, List.dropWhile_eq_nil_iff.mpr hall]
    rfl
  show scan file offset ('/' :: ('/' :: body ++ rest)) = _
  rw [scan_of_kind_none (by rw [hfirst]), hfirst]

/-- The ways in which reading goes on, as a principle of induction: over layout, over a comment, or
behind a token. -/
@[elab_as_elim]
theorem reading_induction {motive : List Char → Prop} (nil : motive [])
    (layout : ∀ c after, isLayout c = true → motive after → motive (c :: after))
    (comment : ∀ body rest, '\n' ∉ body → (∀ c ∈ rest.head?, c = '\n') → motive rest →
      motive ('/' :: '/' :: body ++ rest))
    (token : ∀ c after kind, (Lexeme.first c after).kind = some kind →
      motive (Lexeme.first c after).rest → motive (c :: after))
    (text : List Char) : motive text := by
  -- by induction on the length, since a lexeme takes away more than one character
  induction hlength : text.length using Nat.strong_induction_on generalizing text with
  | _ n ih =>
    have hshorter : ∀ later : List Char, later.length < text.length → motive later :=
      fun later hlater => ih later.length (hlength ▸ hlater) later rfl
    cases text with
    | nil => exact nil
    | cons c after =>
      cases hkind : (Lexeme.first c after).kind with
      | some kind =>
        exact token c after kind hkind (hshorter _ (Lexeme.first_rest_length_lt c after))
      | none =>
        rcases Lexeme.kind_eq_none_iff.mp hkind with hlayout | ⟨rfl, hhead⟩
        · exact layout c after hlayout (hshorter after (Nat.lt_succ_self _))
        -- of the text behind the two slashes, the comment is what comes before a newline
        · obtain ⟨later, rfl⟩ := List.head?_eq_some_iff.mp hhead
          have hsplit := List.takeWhile_append_dropWhile (p := (· != '\n')) (l := later)
          have hrest : motive (later.dropWhile (· != '\n')) := by
            apply hshorter
            have hle := List.length_dropWhile_le (· != '\n') later
            simp only [List.length_cons]
            omega
          rw [← hsplit]
          refine comment _ _ ?_ ?_ hrest
          · intro hmem
            simpa using List.mem_takeWhile_imp hmem
          · intro c hc
            have hnot := List.head?_dropWhile_not (· != '\n') later
            rw [hc] at hnot
            simpa using hnot

end

-- ---------------------------------------------------------------------------
-- The texts of tokens
-- ---------------------------------------------------------------------------

/-- Read by itself, the text is one token of the kind. -/
def SingleToken (kind : Kind) (text : List Char) : Prop :=
  ∃ c own, text = c :: own ∧ Lexeme.first c own = ⟨some kind, text, []⟩

section

variable {file : String} {offset : Nat} {text rest : List Char} {kind : Kind}

/-- The text of a token makes that one token. -/
theorem singleToken_first {c : Char} {after : List Char}
    (hkind : (Lexeme.first c after).kind = some kind) :
    SingleToken kind (Lexeme.first c after).text := by
  obtain ⟨own, htext, -⟩ := Lexeme.text_eq_cons c after
  have hown := Lexeme.first_text hkind
  rw [htext, List.tail_cons] at hown
  refine ⟨c, own, htext, ?_⟩
  rw [hown, Lexeme.followedBy, hkind]

/-- Where nothing or layout comes behind it, the text is read as the same token. -/
theorem SingleToken.scan (h : SingleToken kind text) (hrest : Apart rest) :
    scan file offset (text ++ rest) =
      ⟨kind, String.ofList text, .ofLength file offset (size text)⟩ ::
        Reckon.scan file (offset + size text) rest := by
  obtain ⟨c, own, rfl, hfirst⟩ := h
  have hkind : (Lexeme.first c own).kind = some kind := by rw [hfirst]
  have happend := Lexeme.first_append hkind hrest
  rw [hfirst] at happend
  rw [List.cons_append, scan_token (by rw [happend]; rfl), happend]
  rfl

/-- Every token but the end token is the lexeme that is read where the token begins. -/
theorem exists_first_of_mem_scan {token : Token} (h : token ∈ scan file offset text)
    (hkind : token.kind ≠ .endOfInput) :
    ∃ front c after, text = front ++ c :: after ∧
      token.span.start.offset = offset + size front ∧
      (Lexeme.first c after).kind = some token.kind ∧
      token.text = String.ofList (Lexeme.first c after).text := by
  -- along the reading; what is passed over stands in front of the token
  induction text using reading_induction generalizing offset with
  | nil =>
    rw [scan_nil, List.mem_singleton] at h
    exact absurd (congrArg Token.kind h) hkind
  | layout c after hc ih =>
    rw [scan_layout hc] at h
    obtain ⟨front, d, later, rfl, hstart, hread⟩ := ih h
    rw [Nat.add_assoc, ← size_cons] at hstart
    exact ⟨c :: front, d, later, rfl, hstart, hread⟩
  | comment body rest hbody hend ih =>
    rw [scan_comment hbody hend] at h
    obtain ⟨front, d, later, rfl, hstart, hread⟩ := ih h
    rw [Nat.add_assoc, ← size_append] at hstart
    exact ⟨'/' :: '/' :: body ++ front, d, later, (List.append_assoc ..).symm, hstart, hread⟩
  | token c after kind hfirst ih =>
    rw [scan_token hfirst] at h
    rcases List.mem_cons.mp h with rfl | hlater
    · exact ⟨[], c, after, rfl, rfl, hfirst, rfl⟩
    · obtain ⟨front, d, later, hrest, hstart, hread⟩ := ih hlater
      rw [Nat.add_assoc, ← size_append] at hstart
      refine ⟨(Lexeme.first c after).text ++ front, d, later, ?_, hstart, hread⟩
      rw [List.append_assoc, ← hrest, Lexeme.first_text_append_rest]

/-- Every token but the end token is a text that is read as this token. -/
theorem singleToken_of_mem_scan {token : Token} (h : token ∈ scan file offset text)
    (hkind : token.kind ≠ .endOfInput) :
    ∃ own, SingleToken token.kind own ∧ token.text = String.ofList own := by
  obtain ⟨front, c, after, -, -, hfirst, htext⟩ := exists_first_of_mem_scan h hkind
  exact ⟨_, singleToken_first hfirst, htext⟩

end

end Reckon
