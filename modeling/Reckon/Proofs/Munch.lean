import Reckon.Proofs.Lossless

/-!
# Reckon — tokens are as long as they can be

The lexemes are tried in a fixed order, and no two of them are ever compared. Still each token is
the longest text of its class that stands where it begins: a word takes all letters and digits, and
is a reserved word only as a whole; a number takes a point only with a digit behind it; of two
operators that fit, the longer one is read. What begins no other token is a token of one character.

* `Longest` — the longest text of a class that a text begins with.
* `word_longest`, `number_longest`, `symbol_longest` — the three classes.
* `tokenize_munched` — every token of a source.
-/

namespace Reckon

open Text

-- ---------------------------------------------------------------------------
-- Classes of texts
-- ---------------------------------------------------------------------------

/-- Of the texts that fit and that the whole begins with, this one is the longest. -/
structure Longest (p : List Char → Prop) (whole text : List Char) : Prop where
  begins : text <+: whole
  fits   : p text
  most   : ∀ other, other <+: whole → p other → other.length ≤ text.length

/-- Letters and ASCII digits. -/
def IsWord (text : List Char) : Prop := ∀ c ∈ text, isLetter c = true ∨ c.isDigit = true

/-- ASCII digits, at least one. -/
def IsDigits (text : List Char) : Prop := text ≠ [] ∧ ∀ c ∈ text, c.isDigit = true

/-- Digits, or digits, a point and digits. -/
def IsNumeral (text : List Char) : Prop :=
  IsDigits text ∨ ∃ whole places, text = whole ++ '.' :: places ∧ IsDigits whole ∧ IsDigits places

/-- The operators, the parentheses and the sign of an assignment. -/
def marks : List (List Char) :=
  [['('], [')'], ['='], ['=', '='], ['+'], ['-'], ['*'], ['*', '*'], ['/'], ['%']]

/-- The kind of a word: that of a reserved word if the whole of it is one. -/
structure Kind.OfWord (kind : Kind) (word : String) : Prop where
  letWord    : kind = .letWord ↔ word = "let"
  printWord  : kind = .printWord ↔ word = "print"
  absWord    : kind = .absWord ↔ word = "abs"
  sqrtWord   : kind = .sqrtWord ↔ word = "sqrt"
  identifier : kind = .identifier ↔ word ∉ ["let", "print", "abs", "sqrt"]

/-- What is taken as long as all characters will do is the longest such text. -/
theorem longest_takeWhile (p : Char → Bool) (whole : List Char) :
    Longest (fun text => ∀ c ∈ text, p c = true) whole (whole.takeWhile p) where
  begins := List.takeWhile_prefix p
  fits _ hmem := List.mem_takeWhile_imp hmem
  most := by
    rintro other ⟨later, rfl⟩ hall
    rw [List.takeWhile_append_of_pos hall, List.length_append]
    exact Nat.le_add_right _ _

-- ---------------------------------------------------------------------------
-- Words
-- ---------------------------------------------------------------------------

/-- A word is reserved as a whole, or it is an identifier. -/
theorem ofWord_reserved? (word : String) :
    ((Kind.reserved? word).getD .identifier).OfWord word := by
  unfold Kind.reserved?
  split_ifs with hlet hprint habs hsqrt
  · subst hlet
    constructor <;> decide
  · subst hprint
    constructor <;> decide
  · subst habs
    constructor <;> decide
  · subst hsqrt
    constructor <;> decide
  · constructor <;> simp [hlet, hprint, habs, hsqrt]

namespace Lexeme

variable {c : Char}

/-- A word ends where its last letter or digit does. -/
theorem word_longest (hc : isLetter c = true) (after : List Char) :
    Longest IsWord (c :: after) (word c after).text := by
  have hword : ∀ text, IsWord text ↔ ∀ d ∈ text, isWordChar d = true := by
    intro text
    simp only [IsWord, isWordChar, Bool.or_eq_true]
  have htext : (c :: after).takeWhile isWordChar = (word c after).text :=
    List.takeWhile_cons_of_pos (by rw [isWordChar, hc, Bool.true_or])
  have hlongest := longest_takeWhile isWordChar (c :: after)
  rw [htext] at hlongest
  exact ⟨hlongest.begins, (hword _).mpr hlongest.fits, fun other hother hfits =>
    hlongest.most other hother ((hword other).mp hfits)⟩

/-- And its kind is that of the whole word. -/
theorem word_ofWord (c : Char) (after : List Char) :
    ∃ kind, (word c after).kind = some kind ∧ kind.OfWord (String.ofList (word c after).text) :=
  ⟨_, rfl, ofWord_reserved? _⟩

-- ---------------------------------------------------------------------------
-- Numbers
-- ---------------------------------------------------------------------------

/-- A point with a digit behind it is the beginning of a fraction. -/
theorem fraction_of_digits {places : List Char} (h : IsDigits places) (later : List Char) :
    (fraction ('.' :: places ++ later)).1 = '.' :: (places ++ later).takeWhile Char.isDigit := by
  obtain ⟨hne, hall⟩ := h
  obtain ⟨d, places, rfl⟩ := List.exists_cons_of_ne_nil hne
  have hd := hall d List.mem_cons_self
  simp [fraction, hd]

/-- There is no fraction without a digit behind the point. -/
theorem fraction_isDigits (text : List Char) :
    (fraction text).1 = [] ∨ ∃ places, (fraction text).1 = '.' :: places ∧ IsDigits places := by
  unfold fraction
  split
  · next d later =>
    split
    · next hd =>
      exact .inr ⟨_, rfl, List.cons_ne_nil _ _,
        List.forall_mem_cons.mpr ⟨hd, fun _ hmem => List.mem_takeWhile_imp hmem⟩⟩
    · exact .inl rfl
  · exact .inl rfl

/-- A number is a whole part and its fraction. -/
theorem number_text_eq (hc : c.isDigit = true) (after : List Char) :
    (number c after).text = (c :: after).takeWhile Char.isDigit ++
      (fraction ((c :: after).dropWhile Char.isDigit)).1 := by
  rw [List.takeWhile_cons_of_pos hc, List.dropWhile_cons_of_pos hc]
  rfl

/-- A longer numeral than that does not begin there. -/
theorem number_longest (hc : c.isDigit = true) (after : List Char) :
    Longest IsNumeral (c :: after) (number c after).text := by
  have hrun := longest_takeWhile Char.isDigit (c :: after)
  have hdigits : IsDigits ((c :: after).takeWhile Char.isDigit) :=
    ⟨by simp [hc], hrun.fits⟩
  refine ⟨⟨_, number_text_append_rest c after⟩, ?_, ?_⟩
  · rw [number_text_eq hc]
    rcases fraction_isDigits ((c :: after).dropWhile Char.isDigit) with hnone | hsome
    -- without a fraction the whole part is the number
    · rw [hnone, List.append_nil]
      exact .inl hdigits
    · obtain ⟨places, hfraction, hplaces⟩ := hsome
      rw [hfraction]
      exact .inr ⟨_, places, rfl, hdigits, hplaces⟩
  · rw [number_text_eq hc, List.length_append]
    rintro other hother (hfits | ⟨whole, places, rfl, hwhole, hplaces⟩)
    · have hle := hrun.most other hother hfits.2
      omega
    · -- the digits in front are those of the number, so both fractions begin at the same point
      obtain ⟨later, hlater⟩ := hother
      have hstop : ∀ d ∈ ('.' :: places ++ later).head?, d.isDigit = false := by
        rintro _ ⟨⟩
        rfl
      have htake : (c :: after).takeWhile Char.isDigit = whole := by
        rw [← hlater, List.append_assoc, takeWhile_append_of_head hstop,
          List.takeWhile_eq_self_iff.mpr hwhole.2]
      have hdrop : (c :: after).dropWhile Char.isDigit = '.' :: places ++ later := by
        rw [← hlater, List.append_assoc, dropWhile_append_of_head hstop,
          List.dropWhile_eq_nil_iff.mpr hwhole.2, List.nil_append]
      rw [htake, hdrop, fraction_of_digits hplaces, List.takeWhile_append_of_pos hplaces.2]
      simp only [List.length_append, List.length_cons]
      omega

-- ---------------------------------------------------------------------------
-- Symbols
-- ---------------------------------------------------------------------------

/-- A mark has one character, or it is one of the two signs that are doubled. -/
theorem length_of_mem_marks {text : List Char} (h : text ∈ marks) :
    text.length = 1 ∨ text = ['=', '='] ∨ text = ['*', '*'] := by
  revert text
  decide

/-- Of two marks that begin alike the longer one is taken. -/
theorem symbol_longest (hc : [c] ∈ marks) (after : List Char) :
    Longest (· ∈ marks) (c :: after) (symbol c after).text := by
  have hle : ∀ other ∈ marks, other.length ≤ 2 := by decide
  rcases double_or_single c after with ⟨rfl | rfl, later, rfl⟩ | hsingle
  · have hfits : ['=', '='] ∈ marks := by decide
    exact ⟨⟨later, rfl⟩, hfits, fun other _ hmem => hle other hmem⟩
  · have hfits : ['*', '*'] ∈ marks := by decide
    exact ⟨⟨later, rfl⟩, hfits, fun other _ hmem => hle other hmem⟩
  · rw [symbol_single hsingle]
    refine ⟨⟨after, rfl⟩, hc, ?_⟩
    rintro other ⟨later, hother⟩ hmem
    -- a longer mark would double the sign, which nothing does here
    rcases length_of_mem_marks hmem with hone | rfl | rfl
    · exact Nat.le_of_eq hone
    · obtain ⟨rfl, rfl⟩ := List.cons.inj hother
      exact absurd rfl (hsingle rfl).1
    · obtain ⟨rfl, rfl⟩ := List.cons.inj hother
      exact absurd rfl (hsingle rfl).2

/-- What is read as a mark is of the kind that is spelled so. -/
theorem symbol_spelling (hc : [c] ∈ marks) (after : List Char) :
    ∃ kind, (symbol c after).kind = some kind ∧
      kind.spelling? = some (String.ofList (symbol c after).text) := by
  unfold symbol
  split
  case h_11 => simp_all [marks]
  all_goals exact ⟨_, rfl, rfl⟩

/-- A character that begins no mark stands for itself. -/
theorem symbol_of_notMem (hc : [c] ∉ marks) (after : List Char) :
    symbol c after = ⟨some .unrecognised, [c], after⟩ := by
  unfold symbol
  split
  case h_11 => rfl
  all_goals exact absurd (by decide) hc

end Lexeme

-- ---------------------------------------------------------------------------
-- One class for each character
-- ---------------------------------------------------------------------------

/-- A number below all ranges is in none. -/
theorem inRanges_of_lt {n : Nat} {ranges : List (Nat × Nat)} (h : ∀ r ∈ ranges.head?, n < r.1) :
    inRanges n ranges = false := by
  cases ranges with
  | nil => rfl
  | cons head later =>
    have hlt := h head rfl
    simp only [inRanges, Bool.and_eq_false_iff, decide_eq_false_iff_not]
    omega

/-- No digit is a letter, so words and numbers cannot begin alike. -/
theorem isLetter_of_isDigit {c : Char} (h : c.isDigit = true) : isLetter c = false := by
  apply inRanges_of_lt
  rintro _ ⟨⟩
  simp only [Char.isDigit, Bool.and_eq_true, decide_eq_true_eq] at h
  have hle : c.toNat ≤ 57 := h.2
  omega

/-- A digit has no other case. -/
theorem toLower_of_isDigit {c : Char} (h : c.isDigit = true) : c.toLower = c := by
  simp only [Char.isDigit, Bool.and_eq_true, decide_eq_true_eq] at h
  have hsmall : ¬ c.val ≥ 'A'.val := fun hge => absurd (UInt32.le_trans hge h.2) (by decide)
  exact dif_neg fun hupper => hsmall hupper.1

/-- No mark is a letter or a digit. -/
theorem isLetter_of_mark {c : Char} (h : [c] ∈ marks) : isLetter c = false ∧ c.isDigit = false := by
  have hall : (marks.all fun text => text.all fun c => !isLetter c && !c.isDigit) = true := by
    decide
  have hmark := List.all_eq_true.mp (List.all_eq_true.mp hall [c] h) c (List.mem_singleton_self c)
  simpa using hmark

-- ---------------------------------------------------------------------------
-- The tokens of a source
-- ---------------------------------------------------------------------------

/-- The token is read where `c :: after` stands as its first character demands. A letter begins the
longest word, a digit the longest number, a mark the longest mark, but not a comment; and any other
character is a token by itself, unless it is layout. -/
structure Token.Munched (token : Token) (c : Char) (after : List Char) : Prop where
  word         : isLetter c = true →
                   Longest IsWord (c :: after) token.text.toList ∧ token.kind.OfWord token.text
  number       : c.isDigit = true →
                   Longest IsNumeral (c :: after) token.text.toList ∧ token.kind = .number
  mark         : [c] ∈ marks →
                   Longest (· ∈ marks) (c :: after) token.text.toList ∧
                     token.kind.spelling? = some token.text
  comment      : ¬ (c = '/' ∧ after.head? = some '/')
  other        : isLetter c = false → c.isDigit = false → [c] ∉ marks →
                   token.kind = .unrecognised ∧ token.text.toList = [c]
  unrecognised : token.kind = .unrecognised →
                   token.text.toList = [c] ∧ c ∉ [' ', '\t', '\r', '\n'] ∧ isLetter c = false ∧
                     c.isDigit = false ∧ [c] ∉ marks

namespace Token.Munched

variable {token : Token} {c : Char} {after : List Char}

/-- A token that begins with a letter is a word. -/
theorem of_word (hcomment : ¬ (c = '/' ∧ after.head? = some '/')) (hc : isLetter c = true)
    (hkind : (Lexeme.word c after).kind = some token.kind)
    (htext : token.text = String.ofList (Lexeme.word c after).text) : token.Munched c after where
  word _ := by
    obtain ⟨kind, hword, hof⟩ := Lexeme.word_ofWord c after
    obtain rfl : kind = token.kind := Option.some.inj (hword.symm.trans hkind)
    rw [htext, String.toList_ofList]
    exact ⟨Lexeme.word_longest hc after, hof⟩
  number hdigit := absurd hc (by simp [isLetter_of_isDigit hdigit])
  mark hmark := absurd hc (by simp [isLetter_of_mark hmark])
  comment := hcomment
  other hletter := absurd hc (by simp [hletter])
  unrecognised hnone := by
    rw [hnone] at hkind
    exact absurd (Lexeme.kind_of_word hkind) (by decide)

/-- One that begins with a digit is a number. -/
theorem of_number (hcomment : ¬ (c = '/' ∧ after.head? = some '/')) (hc : c.isDigit = true)
    (hkind : (Lexeme.number c after).kind = some token.kind)
    (htext : token.text = String.ofList (Lexeme.number c after).text) :
    token.Munched c after where
  word hletter := absurd hletter (by simp [isLetter_of_isDigit hc])
  number _ := by
    rw [htext, String.toList_ofList]
    exact ⟨Lexeme.number_longest hc after, (Option.some.inj hkind).symm⟩
  mark hmark := absurd hc (by simp [isLetter_of_mark hmark])
  comment := hcomment
  other _ hdigit := absurd hc (by simp [hdigit])
  unrecognised hnone := by
    rw [hnone] at hkind
    exact absurd (Option.some.inj hkind) (by decide)

/-- One that begins a mark is the longest of the marks there. -/
theorem of_mark (hcomment : ¬ (c = '/' ∧ after.head? = some '/')) (hc : [c] ∈ marks)
    (hkind : (Lexeme.symbol c after).kind = some token.kind)
    (htext : token.text = String.ofList (Lexeme.symbol c after).text) :
    token.Munched c after := by
  obtain ⟨kind, hsymbol, hspelling⟩ := Lexeme.symbol_spelling hc after
  obtain rfl : kind = token.kind := Option.some.inj (hsymbol.symm.trans hkind)
  have hmark := isLetter_of_mark hc
  refine ⟨?_, ?_, ?_, hcomment, ?_, ?_⟩
  · exact fun hletter => absurd hletter (by simp [hmark])
  · exact fun hdigit => absurd hdigit (by simp [hmark])
  · intro _
    rw [htext, String.toList_ofList]
    exact ⟨Lexeme.symbol_longest hc after, hspelling⟩
  · exact fun _ _ hnone => absurd hc hnone
  · intro hnone
    rw [hnone] at hspelling
    exact absurd hspelling (by simp [Kind.spelling?])

/-- And every other one is a single character that is not recognised. -/
theorem of_other (hlayout : isLayout c = false) (hcomment : ¬ (c = '/' ∧ after.head? = some '/'))
    (hletter : isLetter c = false) (hdigit : c.isDigit = false) (hmark : [c] ∉ marks)
    (hkind : (Lexeme.symbol c after).kind = some token.kind)
    (htext : token.text = String.ofList (Lexeme.symbol c after).text) :
    token.Munched c after := by
  rw [Lexeme.symbol_of_notMem hmark] at hkind htext
  have hown : token.text.toList = [c] := by rw [htext, String.toList_ofList]
  refine ⟨?_, ?_, ?_, hcomment, ?_, ?_⟩
  · exact fun h => absurd h (by simp [hletter])
  · exact fun h => absurd h (by simp [hdigit])
  · exact fun h => absurd h hmark
  · exact fun _ _ _ => ⟨(Option.some.inj hkind).symm, hown⟩
  · have hblank : c ∉ [' ', '\t', '\r', '\n'] := by
      simpa [isLayout, and_assoc] using hlayout
    exact fun _ => ⟨hown, hblank, hletter, hdigit, hmark⟩

/-- A lexeme that makes a token makes it so. -/
theorem of_first (hkind : (Lexeme.first c after).kind = some token.kind)
    (htext : token.text = String.ofList (Lexeme.first c after).text) : token.Munched c after := by
  obtain ⟨hlayout, hcomment⟩ := Lexeme.not_comment_of_kind hkind
  rw [Lexeme.first_eq_solid hlayout hcomment] at hkind htext
  unfold Lexeme.solid at hkind htext
  split_ifs at hkind htext with hletter hdigit
  · exact of_word hcomment hletter hkind htext
  · exact of_number hcomment hdigit hkind htext
  · by_cases hmark : [c] ∈ marks
    · exact of_mark hcomment hmark hkind htext
    · exact of_other hlayout hcomment (Bool.eq_false_iff.mpr hletter)
        (Bool.eq_false_iff.mpr hdigit) hmark hkind htext

end Token.Munched

/--
**Maximal munch.** Every token of a source but the end token is as long as it can be, in the class
that the character at its place begins.
-/
theorem tokenize_munched {source file : String} {token : Token} (h : token ∈ tokenize source file)
    (hkind : token.kind ≠ .endOfInput) :
    ∃ front c after, source.toList = front ++ c :: after ∧
      size front = token.span.start.offset ∧ token.Munched c after := by
  obtain ⟨front, c, after, hsource, hstart, hfirst, htext⟩ := exists_first_of_mem_scan h hkind
  rw [Nat.zero_add] at hstart
  exact ⟨front, c, after, hsource, hstart.symm, .of_first hfirst htext⟩

/-- In `2***3`, the power sign at the second place. -/
theorem tokenize_munched_of_stars :
    ⟨.starStar, "**", .ofLength "a" 1 2⟩ ∈ tokenize "2***3" "a" ∧
    Kind.starStar ≠ .endOfInput ∧
    ∃ front c after, "2***3".toList = front ++ c :: after ∧ size front = 1 ∧
      Token.Munched ⟨.starStar, "**", .ofLength "a" 1 2⟩ c after := by
  have h : ⟨.starStar, "**", .ofLength "a" 1 2⟩ ∈ tokenize "2***3" "a" := by decide +kernel
  exact ⟨h, by decide, tokenize_munched h (by decide)⟩

end Reckon
