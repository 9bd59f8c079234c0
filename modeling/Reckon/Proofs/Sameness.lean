import Reckon.Proofs.Layout
import Reckon.Proofs.Munch

/-!
# Reckon — to be the same and to be equal

Programs are compared by their numbers as numbers, and that is no equality: a NaN is not even the
same as itself, and zeros of either sign are the same. On the programs of sources it is one. What
stands at the ends of a program's branches are the names and the numbers of its source, in their
order. No number of a source has a sign, because a sign is a token of its own, and none is read from
a word: `nan` and `inf` are names there. So a number is neither a NaN nor negative, although it can
be infinite.

* `Expr.same_iff_eq`, `Program.same_iff_eq` — trees whose numbers have neither a sign nor are NaN.
* `Program.Printing.leaves_eq` — the leaves of a program in terms of the words it is printed with.
* `parse_same_iff_eq` — how two sources come out.
-/

namespace Reckon

open Text

-- ---------------------------------------------------------------------------
-- The leaves of a program
-- ---------------------------------------------------------------------------

/-- What stands at the end of a branch of an expression, or is the target of a statement. -/
inductive Leaf
  | name (text : String)
  | number (value : Double)
deriving DecidableEq, Repr

/-- The leaf is a name, or a number with a clear sign bit that is no NaN. -/
def Leaf.Plain : Leaf → Prop
  | .name _ => True
  | .number value => value.isNaN = false ∧ value.isNegative = false

/-- The leaves of an expression, from left to right. -/
def Expr.leaves : Expr → List Leaf
  | .binary _ left right => left.leaves ++ right.leaves
  | .unary _ operand => operand.leaves
  | .identifier name => [.name name]
  | .number value => [.number value]

/-- The leaves of a statement, its target first. -/
def Statement.leaves : Statement → List Leaf
  | .declare name value => .name name :: value.leaves
  | .assign name value => .name name :: value.leaves
  | .print value => value.leaves

/-- The leaves of a program, in order. -/
def Program.leaves (program : Program) : List Leaf := program.statements.flatMap Statement.leaves

-- ---------------------------------------------------------------------------
-- Trees with plain leaves
-- ---------------------------------------------------------------------------

/-- Expressions with plain leaves are the same only if they are equal. -/
theorem Expr.same_iff_eq {a b : Expr} (ha : ∀ leaf ∈ a.leaves, leaf.Plain)
    (hb : ∀ leaf ∈ b.leaves, leaf.Plain) : a.same b = true ↔ a = b := by
  -- on the first tree; trees of different form are neither the same nor equal
  induction a generalizing b with
  | binary op left right ihleft ihright =>
    cases b with
    | binary op' left' right' =>
      rw [leaves, List.forall_mem_append] at ha hb
      simp [same, ihleft ha.1 hb.1, ihright ha.2 hb.2, and_assoc]
    | _ => simp [same]
  | unary op operand ih =>
    cases b with
    | unary op' operand' =>
      rw [leaves] at ha hb
      simp [same, ih ha hb]
    | _ => simp [same]
  | identifier name => cases b <;> simp [same]
  | number value =>
    cases b with
    | number value' =>
      rw [leaves, List.forall_mem_singleton] at ha hb
      simp [same, Double.same_iff_eq ha.2 hb.2 ha.1 hb.1]
    | _ => simp [same]

theorem Statement.same_iff_eq {s t : Statement} (hs : ∀ leaf ∈ s.leaves, leaf.Plain)
    (ht : ∀ leaf ∈ t.leaves, leaf.Plain) : s.same t = true ↔ s = t := by
  cases s with
  | declare name value =>
    cases t with
    | declare name' value' =>
      rw [leaves, List.forall_mem_cons] at hs ht
      simp [same, Expr.same_iff_eq hs.2 ht.2]
    | _ => simp [same]
  | assign name value =>
    cases t with
    | assign name' value' =>
      rw [leaves, List.forall_mem_cons] at hs ht
      simp [same, Expr.same_iff_eq hs.2 ht.2]
    | _ => simp [same]
  | print value =>
    cases t with
    | print value' => simp [same, Expr.same_iff_eq hs ht]
    | _ => simp [same]

/-- Programs with plain leaves are the same only if they are equal. -/
theorem Program.same_iff_eq {a b : Program} (ha : ∀ leaf ∈ a.leaves, leaf.Plain)
    (hb : ∀ leaf ∈ b.leaves, leaf.Plain) : a.same b = true ↔ a = b := by
  obtain ⟨statements⟩ := a
  obtain ⟨statements'⟩ := b
  rw [Program.mk.injEq]
  -- the lengths are compared first, so that the pairs of statements are all there
  induction statements generalizing statements' with
  | nil => cases statements' <;> simp [same, length]
  | cons s later ih =>
    cases statements' with
    | nil => simp [same, length]
    | cons t later' =>
      simp only [leaves, List.flatMap_cons, List.forall_mem_append] at ha hb
      have hfirst := Statement.same_iff_eq ha.1 hb.1
      have hlater := ih ha.2 later' hb.2
      simp only [same, length, Bool.and_eq_true, beq_iff_eq] at hlater
      simp only [same, length, List.length_cons, List.zip_cons_cons, List.all_cons,
        Bool.and_eq_true, beq_iff_eq, Nat.add_right_cancel_iff, hfirst, List.cons.injEq, ← hlater]
      exact and_left_comm

-- ---------------------------------------------------------------------------
-- The leaves of a source
-- ---------------------------------------------------------------------------

/-- The leaf that a word is read as. Words of most kinds are none. -/
def Word.leaf? (word : Word) : Option Leaf :=
  match word.kind with
  | .identifier => some (.name word.text)
  | .number => (Numeral.read? word.text).map .number
  | _ => none

theorem BinaryOp.leaf?_word (op : BinaryOp) : op.word.leaf? = none := by
  cases op <;> rfl

theorem UnaryOp.leaf?_word (op : UnaryOp) : op.word.leaf? = none := by
  cases op <;> rfl

/-- Whichever way an expression is printed, its leaves are those of the words, in order. -/
theorem Expr.Printing.leaves_eq {e : Expr} {enclosed : Bool} {words : List Word}
    (h : e.Printing enclosed words) : e.leaves = words.filterMap Word.leaf? := by
  induction h with
  | identifier name => rfl
  | number hread => simp [leaves, Word.leaf?, hread]
  | @unary op _ _ _ hoperand hplace ih =>
    rw [leaves, ih, List.filterMap_cons_none op.leaf?_word]
  | @binary op _ _ _ _ _ _ hleft hleftPlace hright hrightPlace ihleft ihright =>
    rw [leaves, ihleft, ihright, List.filterMap_append, List.filterMap_cons_none op.leaf?_word]
  | enclose h ih => simp [ih, List.filterMap_append, List.filterMap_cons, Word.leaf?]

theorem Statement.Printing.leaves_eq {statement : Statement} {words : List Word}
    (h : statement.Printing words) : statement.leaves = words.filterMap Word.leaf? := by
  cases h with
  | declare hvalue => exact congrArg (List.cons _) hvalue.leaves_eq
  | assign hvalue => exact congrArg (List.cons _) hvalue.leaves_eq
  | print hvalue => exact hvalue.leaves_eq

/-- The leaves of a program are those of the words that it is printed with. -/
theorem Program.Printing.leaves_eq {program : Program} {words : List Word}
    (h : program.Printing words) : program.leaves = words.filterMap Word.leaf? := by
  obtain ⟨-, parts, hparts, rfl⟩ := h
  unfold leaves
  generalize program.statements = statements at hparts
  induction hparts with
  | nil => rfl
  | cons hfirst hlater ih =>
    rw [List.flatMap_cons, List.flatten_cons, List.filterMap_append, hfirst.leaves_eq, ih]

/-- The words of a source have plain leaves. -/
theorem plain_of_mem_sourceWords {source file : String} {leaf : Leaf}
    (h : leaf ∈ (sourceWords source file).filterMap Word.leaf?) : leaf.Plain := by
  obtain ⟨word, hword, hleaf⟩ := List.mem_filterMap.mp h
  rw [sourceWords, List.mem_map] at hword
  obtain ⟨token, hmem, rfl⟩ := hword
  have hlegible := legible_of_mem_tokenize (List.mem_of_mem_filter hmem)
  cases leaf with
  | name text => trivial
  | number value =>
    unfold Word.leaf? at hleaf
    split at hleaf
    · exact absurd hleaf (by simp)
    · next hkind =>
      obtain ⟨decimal, hdecimal⟩ := hlegible.number hkind
      have hread : (Numeral.read? token.text).map Leaf.number = some (.number value) := hleaf
      rw [hdecimal, Option.map_some, Option.some.injEq, Leaf.number.injEq] at hread
      subst hread
      exact ⟨decimal.toDouble_isNaN, decimal.toDouble_isNegative⟩
    · exact absurd hleaf (by simp)

/-- The leaves of a program are those of its source, and plain. -/
theorem leaves_of_parse {source file : String} {program : Program}
    (h : (parse source file).outcome = .ok program) :
    program.leaves = (sourceWords source file).filterMap Word.leaf? ∧
      ∀ leaf ∈ program.leaves, leaf.Plain := by
  rw [parse_outcome_eq_ok_iff_printing, ← sourceWords_eq] at h
  rw [h.leaves_eq]
  exact ⟨rfl, fun leaf hmem => plain_of_mem_sourceWords hmem⟩

-- ---------------------------------------------------------------------------
-- Words that could be numbers
-- ---------------------------------------------------------------------------

/-- The words that are read as numbers, in any mixture of case. -/
theorem Numeral.lower_of_word? {text : List Char} (h : (word? text).isSome) :
    text.map Char.toLower ∈ ["inf".toList, "infinity".toList, "nan".toList] := by
  have hlist : ∀ word : String, String.ofList (text.map Char.toLower) = word →
      text.map Char.toLower = word.toList := by
    rintro _ rfl
    exact String.toList_ofList.symm
  simp only [word?] at h
  split at h
  · next hinf =>
    rcases hinf with hinf | hinfinity
    · simp [hlist _ hinf]
    · simp [hlist _ hinfinity]
  · split at h
    · next hnan => simp [hlist _ hnan]
    · exact absurd h (by decide)

/-- In a source these words are names: what begins with a letter is read as a whole word, and what
does not is none of them. -/
theorem Token.Munched.identifier_of_word? {token : Token} {c : Char} {after : List Char}
    (h : token.Munched c after) (hword : (Numeral.word? token.text.toList).isSome) :
    token.kind = .identifier := by
  have hlower := Numeral.lower_of_word? hword
  -- each of the words has three characters or more, so no mark and no single character is one
  have hlong : 3 ≤ token.text.toList.length := by
    rw [← List.length_map Char.toLower]
    generalize token.text.toList.map Char.toLower = lower at hlower
    revert lower
    decide
  by_cases hletter : isLetter c = true
  · obtain ⟨-, hof⟩ := h.word hletter
    have hreserved : ∀ word ∈ ["let", "print", "abs", "sqrt"],
        ¬ (Numeral.word? word.toList).isSome := by decide
    exact hof.identifier.mpr fun hmem => hreserved _ hmem hword
  · exfalso
    by_cases hdigit : c.isDigit = true
    · -- the text begins with `c`, and digits are not changed by case
      obtain ⟨later, hlater⟩ := (h.number hdigit).1.begins
      have hpos : 0 < token.text.toList.length := by omega
      obtain ⟨d, rest, htext⟩ := List.exists_cons_of_length_pos hpos
      rw [htext, List.cons_append, List.cons.injEq] at hlater
      rw [htext, List.map_cons, hlater.1, toLower_of_isDigit hdigit] at hlower
      have hc : c = 'i' ∨ c = 'n' := by
        simp only [List.mem_cons, List.not_mem_nil, or_false] at hlower
        rcases hlower with hinf | hinfinity | hnan
        · exact .inl (List.cons.inj hinf).1
        · exact .inl (List.cons.inj hinfinity).1
        · exact .inr (List.cons.inj hnan).1
      rcases hc with rfl | rfl <;> exact absurd hdigit (by decide)
    · by_cases hmark : [c] ∈ marks
      · have hshort : ∀ text ∈ marks, text.length ≤ 2 := by decide
        have hle := hshort _ (h.mark hmark).1.fits
        omega
      · obtain ⟨-, hsingle⟩ := h.other (Bool.eq_false_iff.mpr hletter)
          (Bool.eq_false_iff.mpr hdigit) hmark
        rw [hsingle] at hlong
        exact absurd hlong (by simp)

/-- In a source, the words that are read as numbers elsewhere are names. -/
theorem identifier_of_word? {source file : String} {token : Token}
    (h : token ∈ tokenize source file) (hword : (Numeral.word? token.text.toList).isSome) :
    token.kind = .identifier := by
  have hkind : token.kind ≠ .endOfInput := by
    intro hend
    rw [spelled_of_mem_tokenize h "EOF" (by rw [hend]; rfl)] at hword
    exact absurd hword (by decide)
  obtain ⟨front, c, after, -, -, hfirst, htext⟩ := exists_first_of_mem_scan h hkind
  exact (Token.Munched.of_first hfirst htext).identifier_of_word? hword

-- ---------------------------------------------------------------------------
-- Numbers that are too large
-- ---------------------------------------------------------------------------

/-- Every digit behind a number multiplies it by ten at least. -/
theorem Numeral.mul_pow_le_foldl (n : Nat) (digits : List Char) :
    n * 10 ^ digits.length ≤
      digits.foldl (fun n d => 10 * n + (d.toNat - '0'.toNat)) n := by
  induction digits generalizing n with
  | nil => simp
  | cons d digits ih =>
    calc n * 10 ^ (digits.length + 1) = (10 * n) * 10 ^ digits.length := by
          rw [Nat.pow_succ, Nat.mul_comm 10 n, Nat.mul_assoc, Nat.mul_comm 10]
      _ ≤ (10 * n + (d.toNat - '0'.toNat)) * 10 ^ digits.length :=
          Nat.mul_le_mul_right _ (Nat.le_add_right _ _)
      _ ≤ _ := ih _

/-- So a number without a zero in front has as many digits as it is written with. -/
theorem Numeral.lt_digitCount_value {d : Char} {digits : List Char} (hd : d.isDigit = true)
    (hne : d ≠ '0') (hlength : 0 < digits.length) :
    digits.length < Decimal.digitCount (value (d :: digits)) := by
  have hpos : 1 ≤ d.toNat - '0'.toNat := by
    simp only [Char.isDigit, Bool.and_eq_true, decide_eq_true_eq] at hd
    have hle : '0'.toNat ≤ d.toNat := hd.1
    have hnat : d.toNat ≠ '0'.toNat := fun h => hne (Char.toNat_inj.mp h)
    omega
  have hlarge : 10 ^ digits.length ≤ value (d :: digits) :=
    calc 10 ^ digits.length = 1 * 10 ^ digits.length := (Nat.one_mul _).symm
      _ ≤ (10 * 0 + (d.toNat - '0'.toNat)) * 10 ^ digits.length :=
          Nat.mul_le_mul_right _ (by omega)
      _ ≤ value (d :: digits) := mul_pow_le_foldl _ digits
  by_contra hle
  rw [Nat.not_lt, Decimal.digitCount, Nat.length_toDigits_le_iff (by decide) hlength] at hle
  exact absurd hlarge (Nat.not_le.mpr hle)

/-- Numbers of more than 310 digits are read as infinity. -/
theorem Decimal.toDouble_of_long {n : Nat} (h : 310 < digitCount n) :
    (Decimal.mk n 0).toDouble = .ofMagnitude Double.infinite := by
  have hpos : n ≠ 0 := by
    rintro rfl
    exact absurd h (by decide)
  simp only [toDouble]
  rw [if_neg (by omega), if_pos (by omega)]

/-- Digits alone are read as the number that they write. -/
theorem Numeral.read?_of_digits {text : List Char} (h : IsDigits text) :
    read? (String.ofList text) = some (Decimal.mk (value text) 0).toDouble := by
  obtain ⟨hne, hall⟩ := h
  have hdecimal : decimal? text = some ⟨value text, 0⟩ := by
    rw [decimal?, List.takeWhile_eq_self_iff.mpr hall, List.dropWhile_eq_nil_iff.mpr hall,
      if_neg (by simp [hne])]
    simp [places, exponent?]
  rw [read?_of_digit fun c hc => hall c (List.mem_of_head? hc), unsigned?, hdecimal]

/-- Read by themselves, digits are one number. -/
theorem singleToken_of_digits {text : List Char} (h : IsDigits text) :
    SingleToken .number text := by
  obtain ⟨hne, hall⟩ := h
  obtain ⟨d, digits, rfl⟩ := List.exists_cons_of_ne_nil hne
  obtain ⟨hd, hdigits⟩ := List.forall_mem_cons.mp hall
  have hlayout : isLayout d = false := by
    rw [Bool.eq_false_iff]
    intro hlayout
    rw [isDigit_of_isLayout hlayout] at hd
    exact absurd hd (by decide)
  have hcomment : ¬ (d = '/' ∧ digits.head? = some '/') := by
    rintro ⟨rfl, -⟩
    exact absurd hd (by decide)
  refine ⟨d, digits, rfl, ?_⟩
  rw [Lexeme.first_eq_solid hlayout hcomment, Lexeme.solid, isLetter_of_isDigit hd, hd]
  simp [Lexeme.number, Lexeme.fraction, List.takeWhile_eq_self_iff.mpr hdigits,
    List.dropWhile_eq_nil_iff.mpr hdigits]

/-- The source that prints a number, written with digits alone. -/
def printDigits (digits : List Char) : String := String.ofList ("print".toList ++ ' ' :: digits)

theorem parse_printDigits {digits : List Char} (h : IsDigits digits) (file : String) :
    (parse (printDigits digits) file).outcome =
      .ok ⟨[.print (.number (Decimal.mk (Numeral.value digits) 0).toDouble)]⟩ := by
  let words : List Word := [⟨.printWord, "print"⟩, ⟨.number, String.ofList digits⟩]
  have hsingle : ∀ word ∈ words, SingleToken word.kind word.text.toList := by
    have hprint : SingleToken .printWord "print".toList := ⟨'p', "rint".toList, rfl, rfl⟩
    have hnumber : SingleToken .number (String.ofList digits).toList := by
      rw [String.toList_ofList]
      exact singleToken_of_digits h
    exact List.forall_mem_cons.mpr ⟨hprint, List.forall_mem_singleton.mpr hnumber⟩
  -- the source is these two words with a blank between them
  have hrespaced : Respaced (words.map Word.text) ("print".toList ++ ' ' :: digits) := by
    have hlast : Respaced [String.ofList digits] ([' '] ++ (String.ofList digits).toList ++ []) :=
      .next (.layout rfl (.nil _)) (by simp [Apart]) (.last (.nil []))
    rw [String.toList_ofList, List.append_nil] at hlast
    exact .next (.nil _) (by simp [Apart, isLayout]) hlast
  have hwords : sourceWords (printDigits digits) file = words := by
    have hscan := hrespaced.scan_words hsingle file 0
    have htokens := map_word_tokenize (printDigits digits) file
    have htext : (printDigits digits).toList = "print".toList ++ ' ' :: digits :=
      String.toList_ofList
    rw [tokenize, htext, hscan] at htokens
    exact (List.append_cancel_right htokens).symm
  have hprinting := Statement.Printing.print (.number (Numeral.read?_of_digits h))
  rw [parse_outcome_eq_ok_iff_printing, ← sourceWords_eq, hwords]
  exact ⟨List.cons_ne_nil _ _, [words], .cons hprinting .nil, by simp⟩

-- ---------------------------------------------------------------------------
-- How two sources come out
-- ---------------------------------------------------------------------------

/-- Sources come out alike exactly if they come out equal: as equal programs or with equal
faults. -/
theorem sameOutcome_iff_eq (source file source' file' : String) :
    sameOutcome (parse source file).outcome (parse source' file').outcome = true ↔
      (parse source file).outcome = (parse source' file').outcome := by
  cases hfirst : (parse source file).outcome with
  | error stop => cases (parse source' file').outcome <;> simp [sameOutcome]
  | ok program =>
    cases hsecond : (parse source' file').outcome with
    | error stop' => simp [sameOutcome]
    | ok program' =>
      rw [sameOutcome, Except.ok.injEq]
      exact Program.same_iff_eq (leaves_of_parse hfirst).2 (leaves_of_parse hsecond).2

/--
**To be the same is to be equal.** The names and numbers of the program of a source are those of its
words, in order; its numbers are no NaN and have a clear sign bit, and words that would be read as
numbers elsewhere are names. So a source comes out the same as itself, and two sources come out the
same exactly if they come out equal, bit for bit. Numbers can be infinite: those of more than 310
digits are.
-/
theorem parse_same_iff_eq (source file : String) :
    (∀ program, (parse source file).outcome = .ok program →
      program.leaves = (sourceWords source file).filterMap Word.leaf? ∧
        ∀ value, .number value ∈ program.leaves →
          value.isNaN = false ∧ value.isNegative = false) ∧
    (∀ token ∈ tokenize source file, (Numeral.word? token.text.toList).isSome →
      token.kind = .identifier) ∧
    sameOutcome (parse source file).outcome (parse source file).outcome = true ∧
    (∀ source' file', sameOutcome (parse source file).outcome (parse source' file').outcome = true ↔
      (parse source file).outcome = (parse source' file').outcome) ∧
    (∀ source' file' program program', (parse source file).outcome = .ok program →
      (parse source' file').outcome = .ok program' →
        (program.same program' = true ↔ program = program')) ∧
    ∀ d digits, IsDigits (d :: digits) → d ≠ '0' → 310 ≤ digits.length →
      (parse (printDigits (d :: digits)) file).outcome =
        .ok ⟨[.print (.number (.ofMagnitude Double.infinite))]⟩ := by
  refine ⟨?_, fun token => identifier_of_word?, (sameOutcome_iff_eq ..).mpr rfl,
    sameOutcome_iff_eq source file, ?_, ?_⟩
  · intro program h
    obtain ⟨hleaves, hplain⟩ := leaves_of_parse h
    exact ⟨hleaves, fun value hmem => hplain _ hmem⟩
  · intro source' file' program program' h h'
    exact Program.same_iff_eq (leaves_of_parse h).2 (leaves_of_parse h').2
  · intro d digits hdigits hne hlong
    have hpos : 0 < digits.length := Nat.lt_of_lt_of_le (by decide) hlong
    -- without a zero in front the value has as many digits as were written
    have hcount := Numeral.lt_digitCount_value (hdigits.2 d List.mem_cons_self) hne hpos
    rw [parse_printDigits hdigits, Decimal.toDouble_of_long (Nat.lt_of_le_of_lt hlong hcount)]

/-- Two sources that mean the same, with a name that would be read as a NaN elsewhere. -/
theorem parse_same_iff_eq_of_nan :
    ∃ program : Program,
      (parse "print nan + 0.50" "a").outcome = .ok program ∧
      (parse "print (nan + 0.5)" "b").outcome = .ok program ∧
      program.leaves = [.name "nan", .number ⟨0x3FE0000000000000⟩] ∧
      (Double.isNaN ⟨0x3FE0000000000000⟩ = false ∧
        Double.isNegative ⟨0x3FE0000000000000⟩ = false) ∧
      (program.same program = true ↔ program = program) := by
  let program : Program :=
    ⟨[.print (.binary .plus (.identifier "nan") (.number ⟨0x3FE0000000000000⟩))]⟩
  have h : (parse "print nan + 0.50" "a").outcome = .ok program := by decide +kernel
  have h' : (parse "print (nan + 0.5)" "b").outcome = .ok program := by decide +kernel
  obtain ⟨hleaves, -, -, -, hsame, -⟩ := parse_same_iff_eq "print nan + 0.50" "a"
  exact ⟨program, h, h', rfl, (hleaves program h).2 _ (by decide), hsame _ _ _ _ h h'⟩

end Reckon
