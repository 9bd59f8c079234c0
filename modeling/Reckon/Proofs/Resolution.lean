import Reckon.Command.Settings
import Reckon.Proofs.Building
import Reckon.Proofs.Munch

/-!
# Reckon — what settings are understood

A setting is a text, or it is absent and has a value of its own then. The texts that name a value
are told here without the readers: blanks around them do not count, and capitals of ASCII are as
good as small letters. An invocation asks for the settings that its texts name, and it is misused if
one of these names nothing, or if there are too many arguments. Every invocation does one or the
other, and of several misuses one is told.

* `Text.Trims`, `Text.Spells` — a text without the blanks around it, and the word that it spells.
* `Output.read_eq_ok_iff`, `Importance.read_eq_ok_iff` — the texts that name a value.
* `resolve_eq_ok_iff`, `resolve_eq_error_iff` — what an invocation asks for, and how it is misused.
-/

namespace Reckon

open Text

/-- Of two steps the first one that fails is told. -/
theorem bind_eq_error_iff {ε α β : Type} {x : Except ε α} {f : α → Except ε β} {e : ε} :
    x >>= f = .error e ↔ x = .error e ∨ ∃ a, x = .ok a ∧ f a = .error e := by
  cases x with
  | error reason => simp [bind, Except.bind]
  | ok a => simp [bind, Except.bind]

/-- Where all names are known, a text that is not one of them is told as what it is. -/
theorem error_iff_of_ok_iff {α : Type} {result : Except Misuse α} {named : α → Prop}
    {misuse wrong : Misuse} (hok : ∀ value, result = .ok value ↔ named value)
    (herror : ∀ misuse, result = .error misuse → misuse = wrong) :
    result = .error misuse ↔ misuse = wrong ∧ ∀ value, ¬ named value := by
  cases hresult : result with
  | ok value =>
    constructor
    · exact fun h => absurd h (by simp)
    · exact fun h => absurd ((hok value).mp hresult) (h.2 value)
  | error misuse' =>
    have hnone : ∀ value, ¬ named value := by
      intro value hnamed
      rw [(hok value).mpr hnamed] at hresult
      exact absurd hresult (by simp)
    rw [herror misuse' hresult]
    exact ⟨fun h => ⟨(Except.error.inj h).symm, hnone⟩, fun h => by rw [h.1]⟩

-- ---------------------------------------------------------------------------
-- Blanks around a text
-- ---------------------------------------------------------------------------

/-- The inner text is what is left of a text without the blanks at its two ends. -/
structure Text.Trims (text inner : List Char) : Prop where
  around : ∃ front back, text = front ++ inner ++ back ∧ ∀ c ∈ front ++ back, isBlank c = true
  first  : ∀ c, inner.head? = some c → isBlank c = false
  last   : ∀ c, inner.getLast? = some c → isBlank c = false

/-- Where the end is not blank, there is nothing to cut off. -/
theorem Text.trimEnd_eq_self {text : List Char}
    (h : ∀ c, text.getLast? = some c → isBlank c = false) : trimEnd text = text := by
  obtain ⟨dropped, hsplit, hblank, -⟩ := trimEnd_spec text
  cases hdropped : dropped.getLast? with
  | none =>
    obtain rfl := List.getLast?_eq_none_iff.mp hdropped
    rw [List.append_nil] at hsplit
    exact hsplit.symm
  | some c =>
    have hlast : text.getLast? = some c := by rw [hsplit, List.getLast?_append, hdropped]; rfl
    have hc := hblank c (List.mem_of_getLast? hdropped)
    rw [h c hlast] at hc
    exact absurd hc (by simp)

/-- To trim a text is to take off all blanks at its two ends. -/
theorem Text.trims_trim (text : List Char) : Trims text (trim text) := by
  obtain ⟨dropped, hsplit, hblank, hlast⟩ := trimEnd_spec (trimStart text)
  refine ⟨⟨text.takeWhile isBlank, dropped, ?_, ?_⟩, ?_, hlast⟩
  · rw [trim, List.append_assoc, ← hsplit, trimStart, List.takeWhile_append_dropWhile]
  · intro c hc
    rcases List.mem_append.mp hc with hfront | hback
    · exact List.mem_takeWhile_imp hfront
    · exact hblank c hback
  · intro c hc
    -- what trimming the end keeps begins as the text does that it was given
    have hhead : (trimStart text).head? = some c := by
      rw [hsplit, List.head?_append, ← trim, hc]
      rfl
    have hnot := List.head?_dropWhile_not isBlank text
    rw [← trimStart, hhead] at hnot
    simpa using hnot

/-- Trimming finds the one inner text that there is. -/
theorem Text.trims_iff {text inner : List Char} : Trims text inner ↔ inner = trim text := by
  constructor
  · rintro ⟨⟨front, back, rfl, hblank⟩, hfirst, hlast⟩
    have hfront : ∀ c ∈ front, isBlank c = true := fun c hc => hblank c (by simp [hc])
    have hback : ∀ c ∈ back, isBlank c = true := fun c hc => hblank c (by simp [hc])
    cases inner with
    | nil =>
      have hnone : trimStart (front ++ [] ++ back) = [] := by
        rw [trimStart, List.dropWhile_eq_nil_iff]
        simpa using hblank
      rw [trim, hnone]
      rfl
    | cons c inner =>
      have hc : isBlank c = false := hfirst c rfl
      -- the inner text begins with what is no blank, so trimming the front stops there
      have hstart : trimStart (front ++ c :: inner ++ back) = c :: inner ++ back := by
        rw [trimStart, List.append_assoc, List.dropWhile_append_of_pos hfront, List.cons_append,
          List.dropWhile_cons_of_neg (by simp [hc])]
      rw [trim, hstart, trimEnd_append_blanks hback, trimEnd_eq_self hlast]
  · rintro rfl
    exact trims_trim text

/-- The text is the word, in small letters or capitals, with blanks around it. -/
def Text.Spells (text word : String) : Prop :=
  ∃ inner, Trims text.toList inner ∧ inner.map Char.toLower = word.toList

/-- A text spells the plain word that is in it. -/
theorem Text.spells_iff {text word : String} : Spells text word ↔ plainWord text = word := by
  unfold Spells plainWord
  simp only [trims_iff, exists_eq_left]
  exact ⟨fun h => by rw [h, String.ofList_toList], fun h => by rw [← h, String.toList_ofList]⟩

-- ---------------------------------------------------------------------------
-- Names of outputs
-- ---------------------------------------------------------------------------

namespace Output

/-- The words for an output. -/
def words : Output → List String
  | ast => ["ast"]
  | tokens => ["tokens"]
  | derivation => ["derivation", "cst"]

/-- The text is one of the words for the output. -/
def NamedBy (output : Output) (text : String) : Prop := ∃ word ∈ output.words, Spells text word

variable {output : Output} {text : String} {misuse : Misuse}

theorem namedBy_iff : output.NamedBy text ↔ plainWord text ∈ output.words := by
  simp only [NamedBy, spells_iff, exists_eq_right']

instance (output : Output) (text : String) : Decidable (output.NamedBy text) :=
  decidable_of_iff _ namedBy_iff.symm

/-- A text is read as what it names. -/
theorem read_eq_ok_iff : read text = .ok output ↔ output.NamedBy text := by
  rw [namedBy_iff]
  unfold read
  split <;> cases output <;> simp_all [words]

/-- A text that names nothing is told as it was given. -/
theorem read_eq_error_iff :
    read text = .error misuse ↔
      misuse = .unknownOutput text ∧ ∀ output : Output, ¬ output.NamedBy text := by
  refine error_iff_of_ok_iff (fun output => read_eq_ok_iff) ?_
  intro misuse hread
  unfold read at hread
  split at hread <;> simp_all

end Output

-- ---------------------------------------------------------------------------
-- Names of degrees
-- ---------------------------------------------------------------------------

namespace Importance

/-- The word for a degree. -/
def word : Importance → String
  | error => "error"
  | warn => "warn"
  | info => "info"
  | debug => "debug"
  | trace => "trace"

/-- The text is the word for the degree, or its rank in digits, perhaps behind a plus sign. -/
def NamedBy (degree : Importance) (text : String) : Prop :=
  Spells text degree.word ∨
    ∃ digits, (Trims text.toList digits ∨ Trims text.toList ('+' :: digits)) ∧ IsDigits digits ∧
      Numeral.value digits = degree.rank

variable {degree : Importance} {text : String} {misuse : Misuse}

theorem namedBy_iff : degree.NamedBy text ↔
    plainWord text = degree.word ∨
      ∃ digits, (trim text.toList = digits ∨ trim text.toList = '+' :: digits) ∧
        IsDigits digits ∧ Numeral.value digits = degree.rank := by
  simp only [NamedBy, spells_iff, trims_iff, eq_comm]

/-- The word of a degree is its name without capitals. -/
theorem plainWord_name (degree : Importance) : plainWord degree.name = degree.word := by
  cases degree <;> decide

/-- A natural number is read from digits and from nothing else. -/
theorem natural?_eq_some_iff {text : List Char} {n : Nat} :
    Numeral.natural? text = some n ↔ IsDigits text ∧ Numeral.value text = n := by
  simp [Numeral.natural?, IsDigits]

/-- Digits do not begin with a plus sign, so the two ways to give a number do not meet. -/
theorem rank?_eq_some_iff {text : List Char} {n : Nat} :
    rank? text = some n ↔
      ∃ digits, (text = digits ∨ text = '+' :: digits) ∧ IsDigits digits ∧
        Numeral.value digits = n := by
  unfold rank?
  split
  · next digits =>
    rw [natural?_eq_some_iff]
    constructor
    · exact fun h => ⟨digits, .inr rfl, h⟩
    · rintro ⟨digits', rfl | hplus, hdigits, hvalue⟩
      · exact absurd (hdigits.2 '+' List.mem_cons_self) (by decide)
      · obtain ⟨-, rfl⟩ := List.cons.inj hplus
        exact ⟨hdigits, hvalue⟩
  · next hplus =>
    rw [natural?_eq_some_iff]
    constructor
    · exact fun h => ⟨text, .inl rfl, h⟩
    · rintro ⟨digits, rfl | rfl, h⟩
      · exact h
      · exact absurd rfl (hplus digits)

/-- The words have no digits, so no text is read in both ways. -/
theorem rank?_eq_none_of_word (h : plainWord text = degree.word) :
    rank? (trim text.toList) = none := by
  have hletters : (degree.word.toList.all fun c => !c.isDigit) = true := by
    cases degree <;> decide
  have hmap : (trim text.toList).map Char.toLower = degree.word.toList := by
    rw [← h, plainWord, String.toList_ofList]
  rw [Option.eq_none_iff_forall_ne_some]
  intro n hrank
  obtain ⟨digits, htext, ⟨hne, hdigits⟩, -⟩ := rank?_eq_some_iff.mp hrank
  obtain ⟨d, rest, rfl⟩ := List.exists_cons_of_ne_nil hne
  -- the first digit would be in the word as well, since it has no small letter of its own
  have hd := hdigits d List.mem_cons_self
  have hmem : d ∈ trim text.toList := by
    rcases htext with htext | htext <;> simp [htext]
  have hletter := List.all_eq_true.mp hletters d.toLower (hmap ▸ List.mem_map_of_mem hmem)
  rw [toLower_of_isDigit hd, hd] at hletter
  exact absurd hletter (by decide)

theorem mem_all (degree : Importance) : degree ∈ all := by cases degree <;> decide

/-- Where one degree at most will do, it does not matter in which order they are tried. -/
theorem find?_all_eq_some_iff {p : Importance → Bool}
    (hunique : ∀ a b, p a = true → p b = true → a = b) :
    all.find? p = some degree ↔ p degree = true := by
  constructor
  · exact List.find?_some
  · intro hp
    cases hfind : all.find? p with
    | none => exact absurd hp (List.find?_eq_none.mp hfind degree (mem_all degree))
    | some found => rw [hunique found degree (List.find?_some hfind) hp]

/-- Every degree has a rank of its own. -/
theorem rank_injective {a b : Importance} (h : a.rank = b.rank) : a = b := by
  revert h
  cases a <;> cases b <;> decide

/-- And a word of its own. -/
theorem word_injective {a b : Importance} (h : a.word = b.word) : a = b := by
  revert h
  cases a <;> cases b <;> decide

theorem read_eq_ok_iff : read text = .ok degree ↔ degree.NamedBy text := by
  rw [namedBy_iff, ← rank?_eq_some_iff]
  unfold read
  cases hrank : rank? (trim text.toList) with
  | some n =>
    -- a text that gives a number is not compared with the words
    have hword : ¬ plainWord text = degree.word := by
      intro hword
      rw [rank?_eq_none_of_word hword] at hrank
      exact absurd hrank (by simp)
    have hfind : all.find? (fun degree => degree.rank == n) = some degree ↔ n = degree.rank := by
      rw [find?_all_eq_some_iff, beq_iff_eq, eq_comm]
      intro a b ha hb
      exact rank_injective ((beq_iff_eq.mp ha).trans (beq_iff_eq.mp hb).symm)
    simp only [hword, false_or, Option.some.injEq, ← hfind]
    cases all.find? (fun degree => degree.rank == n) <;> simp
  | none =>
    have hfind : all.find? (fun degree => plainWord degree.name == plainWord text) = some degree ↔
        plainWord text = degree.word := by
      rw [find?_all_eq_some_iff, beq_iff_eq, plainWord_name, eq_comm]
      intro a b ha hb
      rw [plainWord_name, beq_iff_eq] at ha hb
      exact word_injective (ha.trans hb.symm)
    simp only [← hfind, reduceCtorEq, or_false]
    cases all.find? (fun degree => plainWord degree.name == plainWord text) <;> simp

theorem read_eq_error_iff :
    read text = .error misuse ↔
      misuse = .unknownImportance text ∧ ∀ degree : Importance, ¬ degree.NamedBy text := by
  refine error_iff_of_ok_iff (fun degree => read_eq_ok_iff) ?_
  intro misuse hread
  simp only [read] at hread
  split at hread <;> simp_all

end Importance

-- ---------------------------------------------------------------------------
-- Invocations
-- ---------------------------------------------------------------------------

/-- The value that a setting asks for: the one its text names, and `absent` without a text. -/
def Asked {α : Type} (named : α → String → Prop) (absent : α) (setting : Option String)
    (value : α) : Prop :=
  match setting with
  | none => value = absent
  | some text => named value text

/-- The settings that an invocation asks for. -/
structure Invocation.Asks (invocation : Invocation) (settings : Settings) : Prop where
  few    : invocation.arguments.length ≤ 1
  source : settings.source = invocation.arguments.head?
  log    : Asked Importance.NamedBy .warn invocation.log settings.log
  output : Asked Output.NamedBy .ast invocation.output settings.output

/-- What is told about an invocation: first that there are too many arguments, then that its log
names no degree, then that its output names none. -/
inductive Invocation.Misused (invocation : Invocation) : Misuse → Prop
  | tooManyArguments (hmany : 1 < invocation.arguments.length) :
      Misused invocation (.tooManyArguments invocation.arguments.length)
  | unknownImportance {text : String} (hfew : invocation.arguments.length ≤ 1)
      (hlog : invocation.log = some text) (hnone : ∀ degree : Importance, ¬ degree.NamedBy text) :
      Misused invocation (.unknownImportance text)
  | unknownOutput {text : String} (hfew : invocation.arguments.length ≤ 1)
      (hlog : ∃ degree, Asked Importance.NamedBy .warn invocation.log degree)
      (houtput : invocation.output = some text) (hnone : ∀ output : Output, ¬ output.NamedBy text) :
      Misused invocation (.unknownOutput text)

section

variable {α : Type} {read : String → Except Misuse α} {named : α → String → Prop} {absent : α}
  {setting : Option String}

/-- What is not set has the value for its absence; what is set must name one. -/
theorem readOr_eq_ok_iff (hok : ∀ text value, read text = .ok value ↔ named value text)
    {value : α} : Settings.readOr absent read setting = .ok value ↔
      Asked named absent setting value := by
  cases setting with
  | none => exact ⟨fun h => (Except.ok.inj h).symm, fun h => congrArg Except.ok h.symm⟩
  | some text => exact hok text value

/-- Only what is set can be wrong. -/
theorem readOr_eq_error_iff {wrong : String → Misuse}
    (herror : ∀ text misuse, read text = .error misuse ↔
      misuse = wrong text ∧ ∀ value, ¬ named value text) {misuse : Misuse} :
    Settings.readOr absent read setting = .error misuse ↔
      ∃ text, setting = some text ∧ misuse = wrong text ∧ ∀ value, ¬ named value text := by
  cases setting with
  | none =>
    constructor
    · intro h
      exact absurd h (by simp [Settings.readOr])
    · rintro ⟨text, hnone, -⟩
      exact absurd hnone (by simp)
  | some text =>
    refine (herror text misuse).trans ⟨fun h => ⟨text, rfl, h⟩, ?_⟩
    rintro ⟨text', hsome, h⟩
    obtain rfl := Option.some.inj hsome
    exact h

end

variable {invocation : Invocation} {settings : Settings} {misuse : Misuse}

/-- Too many arguments are told before anything else is read. -/
theorem resolve_of_many (h : 1 < invocation.arguments.length) :
    Settings.resolve invocation = .error (.tooManyArguments invocation.arguments.length) := by
  rw [Settings.resolve, if_pos h]
  rfl

/-- Otherwise the log is read first and then the output. -/
theorem resolve_of_few (h : invocation.arguments.length ≤ 1) :
    Settings.resolve invocation =
      (Settings.readOr .warn Importance.read invocation.log >>= fun log =>
        Settings.readOr .ast Output.read invocation.output >>= fun output =>
          pure ⟨invocation.arguments.head?, log, output⟩) := by
  rw [Settings.resolve, if_neg (Nat.not_lt.mpr h)]

theorem readOr_log_eq_ok_iff {degree : Importance} :
    Settings.readOr .warn Importance.read invocation.log = .ok degree ↔
      Asked Importance.NamedBy .warn invocation.log degree :=
  readOr_eq_ok_iff fun _ _ => Importance.read_eq_ok_iff

theorem readOr_output_eq_ok_iff {output : Output} :
    Settings.readOr .ast Output.read invocation.output = .ok output ↔
      Asked Output.NamedBy .ast invocation.output output :=
  readOr_eq_ok_iff fun _ _ => Output.read_eq_ok_iff

/-- An invocation is resolved as the settings that it asks for. -/
theorem resolve_eq_ok_iff :
    Settings.resolve invocation = .ok settings ↔ invocation.Asks settings := by
  rcases Nat.lt_or_ge 1 invocation.arguments.length with hmany | hfew
  · rw [resolve_of_many hmany]
    constructor
    · exact fun h => absurd h (by simp)
    · exact fun h => absurd h.few (Nat.not_le.mpr hmany)
  · simp only [resolve_of_few hfew, bind_eq_ok_iff, readOr_log_eq_ok_iff, readOr_output_eq_ok_iff,
      pure_eq_ok_iff]
    constructor
    · rintro ⟨log, hlog, output, houtput, rfl⟩
      exact ⟨hfew, rfl, hlog, houtput⟩
    · intro h
      exact ⟨settings.log, h.log, settings.output, h.output, by rw [← h.source]⟩

/-- And it is refused for what is told about it. -/
theorem resolve_eq_error_iff :
    Settings.resolve invocation = .error misuse ↔ invocation.Misused misuse := by
  rcases Nat.lt_or_ge 1 invocation.arguments.length with hmany | hfew
  · rw [resolve_of_many hmany]
    constructor
    · intro h
      obtain rfl := Except.error.inj h
      exact .tooManyArguments hmany
    · rintro (- | hfew | hfew)
      · rfl
      · exact absurd hfew (Nat.not_le.mpr hmany)
      · exact absurd hfew (Nat.not_le.mpr hmany)
  · simp only [resolve_of_few hfew, bind_eq_error_iff, readOr_log_eq_ok_iff,
      readOr_eq_error_iff fun _ _ => Importance.read_eq_error_iff,
      readOr_eq_error_iff fun _ _ => Output.read_eq_error_iff]
    constructor
    -- the log is bad, or it is good and the output is bad; nothing fails after that
    · rintro (⟨text, hlog, rfl, hnone⟩ | ⟨degree, hlog, ⟨text, houtput, rfl, hnone⟩ | hpure⟩)
      · exact .unknownImportance hfew hlog hnone
      · exact .unknownOutput hfew ⟨degree, hlog⟩ houtput hnone
      · obtain ⟨output, -, hpure⟩ := hpure
        exact absurd hpure (by simp [pure, Except.pure])
    · rintro (hmany | ⟨-, hlog, hnone⟩ | ⟨-, ⟨degree, hlog⟩, houtput, hnone⟩)
      · exact absurd hmany (Nat.not_lt.mpr hfew)
      · exact .inl ⟨_, hlog, rfl, hnone⟩
      · exact .inr ⟨degree, hlog, .inl ⟨_, houtput, rfl, hnone⟩⟩

end Reckon
