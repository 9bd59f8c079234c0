import Mathlib.Data.List.Forall2
import Reckon.Command

/-!
# Reckon — what a process is started with

A process is given bytes, and the command is called with texts. Bytes that are no text mean two
things. In a setting they are as good as no setting, and its default holds. Among the words they
leave nothing to be called with, and the process breaks off; this goes for the name of the program
too, which is else not looked at. So each launch amounts to one invocation or to none.

* `invocation?_eq_some_iff`, `invocation?_eq_none_iff` — what a launch amounts to.
* `start_of_amountsTo`, `start_eq_brokeOff_iff` — what becomes of the process.
-/

namespace Reckon

/-- Bytes are read as the text that is written with them, if there is one. -/
theorem fromUTF8?_eq_some_iff {bytes : ByteArray} {text : String} :
    String.fromUTF8? bytes = some text ↔ bytes = text.toUTF8 := by
  unfold String.fromUTF8?
  constructor
  · intro h
    split at h
    · obtain rfl := Option.some.inj h
      rfl
    · exact absurd h (by simp)
  · rintro rfl
    rw [String.toUTF8_eq_toByteArray, dif_pos text.isValidUTF8]
    rfl

/-- Bytes are no text if no text has these bytes. -/
theorem fromUTF8?_eq_none_iff {bytes : ByteArray} :
    String.fromUTF8? bytes = none ↔ ∀ text : String, bytes ≠ text.toUTF8 := by
  simp only [Option.eq_none_iff_forall_ne_some, ne_eq, fromUTF8?_eq_some_iff]

/-- What is made of a setting in bytes: a text, or nothing if it is not given or is no text. -/
inductive Given : Option ByteArray → Option String → Prop
  | text (text : String) : Given (some text.toUTF8) (some text)
  | unset : Given none none
  | noText {bytes : ByteArray} (h : ∀ text : String, bytes ≠ text.toUTF8) : Given (some bytes) none

/-- A setting is given as the text that it is, or not at all. -/
theorem given_iff {setting : Option ByteArray} {value : Option String} :
    Given setting value ↔ setting.bind String.fromUTF8? = value := by
  constructor
  · rintro (text | - | h)
    · exact fromUTF8?_eq_some_iff.mpr rfl
    · rfl
    · exact fromUTF8?_eq_none_iff.mpr h
  · rintro rfl
    cases setting with
    | none => exact .unset
    | some bytes =>
      cases htext : String.fromUTF8? bytes with
      | none =>
        rw [Option.bind_some, htext]
        -- bytes that are no text are taken for no setting
        exact .noText (fromUTF8?_eq_none_iff.mp htext)
      | some text =>
        rw [Option.bind_some, htext, fromUTF8?_eq_some_iff.mp htext]
        exact .text text

/-- The words of the launch are texts: the name of the program, and the arguments of the invocation.
The settings are those that are given. -/
structure Launch.AmountsTo (launch : Launch) (invocation : Invocation) : Prop where
  words  : ∃ words : List String, launch.words = words.map String.toUTF8 ∧
             invocation.arguments = words.drop 1
  log    : Given launch.log invocation.log
  output : Given launch.output invocation.output

/-- All words are text if each of them is. -/
theorem mapM_fromUTF8?_eq_some_iff {words : List ByteArray} {texts : List String} :
    words.mapM String.fromUTF8? = some texts ↔ words = texts.map String.toUTF8 := by
  induction words generalizing texts with
  | nil => cases texts <;> simp
  | cons word words ih =>
    simp only [List.mapM_cons, Option.bind_eq_bind, Option.bind_eq_some_iff,
      fromUTF8?_eq_some_iff, ih, Option.pure_def, Option.some.injEq]
    constructor
    · rintro ⟨text, rfl, later, rfl, rfl⟩
      rfl
    · intro h
      cases texts with
      | nil => exact absurd h (by simp)
      | cons text later =>
        obtain ⟨rfl, rfl⟩ := List.cons.inj h
        exact ⟨text, rfl, later, rfl, rfl⟩

/-- One word that is none is enough to tell that they are not. -/
theorem mapM_fromUTF8?_eq_none_iff {words : List ByteArray} :
    words.mapM String.fromUTF8? = none ↔ ∃ word ∈ words, ∀ text : String, word ≠ text.toUTF8 := by
  induction words with
  | nil => simp
  | cons word words ih =>
    rw [List.mapM_cons, List.exists_mem_cons_iff, ← ih, ← fromUTF8?_eq_none_iff]
    cases String.fromUTF8? word <;> cases words.mapM String.fromUTF8? <;> simp

variable {launch : Launch}

/-- A launch is taken for what it amounts to. -/
theorem invocation?_eq_some_iff {invocation : Invocation} :
    launch.invocation? = some invocation ↔ launch.AmountsTo invocation := by
  rw [Launch.invocation?, Option.map_eq_some_iff]
  constructor
  · rintro ⟨words, hwords, rfl⟩
    exact ⟨⟨words, mapM_fromUTF8?_eq_some_iff.mp hwords, rfl⟩, given_iff.mpr rfl,
      given_iff.mpr rfl⟩
  · rintro ⟨⟨words, hwords, harguments⟩, hlog, houtput⟩
    refine ⟨words, mapM_fromUTF8?_eq_some_iff.mpr hwords, ?_⟩
    rw [given_iff.mp hlog, given_iff.mp houtput, ← harguments]

theorem invocation?_eq_none_iff :
    launch.invocation? = none ↔ ∃ word ∈ launch.words, ∀ text : String, word ≠ text.toUTF8 := by
  rw [Launch.invocation?, Option.map_eq_none_iff, mapM_fromUTF8?_eq_none_iff]

namespace Command

/-- A launch that amounts to an invocation is a run of the command. -/
theorem start_of_amountsTo {invocation : Invocation} (h : launch.AmountsTo invocation)
    (around : Surroundings) : start launch around = .ran (run invocation around) := by
  rw [start, invocation?_eq_some_iff.mpr h]

/-- The process breaks off exactly if one of its words is no text. -/
theorem start_eq_brokeOff_iff {around : Surroundings} :
    start launch around = .brokeOff ↔
      ∃ word ∈ launch.words, ∀ text : String, word ≠ text.toUTF8 := by
  rw [← invocation?_eq_none_iff, start]
  cases launch.invocation? <;> simp

end Command

end Reckon
