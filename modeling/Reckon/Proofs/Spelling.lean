import Mathlib.Tactic.SplitIfs
import Reckon.Token.Scan

/-!
# Reckon — how the tokens of a source are spelled

A token list that was put together by hand can hold any text beside any kind. The tokens of a source
cannot: a token whose kind leaves no choice is written as the kind demands, and the end token is the
last one and no other.

* `spelled_of_mem_tokenize` — every token is spelled as its kind demands.
* `exists_tokenize_eq` — the end token stands at the end, and nowhere else.
-/

namespace Reckon

/-- What all tokens of the kind are written with, where it is always the same. -/
def Kind.spelling? : Kind → Option String
  | .endOfInput => some "EOF"
  | .number | .identifier | .unrecognised => none
  | .openParen => some "("
  | .closeParen => some ")"
  | .assignment => some "="
  | .equals => some "=="
  | .plus => some "+"
  | .dash => some "-"
  | .star => some "*"
  | .starStar => some "**"
  | .slash => some "/"
  | .percent => some "%"
  | .letWord => some "let"
  | .printWord => some "print"
  | .absWord => some "abs"
  | .sqrtWord => some "sqrt"

/-- The token is written as its kind demands. -/
def Token.Spelled (token : Token) : Prop :=
  ∀ text, token.kind.spelling? = some text → token.text = text

/-- The lexeme makes no token, or one that is written as its kind demands and is no end token. -/
def Lexeme.Spelled (lexeme : Lexeme) : Prop :=
  ∀ kind, lexeme.kind = some kind → kind ≠ .endOfInput ∧
    ∀ text, kind.spelling? = some text → String.ofList lexeme.text = text

-- ---------------------------------------------------------------------------
-- One lexeme
-- ---------------------------------------------------------------------------

/-- A reserved word is the spelling of its kind. -/
theorem Kind.spelling?_of_reserved? {word : String} {kind : Kind}
    (h : Kind.reserved? word = some kind) : kind ≠ .endOfInput ∧ kind.spelling? = some word := by
  unfold Kind.reserved? at h
  split_ifs at h with hlet hprint habs hsqrt
  · obtain rfl := Option.some.inj h
    exact ⟨by decide, congrArg some hlet.symm⟩
  · obtain rfl := Option.some.inj h
    exact ⟨by decide, congrArg some hprint.symm⟩
  · obtain rfl := Option.some.inj h
    exact ⟨by decide, congrArg some habs.symm⟩
  · obtain rfl := Option.some.inj h
    exact ⟨by decide, congrArg some hsqrt.symm⟩

namespace Lexeme

/-- Layout makes no token that could be misspelled. -/
theorem layout_spelled (p : Char → Bool) (c : Char) (after : List Char) :
    (run none p c after).Spelled := by
  intro kind hkind
  exact absurd hkind (by simp [run])

/-- A word is spelled as its kind is, or it is an identifier. -/
theorem word_spelled (c : Char) (after : List Char) : (word c after).Spelled := by
  intro kind hkind
  have hvalue : (Kind.reserved? (String.ofList (word c after).text)).getD .identifier = kind := by
    simpa [word, run] using hkind
  cases hreserved : Kind.reserved? (String.ofList (word c after).text) with
  | none =>
    rw [hreserved] at hvalue
    obtain rfl : Kind.identifier = kind := hvalue
    exact ⟨by decide, by simp [Kind.spelling?]⟩
  | some reserved =>
    rw [hreserved] at hvalue
    obtain rfl : reserved = kind := hvalue
    obtain ⟨hend, hspelling⟩ := Kind.spelling?_of_reserved? hreserved
    refine ⟨hend, ?_⟩
    intro text htext
    rw [hspelling] at htext
    exact Option.some.inj htext

theorem number_spelled (c : Char) (after : List Char) : (number c after).Spelled := by
  intro kind hkind
  obtain rfl : Kind.number = kind := Option.some.inj hkind
  exact ⟨by decide, by simp [Kind.spelling?]⟩

/-- A mark is spelled as its kind is, or it is not recognised. -/
theorem symbol_spelled (c : Char) (after : List Char) : (symbol c after).Spelled := by
  intro kind hkind
  unfold symbol at hkind ⊢
  split at hkind
  all_goals
    obtain rfl := Option.some.inj hkind
    refine ⟨by decide, ?_⟩
    intro text htext
  -- what is no operator has no spelling, all others have the one they were read by
  case h_11 => exact absurd htext (by simp [Kind.spelling?])
  all_goals exact Option.some.inj htext

/-- So all that the scan finds is spelled as its kind. -/
theorem first_spelled (c : Char) (after : List Char) : (first c after).Spelled := by
  unfold first
  split_ifs
  · exact layout_spelled _ c after
  · exact layout_spelled _ c after
  · exact word_spelled c after
  · exact number_spelled c after
  · exact symbol_spelled c after

end Lexeme

-- ---------------------------------------------------------------------------
-- All tokens
-- ---------------------------------------------------------------------------

/-- The tokens of a text are spelled as their kinds demand, and the last alone is an end token. -/
theorem exists_scan_eq (file : String) (offset : Nat) (text : List Char) :
    ∃ front position, scan file offset text = front ++ [.endOfInput position] ∧
      ∀ token ∈ front, token.Spelled ∧ token.kind ≠ .endOfInput := by
  fun_induction scan file offset text with
  | case1 offset => exact ⟨[], ⟨offset, file⟩, rfl, by simp⟩
  | case2 offset c after lexeme length later hnone ih => exact ih
  | case3 offset c after lexeme length later kind hkind ih =>
    obtain ⟨front, position, hlater, hfront⟩ := ih
    obtain ⟨hend, hspelling⟩ := Lexeme.first_spelled c after kind hkind
    refine ⟨_ :: front, position, congrArg (_ :: ·) hlater, ?_⟩
    intro token hmem
    rcases List.mem_cons.mp hmem with rfl | hmem
    · exact ⟨hspelling, hend⟩
    · exact hfront token hmem

/-- The end token of a source stands at its end and nowhere else. -/
theorem exists_tokenize_eq (source file : String) :
    ∃ front position, tokenize source file = front ++ [.endOfInput position] ∧
      ∀ token ∈ front, token.kind ≠ .endOfInput := by
  obtain ⟨front, position, htokens, hfront⟩ := exists_scan_eq file 0 source.toList
  exact ⟨front, position, htokens, fun token hmem => (hfront token hmem).2⟩

/-- Every token of a source is spelled as its kind demands. -/
theorem spelled_of_mem_tokenize {source file : String} {token : Token}
    (h : token ∈ tokenize source file) : token.Spelled := by
  obtain ⟨front, position, htokens, hfront⟩ := exists_scan_eq file 0 source.toList
  rw [tokenize, htokens, List.mem_append, List.mem_singleton] at h
  rcases h with hmem | rfl
  · exact (hfront token hmem).1
  · intro text htext
    exact Option.some.inj htext

end Reckon
