import Reckon.Proofs.Reading

/-!
# Reckon — what the words decide

How a source comes out is decided by the words of its tokens, where the places of these do not
count. A program is what the words print. A list that halts does so in a stage that the kinds lead
to, so a list of the same words halts at its token with the same index, and there in the same stage.

* `exists_covers_iff_printing` — the derivations of a list, and the programs that its words print.
* `Halt.of_words` — halting among other tokens with the same words.
* `parse_outcome_eq_ok_iff_printing`, `parse_outcome_eq_error_iff_halt` — how a source comes out, in
  terms of its words and of its tokens.
-/

namespace Reckon

-- ---------------------------------------------------------------------------
-- Lists with the same words
-- ---------------------------------------------------------------------------

section

variable {tokens tokens' : List Token} {token token' : Token}

theorem describe_eq_of_word (h : token.word = token'.word) : token.describe = token'.describe := by
  obtain ⟨hkind, htext⟩ := Word.mk.inj h
  rw [Token.describe, Token.describe, hkind, htext]

theorem map_kind_eq_of_words (h : tokens.map Token.word = tokens'.map Token.word) :
    tokens.map Token.kind = tokens'.map Token.kind := by
  have hkinds := congrArg (List.map Word.kind) h
  rw [List.map_map, List.map_map] at hkinds
  exact hkinds

/-- The words before the first end token are told by the words. -/
theorem map_word_beforeEnd (tokens : List Token) :
    (beforeEnd tokens).map Token.word =
      (tokens.map Token.word).takeWhile fun word => word.kind ≠ .endOfInput := by
  rw [List.takeWhile_map]
  rfl

/-- The programs that the words of a list print are those that derivations of the list are read
as. -/
theorem exists_covers_iff_printing (hspelled : ∀ token ∈ tokens, token.Spelled)
    {program : Program} :
    (∃ derivation : Derivation, derivation.Covers tokens ∧ derivation.program = .ok program) ↔
      program.Printing ((beforeEnd tokens).map Token.word) := by
  constructor
  · intro hexists
    obtain ⟨derivation, hcovers, hprogram⟩ := hexists
    rw [← hcovers.yield]
    refine Derivation.printing_of_program hcovers.nonempty hcovers.wellKinded hcovers.plainBases ?_
      hprogram
    intro token hmem
    rw [hcovers.yield] at hmem
    exact hspelled token (List.takeWhile_subset _ hmem)
  · intro hprinting
    obtain ⟨hne, parts, hparts, hwords⟩ := hprinting
    -- the derivation is made of one for each part of the words
    obtain ⟨clauses, hyield, hgood, hstatements⟩ := exists_clauses hparts hwords
    refine ⟨⟨clauses⟩, ⟨?_, hyield, fun clause hmem => (hgood clause hmem).1,
      fun clause hmem => (hgood clause hmem).2⟩, Derivation.program_eq_ok_iff.mpr hstatements⟩
    rintro rfl
    exact hne (List.forall₂_nil_left_iff.mp hstatements)

/-- Among other tokens with the same words, a list halts after as many tokens and in the same
stage. -/
theorem Halt.of_words {taken : List Token} {stage : Stage} {found : Token}
    (h : Halt tokens taken stage found) (hwords : tokens.map Token.word = tokens'.map Token.word) :
    ∃ taken' found', Halt tokens' taken' stage found' ∧ taken'.length = taken.length ∧
      found'.word = found.word := by
  obtain ⟨later, rfl⟩ := h.split
  rw [List.map_append, List.map_cons] at hwords
  -- the other list is cut where this one halts
  obtain ⟨taken', rest, rfl, htaken, hrest⟩ := List.map_eq_append_iff.mp hwords.symm
  obtain ⟨found', later', rfl, hfound, -⟩ := List.map_eq_cons_iff.mp hrest
  have hlength := congrArg List.length htaken
  rw [List.length_map, List.length_map] at hlength
  refine ⟨taken', found', ⟨⟨later', rfl⟩, ?_, h.going, ?_⟩, hlength, hfound⟩
  · rw [map_kind_eq_of_words htaken]
    exact h.run
  · rw [show found'.kind = found.kind from congrArg Word.kind hfound]
    exact h.dead

end

-- ---------------------------------------------------------------------------
-- How a source comes out
-- ---------------------------------------------------------------------------

variable {source file : String}

/-- A source is parsed as what a derivation that covers its tokens is read as. -/
theorem parse_outcome_eq_ok_iff_covers {program : Program} :
    (parse source file).outcome = .ok program ↔
      ∃ derivation : Derivation, derivation.Covers (tokenize source file) ∧
        derivation.program = .ok program := by
  rw [parse_outcome_eq_ok_iff]
  constructor
  · intro hexists
    obtain ⟨derivation, hmatch, hprogram⟩ := hexists
    exact ⟨derivation, covers_of_matchTokens hmatch, hprogram⟩
  · intro hexists
    obtain ⟨derivation, hcovers, hprogram⟩ := hexists
    exact ⟨derivation, hcovers.matchTokens file, hprogram⟩

/-- A source is parsed as the programs that its words print. -/
theorem parse_outcome_eq_ok_iff_printing {program : Program} :
    (parse source file).outcome = .ok program ↔
      program.Printing ((beforeEnd (tokenize source file)).map Token.word) :=
  parse_outcome_eq_ok_iff_covers.trans
    (exists_covers_iff_printing fun _ hmem => spelled_of_mem_tokenize hmem)

/-- A source is not parsed if its tokens halt, and then with the fault that this makes. -/
theorem parse_outcome_eq_error_iff_halt {stop : Stop} :
    (parse source file).outcome = .error stop ↔
      ∃ taken stage found, Halt (tokenize source file) taken stage found ∧
        stop = .fault (stage.fault found) :=
  parse_outcome_eq_error_iff.trans matchTokens_tokenize_eq_error_iff

end Reckon
