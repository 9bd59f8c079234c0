import Reckon.Proofs.Wording

/-!
# Reckon — layout means nothing

A source can be written anew with other gaps between its tokens, and under another name. It is then
read as the same words: each text is read as the same token wherever layout separates it from the
next one. And the words alone decide what comes out, up to the places that a fault tells.

* `Respaced.scan_words` — the words of a text that consists of tokens and gaps.
* `same_meaning_of_respaced` — what two such sources have in common.
-/

namespace Reckon

open Text

/-- The text consists of the given texts, in this order, and of gaps around them. Right behind each
of the texts it is layout that begins the gap, or nothing follows. -/
inductive Respaced : List String → List Char → Prop
  | last {gap : List Char} (hgap : Gap gap []) : Respaced [] gap
  | next {own : String} {texts : List String} {gap rest : List Char}
      (hgap : Gap gap (own.toList ++ rest)) (hrest : Apart rest) (h : Respaced texts rest) :
      Respaced (own :: texts) (gap ++ own.toList ++ rest)

/-- Where the texts are those of tokens, the text is read as these tokens. -/
theorem Respaced.scan_words {words : List Word} {text : List Char}
    (h : Respaced (words.map Word.text) text)
    (hsingle : ∀ word ∈ words, SingleToken word.kind word.text.toList) (file : String)
    (offset : Nat) :
    (scan file offset text).map Token.word = words ++ [⟨.endOfInput, "EOF"⟩] := by
  induction words generalizing text offset with
  | nil =>
    cases h with
    | last hgap =>
      have hscan := hgap.scan file offset
      rw [List.append_nil] at hscan
      rw [hscan, scan_nil]
      rfl
  | cons word words ih =>
    rw [List.forall_mem_cons] at hsingle
    cases h with
    | next hgap hrest h =>
      -- the gap is passed, the word is read up to what is apart from it, and the rest by induction
      rw [List.append_assoc, hgap.scan, hsingle.1.scan hrest, List.map_cons, ih h hsingle.2,
        String.ofList_toList]
      rfl

-- ---------------------------------------------------------------------------
-- The words of a source
-- ---------------------------------------------------------------------------

theorem map_word_tokenize (source file : String) :
    (tokenize source file).map Token.word =
      sourceWords source file ++ [⟨.endOfInput, "EOF"⟩] := by
  obtain ⟨front, position, htokens, hfront⟩ := exists_tokenize_eq source file
  rw [sourceWords_eq, htokens, beforeEnd_concat hfront, List.map_append]
  rfl

/-- The text of each word is read as this word. -/
theorem singleToken_of_mem_sourceWords {source file : String} {word : Word}
    (h : word ∈ sourceWords source file) : SingleToken word.kind word.text.toList := by
  rw [sourceWords, List.mem_map] at h
  obtain ⟨token, hmem, rfl⟩ := h
  obtain ⟨hmem, hkind⟩ := List.mem_filter.mp hmem
  obtain ⟨own, hown, htext⟩ := singleToken_of_mem_scan hmem (of_decide_eq_true hkind)
  rw [Token.word, htext, String.toList_ofList]
  exact hown

-- ---------------------------------------------------------------------------
-- What two sources have in common
-- ---------------------------------------------------------------------------

/-- Two named sources mean the same: both came out as the same program, or with a fault. The faults
are then about tokens with the same index, each where this token begins in its own source; they
expect the same, and what they found reads the same. -/
inductive SameMeaning (source file source' file' : String) :
    Except Stop Program → Except Stop Program → Prop
  | program (program : Program) : SameMeaning source file source' file' (.ok program) (.ok program)
  | fault {i : Nat} {token token' : Token} (expected : List String) (found : String)
      (htoken : (tokenize source file)[i]? = some token)
      (htoken' : (tokenize source' file')[i]? = some token') :
      SameMeaning source file source' file'
        (.error (.fault ⟨.unexpected expected found, ⟨token.span.start.offset, file⟩⟩))
        (.error (.fault ⟨.unexpected expected found, ⟨token'.span.start.offset, file'⟩⟩))

variable {source file source' file' : String}

/-- Sources with the same words mean the same. -/
theorem sameMeaning_of_words
    (h : (tokenize source file).map Token.word = (tokenize source' file').map Token.word) :
    SameMeaning source file source' file' (parse source file).outcome
      (parse source' file').outcome := by
  cases hparse : (parse source file).outcome with
  | ok program =>
    have hprinting := parse_outcome_eq_ok_iff_printing.mp hparse
    rw [map_word_beforeEnd, h, ← map_word_beforeEnd] at hprinting
    rw [parse_outcome_eq_ok_iff_printing.mpr hprinting]
    exact .program program
  | error stop =>
    -- the other list halts behind as many tokens, at one that reads the same
    obtain ⟨taken, stage, found, hhalt, rfl⟩ := parse_outcome_eq_error_iff_halt.mp hparse
    obtain ⟨taken', found', hhalt', hlength, hword⟩ := hhalt.of_words h
    rw [parse_outcome_eq_error_iff_halt.mpr ⟨taken', stage, found', hhalt', rfl⟩, hhalt.fault_eq,
      hhalt'.fault_eq, describe_eq_of_word hword]
    have hfound' := hhalt'.getElem?
    rw [hlength] at hfound'
    exact .fault _ _ hhalt.getElem? hfound'

/--
**Layout and names mean nothing.** A source that is written anew, with other gaps around the texts
of its tokens and under any name, has the same words, and it means the same.
-/
theorem same_meaning_of_respaced
    (h : Respaced ((sourceWords source file).map Word.text) source'.toList) (file' : String) :
    (tokenize source' file').map Token.word = (tokenize source file).map Token.word ∧
    SameMeaning source file source' file' (parse source file).outcome
      (parse source' file').outcome := by
  have hwords :
      (tokenize source' file').map Token.word = (tokenize source file).map Token.word := by
    rw [map_word_tokenize source file]
    exact h.scan_words (fun _ hmem => singleToken_of_mem_sourceWords hmem) file' 0
  exact ⟨hwords, sameMeaning_of_words hwords.symm⟩

/-- The source `print a`, with a tab before it and a comment behind it. -/
theorem same_meaning_of_tab_and_comment :
    Respaced ((sourceWords "print a" "a").map Word.text) "\tprint a //!".toList ∧
    (tokenize "\tprint a //!" "b").map Token.word = (tokenize "print a" "a").map Token.word ∧
    SameMeaning "print a" "a" "\tprint a //!" "b" (parse "print a" "a").outcome
      (parse "\tprint a //!" "b").outcome := by
  have hwords : (sourceWords "print a" "a").map Word.text = ["print", "a"] := by decide +kernel
  have hcomment : Gap ('/' :: '/' :: ['!'] ++ []) [] := .comment (by decide) (by simp) (.nil [])
  have hlast : Respaced [] [' ', '/', '/', '!'] := .last (.layout rfl hcomment)
  have hname : Respaced ["a"] ([' '] ++ "a".toList ++ [' ', '/', '/', '!']) :=
    .next (.layout rfl (.nil _)) (by simp [Apart, isLayout]) hlast
  have hall : Respaced ["print", "a"] (['\t'] ++ "print".toList ++ _) :=
    .next (.layout rfl (.nil _)) (by simp [Apart, isLayout]) hname
  have h : Respaced ((sourceWords "print a" "a").map Word.text) "\tprint a //!".toList := by
    rw [hwords]
    exact hall
  exact ⟨h, same_meaning_of_respaced h "b"⟩

end Reckon
