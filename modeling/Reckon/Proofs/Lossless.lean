import Mathlib.Logic.Relation
import Reckon.Proofs.Lexing
import Reckon.Proofs.Spelling

/-!
# Reckon — nothing of a source is lost

The tokens of a source and what lies between them are the source, character by character. What lies
between them is a *gap*: layout and comments, and nothing that could have been a token. The spans
say where each token lies, so a report can cut the source at them.

Reading also never gets stuck. Told as a loop that only keeps an offset into the source and the
tokens put down, it looks at the source where the offset says, each time anew. There is always
something to look at, because a round leaves the offset between two characters, and behind the one
where it stood.

* `spread_scan` — tokens and gaps, as an induction over both.
* `Scanner.Sound.step`, `Scanner.Sound.of_reaches` — what a round preserves, and what all of them
  do.
* `tokenize_lossless` — all of this about the tokens of a source.
-/

namespace Reckon

open Text

-- ---------------------------------------------------------------------------
-- Gaps
-- ---------------------------------------------------------------------------

/-- The text `gap` with `rest` behind it makes no token: it consists of layout and of comments, each
of which ends right before a newline or with the whole text. -/
inductive Gap : List Char → List Char → Prop
  | nil (rest : List Char) : Gap [] rest
  | layout {c : Char} {gap rest : List Char} (hc : isLayout c = true) (h : Gap gap rest) :
      Gap (c :: gap) rest
  | comment {body gap rest : List Char} (hbody : '\n' ∉ body)
      (hend : ∀ c ∈ (gap ++ rest).head?, c = '\n') (h : Gap gap rest) :
      Gap ('/' :: '/' :: body ++ gap) rest

/-- A gap is passed without a trace. -/
theorem Gap.scan {gap rest : List Char} (h : Gap gap rest) (file : String) (offset : Nat) :
    scan file offset (gap ++ rest) = Reckon.scan file (offset + size gap) rest := by
  induction h generalizing offset with
  | nil rest => rfl
  | layout hc h ih => rw [List.cons_append, scan_layout hc, ih, size_cons, Nat.add_assoc]
  | comment hbody hend h ih =>
    rw [List.append_assoc, scan_comment hbody hend, ih, size_append, Nat.add_assoc]

-- ---------------------------------------------------------------------------
-- Tokens and the gaps between them
-- ---------------------------------------------------------------------------

/-- The tokens lie in the text, which begins at the offset: a gap before each of them, and its own
characters where its span is. The last one is the end token, right behind the text. -/
inductive Spread (file : String) : Nat → List Char → List Token → Prop
  | ending {offset : Nat} {gap : List Char} (hgap : Gap gap []) :
      Spread file offset gap [.endOfInput ⟨offset + size gap, file⟩]
  | token {offset : Nat} {gap own rest : List Char} {kind : Kind} {tokens : List Token}
      (hgap : Gap gap (own ++ rest)) (hown : own ≠ []) (hkind : kind ≠ .endOfInput)
      (hrest : Spread file (offset + size gap + size own) rest tokens) :
      Spread file offset (gap ++ own ++ rest)
        (⟨kind, String.ofList own, .ofLength file (offset + size gap) (size own)⟩ :: tokens)

namespace Spread

variable {file : String} {offset : Nat} {text : List Char} {tokens : List Token}

/-- Layout in front belongs to the first gap. -/
theorem layout {c : Char} (hc : isLayout c = true)
    (h : Spread file (offset + c.utf8Size) text tokens) :
    Spread file offset (c :: text) tokens := by
  cases h with
  | ending hgap =>
    rw [Nat.add_assoc, ← size_cons]
    exact ending (.layout hc hgap)
  | token hgap hown hkind hrest =>
    rw [Nat.add_assoc offset, ← size_cons] at hrest ⊢
    exact token (.layout hc hgap) hown hkind hrest

/-- So does a comment in front. -/
theorem comment {body : List Char} (hbody : '\n' ∉ body) (hend : ∀ c ∈ text.head?, c = '\n')
    (h : Spread file (offset + size ('/' :: '/' :: body)) text tokens) :
    Spread file offset ('/' :: '/' :: body ++ text) tokens := by
  cases h with
  | ending hgap =>
    rw [Nat.add_assoc, ← size_append]
    exact ending (.comment hbody (by rwa [List.append_nil]) hgap)
  | token hgap hown hkind hrest =>
    rw [Nat.add_assoc offset, ← size_append] at hrest ⊢
    rw [← List.append_assoc, ← List.append_assoc]
    exact token (.comment hbody (by rwa [← List.append_assoc]) hgap) hown hkind hrest

end Spread

/-- The tokens of a text lie in the text. -/
theorem spread_scan (file : String) (offset : Nat) (text : List Char) :
    Spread file offset text (scan file offset text) := by
  induction text using reading_induction generalizing offset with
  | nil =>
    rw [scan_nil]
    exact .ending (.nil [])
  | layout c after hc ih =>
    rw [scan_layout hc]
    exact (ih _).layout hc
  | comment body rest hbody hend ih =>
    rw [scan_comment hbody hend]
    exact (ih _).comment hbody hend
  | token c after kind hkind ih =>
    rw [scan_token hkind]
    have hend := (Lexeme.first_spelled c after kind hkind).1
    have htoken := Spread.token (.nil _) (Lexeme.first_text_ne_nil c after) hend
      (ih (offset + size (Lexeme.first c after).text))
    rw [List.nil_append, Lexeme.first_text_append_rest] at htoken
    exact htoken

-- ---------------------------------------------------------------------------
-- What the spans say
-- ---------------------------------------------------------------------------

/-- The characters of the text in the span, if it begins and ends between two characters. -/
def Span.slice? (span : Span) (text : List Char) : Option (List Char) := do
  let (_, rest) ← cut span.start.offset text
  let (own, _) ← cut (span.stop.offset - span.start.offset) rest
  return own

theorem slice?_ofLength (file : String) (front own behind : List Char) :
    (Span.ofLength file (size front) (size own)).slice? (front ++ own ++ behind) = some own := by
  simp only [Span.slice?, Span.ofLength, List.append_assoc, cut_size_append,
    Nat.add_sub_cancel_left, Option.bind_eq_bind, Option.bind_some]
  rfl

theorem size_pos {text : List Char} (h : text ≠ []) : 0 < size text := by
  cases text with
  | nil => exact absurd rfl h
  | cons c text => exact Nat.lt_of_lt_of_le c.utf8Size_pos (Nat.le_add_right _ _)

namespace Spread

variable {file : String} {offset : Nat} {text : List Char} {tokens : List Token}

/-- The last token is the end token, right behind the text, and no other one is. -/
theorem exists_eq (h : Spread file offset text tokens) :
    ∃ front, tokens = front ++ [.endOfInput ⟨offset + size text, file⟩] ∧
      ∀ token ∈ front, token.kind ≠ .endOfInput := by
  induction h with
  | ending hgap => exact ⟨[], rfl, by simp⟩
  | token hgap hown hkind hrest ih =>
    obtain ⟨front, rfl, hfront⟩ := ih
    simp only [size_append, ← Nat.add_assoc]
    exact ⟨_ :: front, rfl, List.forall_mem_cons.mpr ⟨hkind, hfront⟩⟩

/-- Every token but the end token is a part of the text that is not empty. -/
theorem exists_own (h : Spread file offset text tokens) {token : Token} (hmem : token ∈ tokens)
    (hkind : token.kind ≠ .endOfInput) :
    ∃ front own behind, text = front ++ own ++ behind ∧ own ≠ [] ∧
      token.text = String.ofList own ∧
      token.span = .ofLength file (offset + size front) (size own) := by
  induction h with
  | ending hgap =>
    obtain rfl := List.mem_singleton.mp hmem
    exact absurd rfl hkind
  | @token offset gap own rest kind tokens hgap hown hend hrest ih =>
    rcases List.mem_cons.mp hmem with rfl | hlater
    · exact ⟨gap, own, rest, rfl, hown, rfl, rfl⟩
    · obtain ⟨front, own', behind, rfl, hown', htext, hspan⟩ := ih hlater
      refine ⟨gap ++ own ++ front, own', behind, by simp only [List.append_assoc], hown', htext, ?_⟩
      rw [hspan]
      simp only [size_append, Nat.add_assoc]

/-- All tokens lie in the named source, and from the offset on. -/
theorem bounds (h : Spread file offset text tokens) :
    ∀ token ∈ tokens, offset ≤ token.span.start.offset ∧
      token.span.start.file = file ∧ token.span.stop.file = file := by
  induction h with
  | ending hgap =>
    rw [List.forall_mem_singleton]
    exact ⟨Nat.le_add_right _ _, rfl, rfl⟩
  | token hgap hown hkind hrest ih =>
    rw [List.forall_mem_cons]
    refine ⟨⟨Nat.le_add_right _ _, rfl, rfl⟩, ?_⟩
    intro token hmem
    obtain ⟨hle, hfiles⟩ := ih token hmem
    exact ⟨Nat.le_trans (by omega) hle, hfiles⟩

/-- Each token begins behind where those before it begin, and not before these end. -/
theorem pairwise (h : Spread file offset text tokens) :
    tokens.Pairwise fun a b => a.span.start.offset < b.span.start.offset ∧
      a.span.stop.offset ≤ b.span.start.offset := by
  induction h with
  | ending hgap => exact List.pairwise_singleton _ _
  | @token offset gap own rest kind tokens hgap hown hkind hrest ih =>
    rw [List.pairwise_cons]
    refine ⟨?_, ih⟩
    intro later hlater
    have hpos := size_pos hown
    have hle := (hrest.bounds later hlater).1
    exact ⟨by show offset + size gap < _; omega, hle⟩

end Spread

-- ---------------------------------------------------------------------------
-- Reading as a loop
-- ---------------------------------------------------------------------------

/-- The token that the lexeme makes at the offset, if it makes one. -/
def Lexeme.tokens (lexeme : Lexeme) (file : String) (offset : Nat) : List Token :=
  match lexeme.kind with
  | none => []
  | some kind => [⟨kind, String.ofList lexeme.text, .ofLength file offset (size lexeme.text)⟩]

/-- How far a source was read: an offset into it, and the tokens put down. -/
structure Scanner where
  offset : Nat
  tokens : List Token

namespace Scanner

variable {source : List Char} {file : String} {scanner next : Scanner}

/-- The scanner at the start of a source. -/
def start : Scanner := ⟨0, []⟩

/-- One round: the lexeme at the offset is read. There is no such round where the offset lies inside
a character, or with nothing behind it. -/
def step? (source : List Char) (file : String) (scanner : Scanner) : Option Scanner :=
  match cut scanner.offset source with
  | some (_, c :: after) =>
    let lexeme := Lexeme.first c after
    some ⟨scanner.offset + size lexeme.text, scanner.tokens ++ lexeme.tokens file scanner.offset⟩
  | _ => none

/-- Some rounds lead from the one scanner to the other. -/
def Reaches (source : List Char) (file : String) : Scanner → Scanner → Prop :=
  Relation.ReflTransGen fun scanner next => scanner.step? source file = some next

/-- The scanner stands between two characters, and what it put down is what the source is read as,
up to there. -/
def Sound (source : List Char) (file : String) (scanner : Scanner) : Prop :=
  ∃ front rest, source = front ++ rest ∧ size front = scanner.offset ∧
    scanner.tokens ++ scan file scanner.offset rest = scan file 0 source

theorem sound_start (source : List Char) (file : String) : start.Sound source file :=
  ⟨[], source, rfl, rfl, rfl⟩

/-- Before the end there is a round. -/
theorem Sound.exists_step (h : scanner.Sound source file) (hlt : scanner.offset < size source) :
    ∃ next, scanner.step? source file = some next := by
  obtain ⟨front, rest, rfl, hsize, -⟩ := h
  cases rest with
  | nil =>
    rw [List.append_nil, hsize] at hlt
    exact absurd hlt (Nat.lt_irrefl _)
  | cons c after =>
    -- the offset lies between the two parts, so the cut finds them
    have hcut := cut_size_append front (c :: after)
    rw [hsize] at hcut
    exact ⟨_, by rw [step?, hcut]⟩

/-- A round leads on, and the next scanner stands no worse. -/
theorem Sound.step (h : scanner.Sound source file) (hstep : scanner.step? source file = some next) :
    next.Sound source file ∧ scanner.offset < next.offset := by
  obtain ⟨front, rest, rfl, hsize, hread⟩ := h
  have hcut := cut_size_append front rest
  rw [hsize] at hcut
  rw [step?, hcut] at hstep
  cases rest with
  | nil => exact absurd hstep (by simp)
  | cons c after =>
    obtain rfl := Option.some.inj hstep
    have hpos := size_pos (Lexeme.first_text_ne_nil c after)
    refine ⟨⟨front ++ (Lexeme.first c after).text, (Lexeme.first c after).rest, ?_, ?_, ?_⟩,
      Nat.lt_add_of_pos_right hpos⟩
    · rw [List.append_assoc, Lexeme.first_text_append_rest]
    · rw [size_append, hsize]
    · -- the token that was put down is the next one of the rest
      rw [← hread, List.append_assoc]
      congr 1
      cases hkind : (Lexeme.first c after).kind with
      | none => rw [scan_of_kind_none hkind, Lexeme.tokens, hkind, List.nil_append]
      | some kind => rw [scan_token hkind, Lexeme.tokens, hkind, List.singleton_append]

theorem Sound.le (h : scanner.Sound source file) : scanner.offset ≤ size source := by
  obtain ⟨front, rest, rfl, hsize, -⟩ := h
  rw [← hsize, size_append]
  exact Nat.le_add_right _ _

/-- At the end all tokens but the end token are put down. -/
theorem Sound.finish (h : scanner.Sound source file) (hend : scanner.offset = size source) :
    scanner.tokens ++ [.endOfInput ⟨scanner.offset, file⟩] = scan file 0 source := by
  obtain ⟨front, rest, rfl, hsize, hread⟩ := h
  have hrest : rest = [] := by
    -- a rest would take a byte at least
    by_contra hne
    have hpos := size_pos hne
    rw [size_append, hsize] at hend
    omega
  rw [hrest, scan_nil] at hread
  rw [hread, hrest]

/-- What every round preserves, all rounds do. -/
theorem Sound.of_reaches (h : scanner.Sound source file)
    (hreaches : Reaches source file scanner next) : next.Sound source file := by
  induction hreaches with
  | refl => exact h
  | tail _ hstep ih => exact (ih.step hstep).1

/-- The rounds come to the end. -/
theorem Sound.exists_reaches_end (h : scanner.Sound source file) :
    ∃ final, Reaches source file scanner final ∧ final.offset = size source := by
  induction hleft : size source - scanner.offset using Nat.strong_induction_on
    generalizing scanner with
  | _ left ih =>
    -- by induction on what is left, as every round leads on
    rcases Nat.lt_or_ge scanner.offset (size source) with hlt | hge
    · obtain ⟨next, hstep⟩ := h.exists_step hlt
      obtain ⟨hnext, hon⟩ := h.step hstep
      obtain ⟨final, hreaches, hfinal⟩ := ih (size source - next.offset) (by omega) hnext rfl
      exact ⟨final, .head hstep hreaches, hfinal⟩
    · exact ⟨scanner, .refl, Nat.le_antisymm h.le hge⟩

end Scanner

-- ---------------------------------------------------------------------------
-- The tokens of a source
-- ---------------------------------------------------------------------------

/-- Nothing of the source is lost in the tokens: they lie in it, with gaps between them. -/
structure Lossless (source file : String) (tokens : List Token) : Prop where
  spread  : Spread file 0 source.toList tokens
  ended   : ∃ front, tokens = front ++ [.endOfInput ⟨size source.toList, file⟩] ∧
              ∀ token ∈ front, token.kind ≠ .endOfInput
  written : ∀ token ∈ tokens, token.kind ≠ .endOfInput →
              token.span.start.offset < token.span.stop.offset ∧
                token.span.slice? source.toList = some token.text.toList
  ordered : tokens.Pairwise fun a b => a.span.start.offset < b.span.start.offset ∧
              a.span.stop.offset ≤ b.span.start.offset
  named   : ∀ token ∈ tokens, token.span.start.file = file ∧ token.span.stop.file = file

/-- The scanner is safe: it stands between two characters of the source. Before the end there is a
next round, and it leads on. At the end all tokens of the source are put down. -/
structure Scanner.Safe (scanner : Scanner) (source file : String) : Prop where
  between : ∃ front rest, source.toList = front ++ rest ∧ size front = scanner.offset
  moving  : scanner.offset < size source.toList →
              ∃ next, scanner.step? source.toList file = some next ∧ scanner.offset < next.offset
  ending  : scanner.offset = size source.toList →
              scanner.tokens ++ [.endOfInput ⟨scanner.offset, file⟩] = tokenize source file

theorem lossless_tokenize (source file : String) :
    Lossless source file (tokenize source file) := by
  have hspread := spread_scan file 0 source.toList
  refine ⟨hspread, ?_, ?_, hspread.pairwise, fun token hmem => (hspread.bounds token hmem).2⟩
  · have hended := hspread.exists_eq
    rw [Nat.zero_add] at hended
    exact hended
  · intro token hmem hkind
    obtain ⟨front, own, behind, hsource, hown, htext, hspan⟩ := hspread.exists_own hmem hkind
    rw [Nat.zero_add] at hspan
    rw [hspan, htext, hsource, String.toList_ofList]
    exact ⟨Nat.lt_add_of_pos_right (size_pos hown), slice?_ofLength file front own behind⟩

theorem Scanner.Sound.safe {scanner : Scanner} {source file : String}
    (h : scanner.Sound source.toList file) : scanner.Safe source file where
  between := by
    obtain ⟨front, rest, hsource, hsize, -⟩ := h
    exact ⟨front, rest, hsource, hsize⟩
  moving := by
    intro hlt
    obtain ⟨next, hstep⟩ := h.exists_step hlt
    exact ⟨next, hstep, (h.step hstep).2⟩
  ending := h.finish

/--
**Nothing is lost.** Of every source all characters are in its tokens or in gaps between them, at
the places that the spans say; a source without a name is called `shell`. Read in rounds, the source
is read to its end, and safely all the way.
-/
theorem tokenize_lossless (source : String) (name : Option String) :
    Lossless source (name.getD "shell") (tokenize source (name.getD defaultName)) ∧
    (∃ final, Scanner.Reaches source.toList (name.getD defaultName) .start final ∧
      final.offset = size source.toList) ∧
    ∀ scanner, Scanner.Reaches source.toList (name.getD defaultName) .start scanner →
      scanner.Safe source (name.getD defaultName) := by
  have hstart := Scanner.sound_start source.toList (name.getD defaultName)
  exact ⟨lossless_tokenize source _, hstart.exists_reaches_end,
    fun scanner hreaches => (hstart.of_reaches hreaches).safe⟩

end Reckon
