import Reckon.Proofs.Lossless
import Reckon.Token.Cursor

/-!
# Reckon — a source read by a cursor

A cursor counts bytes in a word, and forgets what runs past the greatest one. No text that is held
in memory is so long, and then a cursor that reads a source goes the same rounds as a scanner, whose
offset has no bound: it always has text before it until the source is read to its end, every round
moves it on, and what it puts down in the end are the tokens of the source.

* `Follows.round` — a round of the scanner is one of the cursor.
* `cursor_reads` — the whole of a source, read by a cursor.
-/

namespace Reckon

open Text

namespace Cursor

/-- The cursor stands on the source where the scanner does, with the same tokens put down. -/
structure Follows (cursor : Cursor) (scanner : Scanner) (source : List Char) (file : String) :
    Prop where
  source : cursor.source = source
  file   : cursor.file = file
  pos    : cursor.pos.toNat = scanner.offset
  tokens : cursor.tokens = scanner.tokens

/-- Some rounds lead from the one cursor to the other. -/
def Reaches : Cursor → Cursor → Prop :=
  Relation.ReflTransGen fun cursor next => cursor.round? = some next

variable {source : List Char} {file : String} {cursor : Cursor} {scanner next : Scanner}

theorem follows_start (source file : String) :
    (start source file).Follows .start source.toList file :=
  ⟨rfl, rfl, rfl, rfl⟩

/-- A step inside the source does not run past the greatest word. -/
theorem Follows.toNat_add (h : cursor.Follows scanner source file)
    (hsmall : size source < UInt64.size) {length : Nat}
    (hinside : scanner.offset + length ≤ size source) :
    (cursor.pos + UInt64.ofNat length).toNat = scanner.offset + length := by
  have hlength : (UInt64.ofNat length).toNat = length := UInt64.toNat_ofNat_of_lt' (by omega)
  have hadd := cursor.toNat_pos_advance (UInt64.ofNat length)
  rw [hlength, h.pos, Nat.mod_eq_of_lt (by omega)] at hadd
  exact hadd

/-- A round of the scanner is one of the cursor. -/
theorem Follows.round (h : cursor.Follows scanner source file)
    (hsound : scanner.Sound source file) (hsmall : size source < UInt64.size)
    (hstep : scanner.step? source file = some next) :
    ∃ moved, cursor.round? = some moved ∧ moved.Follows next source file := by
  -- the next place of the scanner is inside the source, so the cursor gets there without overflow
  have hinside := (hsound.step hstep).1.le
  rw [Scanner.step?] at hstep
  split at hstep
  · next front c after hcut =>
    obtain rfl := Option.some.inj hstep
    have hrest : cursor.rest? = some (c :: after) := by
      rw [rest?, h.pos, h.source, hcut]
      rfl
    have hadd := h.toNat_add hsmall hinside
    have hspan : cursor.span (UInt64.ofNat (size (Lexeme.first c after).text)) =
        .ofLength file scanner.offset (size (Lexeme.first c after).text) := by
      rw [span, hadd, h.pos, h.file]
      rfl
    rw [round?, hrest]
    refine ⟨_, rfl, ?_⟩
    cases hkind : (Lexeme.first c after).kind with
    | none => exact ⟨h.source, h.file, hadd, by simp [advance, Lexeme.tokens, hkind, h.tokens]⟩
    | some kind =>
      exact ⟨h.source, h.file, hadd, by
        simp [advance, push, Lexeme.tokens, hkind, h.tokens, hspan]⟩
  · exact absurd hstep (by simp)

/-- At the end of the source there is no round to go. -/
theorem Follows.round?_eq_none (h : cursor.Follows scanner source file)
    (hend : scanner.offset = size source) : cursor.round? = none := by
  have hcut := cut_size_append source []
  rw [List.append_nil, ← hend, ← h.pos, ← h.source] at hcut
  rw [round?, rest?, hcut]
  rfl

/-- Wherever the cursor comes, a scanner comes too. -/
theorem exists_follows {source : String} (hsmall : size source.toList < UInt64.size)
    (hreaches : Reaches (start source file) cursor) :
    ∃ scanner, Scanner.Sound source.toList file scanner ∧
      cursor.Follows scanner source.toList file := by
  induction hreaches with
  | refl => exact ⟨.start, Scanner.sound_start source.toList file, follows_start source file⟩
  | @tail cursor moved _ hround ih =>
    obtain ⟨scanner, hsound, hfollows⟩ := ih
    rcases Nat.lt_or_ge scanner.offset (size source.toList) with hlt | hge
    · obtain ⟨next, hstep⟩ := hsound.exists_step hlt
      obtain ⟨moved', hround', hfollows'⟩ := hfollows.round hsound hsmall hstep
      -- a cursor has one next round at most, and it is the one of the scanner
      obtain rfl := Option.some.inj (hround.symm.trans hround')
      exact ⟨next, (hsound.step hstep).1, hfollows'⟩
    · have hnone := hfollows.round?_eq_none (Nat.le_antisymm hsound.le hge)
      rw [hround] at hnone
      exact absurd hnone (by simp)

/-- Where a scanner leads, a cursor leads too. -/
theorem Follows.exists_reaches (h : cursor.Follows scanner source file)
    (hsound : scanner.Sound source file) (hsmall : size source < UInt64.size)
    (hreaches : Scanner.Reaches source file scanner next) :
    ∃ moved, Reaches cursor moved ∧ moved.Follows next source file := by
  induction hreaches with
  | refl => exact ⟨cursor, .refl, h⟩
  | @tail between next hfirst hstep ih =>
    obtain ⟨moved, hmoved, hfollows⟩ := ih
    obtain ⟨moved', hround, hfollows'⟩ :=
      hfollows.round (hsound.of_reaches hfirst) hsmall hstep
    exact ⟨moved', hmoved.tail hround, hfollows'⟩

/--
A source that is not longer than a word can count is read by a cursor, round by round, to its end,
and what was put down are its tokens. On the way there always is a text at the cursor, and before
the end always a round, which moves the cursor on.
-/
theorem cursor_reads (source file : String) (hsmall : size source.toList < UInt64.size) :
    (∃ final, Reaches (start source file) final ∧ final.atEnd = true ∧
      final.tokens ++ [.endOfInput ⟨final.pos.toNat, file⟩] = tokenize source file) ∧
    ∀ cursor, Reaches (start source file) cursor →
      (∃ rest, cursor.rest? = some rest) ∧
      (cursor.atEnd = false → ∃ next, cursor.round? = some next ∧ cursor.pos < next.pos) := by
  constructor
  · have hstart := Scanner.sound_start source.toList file
    obtain ⟨last, hreaches, hend⟩ := hstart.exists_reaches_end
    -- the rounds of the scanner to its end, gone by the cursor
    obtain ⟨final, hfinal, hfollows⟩ :=
      (follows_start source file).exists_reaches hstart hsmall hreaches
    refine ⟨final, hfinal, ?_, ?_⟩
    · rw [atEnd, hfollows.source, hfollows.pos, hend]
      exact decide_eq_true (Nat.le_refl _)
    · rw [hfollows.tokens, hfollows.pos]
      exact (hstart.of_reaches hreaches).finish hend
  · intro cursor hreaches
    obtain ⟨scanner, hsound, hfollows⟩ := exists_follows hsmall hreaches
    constructor
    · obtain ⟨front, rest, hsource, hsize, -⟩ := hsound
      exact ⟨rest, rest?_eq_some_iff.mpr
        ⟨front, hfollows.source.trans hsource, hsize.trans hfollows.pos.symm⟩⟩
    · intro hbefore
      rw [atEnd, hfollows.source, hfollows.pos, decide_eq_false_iff_not, Nat.not_le] at hbefore
      obtain ⟨next, hstep⟩ := hsound.exists_step hbefore
      obtain ⟨moved, hround, hmoved⟩ := hfollows.round hsound hsmall hstep
      refine ⟨moved, hround, ?_⟩
      rw [UInt64.lt_iff_toNat_lt, hfollows.pos, hmoved.pos]
      exact (hsound.step hstep).2

end Cursor

end Reckon
