/-!
# Reckon — text measured in bytes

Offsets into source text count the bytes of its UTF-8 form, while the text itself is a list of
characters. This module measures such a list and cuts it at an offset.

* `size_append` — sizes add up.
* `cut_size_append`, `eq_append_of_cut` — a cut at `n` exists exactly where a front part has the
  size `n`, and then it is that front part and what follows it.
-/

namespace Reckon.Text

/-- The number of bytes a text takes in UTF-8. -/
def size : List Char → Nat
  | [] => 0
  | c :: rest => c.utf8Size + size rest

/-- Cuts a text after `n` bytes. There is no cut past the end, and none inside a character. -/
def cut : Nat → List Char → Option (List Char × List Char)
  | 0, text => some ([], text)
  | _ + 1, [] => none
  | n + 1, c :: rest =>
    if c.utf8Size ≤ n + 1 then
      (cut (n + 1 - c.utf8Size) rest).map fun (front, back) => (c :: front, back)
    else none

@[simp] theorem size_nil : size [] = 0 := rfl

@[simp] theorem size_cons (c : Char) (rest : List Char) :
    size (c :: rest) = c.utf8Size + size rest := rfl

/-- The bytes of two texts one after the other are those of both. -/
@[simp] theorem size_append (front back : List Char) :
    size (front ++ back) = size front + size back := by
  induction front with
  | nil => simp
  | cons c rest ih => simp [ih, Nat.add_assoc]

/-- Nothing can always be cut off. -/
@[simp] theorem cut_zero (text : List Char) : cut 0 text = some ([], text) := by
  unfold cut; rfl

/-- A character goes to the front as a whole, or the cut is inside it. -/
theorem cut_cons {n : Nat} (h : 0 < n) (c : Char) (rest : List Char) :
    cut n (c :: rest) =
      if c.utf8Size ≤ n then
        (cut (n - c.utf8Size) rest).map fun (front, back) => (c :: front, back)
      else none := by
  obtain ⟨k, rfl⟩ : ∃ k, n = k + 1 := ⟨n - 1, by omega⟩
  rfl

/-- Every front part of a text is reached by the cut at its size. -/
theorem cut_size_append (front back : List Char) :
    cut (size front) (front ++ back) = some (front, back) := by
  induction front with
  | nil => simp
  | cons c rest ih =>
    have hc := c.utf8Size_pos
    rw [List.cons_append, cut_cons (by simp; omega)]
    simp [ih]

/-- A cut loses nothing and its front part has the size asked for. -/
theorem eq_append_of_cut {n : Nat} {text front back : List Char}
    (h : cut n text = some (front, back)) : text = front ++ back ∧ size front = n := by
  induction text generalizing n front with
  | nil =>
    cases n with
    | zero => simp_all
    | succ n => simp [cut] at h
  | cons c rest ih =>
    rcases Nat.eq_zero_or_pos n with rfl | hn
    · simp_all
    · rw [cut_cons hn] at h
      split at h
      · obtain ⟨⟨a, b⟩, hcut, heq⟩ := Option.map_eq_some_iff.mp h
        simp only [Prod.mk.injEq] at heq
        obtain ⟨rfl, rfl⟩ := heq
        obtain ⟨rfl, hsize⟩ := ih hcut
        exact ⟨rfl, by simp; omega⟩
      · simp at h

end Reckon.Text
