import PartialDocs.Text.Basic

/-!
# Byte offsets into a text

Syntax trees point into a text by byte offsets of its UTF-8 form.  This module cuts a
text at such an offset, takes the slice between two of them, and turns an offset into
a row and a column.  An offset inside a character cuts nothing.
-/

set_option autoImplicit false

namespace PartialDocs

/-- A place in a text: the number of line feeds before it and the bytes since the last one. -/
structure Position where
  row : Nat
  column : Nat
  deriving DecidableEq, Repr

namespace Text

/-- The number of bytes of the UTF-8 form. -/
def byteLength (s : Text) : Nat := s.foldr (fun c n => c.utf8Size + n) 0

/-- The two parts around a byte offset, where the offset is in the text and between characters. -/
def splitAt? : Text → Nat → Option (Text × Text)
  | s, 0 => some ([], s)
  | [], _ + 1 => none
  | c :: rest, n + 1 =>
    if c.utf8Size ≤ n + 1 then
      (splitAt? rest (n + 1 - c.utf8Size)).map fun (before, after) => (c :: before, after)
    else none

/-- The text before a byte offset. -/
def before? (s : Text) (offset : Nat) : Option Text := (splitAt? s offset).map Prod.fst

/-- The text between two byte offsets. -/
def slice? (s : Text) (start stop : Nat) : Option Text :=
  if start ≤ stop then (splitAt? s start).bind fun (_, rest) => before? rest (stop - start)
  else none

/-- The slice between two byte offsets, empty where they do not cut the text. -/
def slice (s : Text) (start stop : Nat) : Text := (slice? s start stop).getD []

/-- Row and column of a byte offset. -/
def position (s : Text) (offset : Nat) : Position :=
  let before := (before? s offset).getD []
  ⟨before.count '\n', byteLength (lastLine before)⟩

/-- The empty text takes no bytes. -/
@[simp] theorem byteLength_nil : byteLength [] = 0 := rfl

/-- A character takes its bytes. -/
@[simp] theorem byteLength_cons (c : Char) (s : Text) :
    byteLength (c :: s) = c.utf8Size + byteLength s := rfl

/-- Texts beside each other take the bytes of both. -/
theorem byteLength_append (s t : Text) : byteLength (s ++ t) = byteLength s + byteLength t := by
  induction s with
  | nil => simp
  | cons c s ih => rw [List.cons_append, byteLength_cons, byteLength_cons, ih, Nat.add_assoc]

/-- An offset at the end of a beginning cuts the text there. -/
theorem splitAt?_append (s t : Text) : splitAt? (s ++ t) (byteLength s) = some (s, t) := by
  induction s with
  | nil => cases t <;> rfl
  | cons c s ih =>
    obtain ⟨n, hn⟩ : ∃ n, byteLength (c :: s) = n + 1 :=
      ⟨byteLength (c :: s) - 1, by have := c.utf8Size_pos; simp only [byteLength_cons]; omega⟩
    rw [hn, List.cons_append, splitAt?]
    simp only [byteLength_cons] at hn
    rw [if_pos (by omega), show n + 1 - c.utf8Size = byteLength s by omega, ih]
    rfl

/-- A cut loses nothing and lies at its offset. -/
theorem splitAt?_eq_some {s a b : Text} {n : Nat} (h : splitAt? s n = some (a, b)) :
    s = a ++ b ∧ byteLength a = n := by
  fun_induction splitAt? s n generalizing a b with
  | case1 =>
    simp only [Option.some.injEq, Prod.mk.injEq] at h
    obtain ⟨rfl, rfl⟩ := h
    simp
  | case2 => simp at h
  | case3 c rest n hle ih =>
    obtain ⟨⟨x, y⟩, hxy, he⟩ := Option.map_eq_some_iff.1 h
    simp only [Prod.mk.injEq] at he
    obtain ⟨rfl, rfl⟩ := he
    have := ih hxy
    refine ⟨by rw [this.1]; rfl, ?_⟩
    rw [byteLength_cons, this.2]
    omega
  | case4 => simp at h

end Text

end PartialDocs
