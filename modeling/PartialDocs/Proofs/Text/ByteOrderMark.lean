import PartialDocs.Comment.Marker
import PartialDocs.Proofs.Text.Lines

/-!
# A byte order mark in front of a text

A byte order mark takes three bytes.  Behind it a text has the slices and the rows that it
had, and every line but the first one is the same (`lastLine_mark`).  The first line is
never blank behind the mark.
-/

set_option autoImplicit false

namespace PartialDocs.Text

/-- The byte order mark. -/
def mark : Char := '\ufeff'

/-- The mark is not blank. -/
theorem isBlankChar_mark : isBlankChar mark = false := rfl

/-- The mark is no line feed. -/
theorem mark_ne_lineFeed : mark ≠ '\n' := by decide

/-! ## Cuts behind the mark -/

/-- A cut behind the mark. -/
theorem splitAt?_mark (s : Text) (n : Nat) :
    splitAt? (mark :: s) (n + 3) = (splitAt? s n).map fun x => (mark :: x.1, x.2) := by
  have hlength : byteLength [mark] = 3 := rfl
  have hcut := splitAt?_append_add [mark] s n
  rw [hlength, Nat.add_comm 3 n] at hcut
  exact hcut

/-- What stands before a byte stands behind the mark. -/
theorem before?_mark (s : Text) (n : Nat) :
    before? (mark :: s) (n + 3) = (before? s n).map (mark :: ·) := by
  unfold before?
  rw [splitAt?_mark, Option.map_map, Option.map_map]
  rfl

/-- Slices behind the mark are those of the text. -/
theorem slice?_mark (s : Text) (start stop : Nat) :
    slice? (mark :: s) (start + 3) (stop + 3) = slice? s start stop := by
  have hlength : stop + 3 - (start + 3) = stop - start := by omega
  unfold slice?
  rw [splitAt?_mark, hlength]
  simp only [Nat.add_le_add_iff_right]
  cases splitAt? s start <;> rfl

/-- The mark makes no row. -/
theorem row_mark (s : Text) (n : Nat) :
    (position (mark :: s) (n + 3)).row = (position s n).row := by
  unfold position
  rw [before?_mark]
  cases before? s n with
  | none => rfl
  | some before =>
    simp only [Option.map_some, Option.getD_some]
    exact List.count_cons_of_ne mark_ne_lineFeed

/-! ## Lines behind the mark -/

/-- The first line is not blank behind the mark, any other one stays. -/
theorem isBlank_lastLine_mark (s : Text) :
    isBlank (lastLine (mark :: s)) = (isBlank (lastLine s) && decide (s.count '\n' ≠ 0)) := by
  by_cases h : '\n' ∈ s
  · have hcount : s.count '\n' ≠ 0 := by
      rw [← Nat.pos_iff_ne_zero]
      exact List.count_pos_iff.2 h
    rw [lastLine_cons_of_mem h, decide_eq_true hcount, Bool.and_true]
  · have hcount : ¬ s.count '\n' ≠ 0 := by
      rw [Decidable.not_not]
      exact List.count_eq_zero.2 h
    have hmark : '\n' ∉ mark :: s := by
      rw [List.mem_cons, not_or]
      exact ⟨mark_ne_lineFeed.symm, h⟩
    rw [lastLine_of_not_mem hmark, decide_eq_false hcount, Bool.and_false, isBlank, List.all_cons,
      isBlankChar_mark, Bool.false_and]

/-- The mark stands in the first line. -/
theorem lines_mark (s : Text) : lines (mark :: s) = consFirst mark (lines s) := by
  unfold lines
  rw [splitOn, if_neg mark_ne_lineFeed]

end PartialDocs.Text
