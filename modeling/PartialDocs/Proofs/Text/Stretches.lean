import PartialDocs.Proofs.Text.Lines

/-!
# Stretches that texts share

Two texts may share a stretch at the same bytes, whatever stands around it.  Then they have the same
slices there (`slice?_of_shared`), and places within the stretch have the same rows and columns as
soon as its first byte has (`position_of_shared`).
-/

set_option autoImplicit false

namespace PartialDocs.Text

variable {a a' s b b' : Text} {n start stop first last : Nat}

/-! ## Cuts within a beginning -/

/-- What stands behind a beginning does not matter to a cut within it. -/
theorem splitAt?_append_of_le (b : Text) (h : n ≤ byteLength s) :
    splitAt? (s ++ b) n = (splitAt? s n).map fun y => (y.1, y.2 ++ b) := by
  fun_induction splitAt? s n with
  | case1 s => cases s <;> cases b <;> rfl
  | case2 n => exact absurd h (Nat.not_succ_le_zero n)
  | case3 c rest n hle ih =>
    rw [byteLength_cons] at h
    rw [List.cons_append, splitAt?, if_pos hle, ih (by omega), Option.map_map, Option.map_map]
    rfl
  | case4 c rest n hle => rw [List.cons_append, splitAt?, if_neg hle, Option.map_none]

/-- What stands before a byte of a beginning stands before it in the whole text. -/
theorem before?_append_of_le (b : Text) (h : n ≤ byteLength s) :
    before? (s ++ b) n = before? s n := by
  unfold before?
  rw [splitAt?_append_of_le b h, Option.map_map]
  rfl

/-- A slice of a beginning is a slice of the whole text. -/
theorem slice?_append_of_le (b : Text) (h : stop ≤ byteLength s) :
    slice? (s ++ b) start stop = slice? s start stop := by
  unfold slice?
  split
  · rename_i hle
    rw [splitAt?_append_of_le b (hle.trans h)]
    cases hcut : splitAt? s start with
    | none => rfl
    | some y =>
      obtain ⟨rfl, hstart⟩ := splitAt?_eq_some hcut
      rw [byteLength_append] at h
      exact before?_append_of_le b (by omega)
  · rfl

/-- A slice of the rest of a text is a slice of the whole text, further down. -/
theorem slice?_append_add (a s : Text) (start stop : Nat) :
    slice? (a ++ s) (byteLength a + start) (byteLength a + stop) = slice? s start stop := by
  unfold slice?
  rw [splitAt?_append_add, Nat.add_sub_add_left]
  by_cases hle : start ≤ stop
  · rw [if_pos hle, if_pos (Nat.add_le_add_left hle _)]
    cases splitAt? s start <;> rfl
  · rw [if_neg hle, if_neg fun h => hle (Nat.le_of_add_le_add_left h)]

/-! ## Shared stretches -/

/-- A slice within a slice, read off the latter. -/
theorem slice?_within {source : Text} (h : slice? source first last = some s)
    (hstart : first ≤ start) (hle : start ≤ stop) (hstop : stop ≤ last) :
    slice? source start stop = slice? s (start - first) (stop - first) := by
  obtain ⟨before, after, rfl, rfl, rfl⟩ := slice?_eq_some h
  obtain ⟨start, rfl⟩ := Nat.exists_eq_add_of_le hstart
  obtain ⟨stop, rfl⟩ := Nat.exists_eq_add_of_le (hstart.trans hle)
  rw [slice?_append_add, slice?_append_of_le after (Nat.le_of_add_le_add_left hstop),
    Nat.add_sub_cancel_left, Nat.add_sub_cancel_left]

/-- **Texts that share a stretch have the same slices within it.** -/
theorem slice?_of_shared {source source' : Text} (h : slice? source first last = some s)
    (h' : slice? source' first last = some s) (hstart : first ≤ start) (hstop : stop ≤ last) :
    slice? source' start stop = slice? source start stop := by
  by_cases hle : start ≤ stop
  · rw [slice?_within h hstart hle hstop, slice?_within h' hstart hle hstop]
  · unfold slice?
    rw [if_neg hle, if_neg hle]

/-- How far a text reaches into its last line is told by its end, where this holds a line feed, and
otherwise by the text before it too. -/
theorem byteLength_lastLine_append (a p : Text) :
    byteLength (lastLine (a ++ p)) =
      if '\n' ∈ p then byteLength (lastLine p) else byteLength (lastLine a) + byteLength p := by
  split
  · rename_i hmem
    obtain ⟨above, habove⟩ := (exists_lastLine p).resolve_left (not_not_intro hmem)
    have hcut := lastLine_append_lineFeed (a ++ above) (not_mem_lastLine p)
    rw [List.append_assoc, ← habove] at hcut
    rw [hcut]
  · rename_i hmem
    rw [lastLine_append a hmem, byteLength_append]

/-- A place within a stretch, in rows and columns. -/
theorem position_append_add {k : Nat} (a b : Text) (hk : k ≤ byteLength s) :
    position (a ++ (s ++ b)) (byteLength a + k) =
      match before? s k with
      | none => ⟨0, 0⟩
      | some p => ⟨a.count '\n' + p.count '\n', byteLength (lastLine (a ++ p))⟩ := by
  have hbefore : before? (a ++ (s ++ b)) (byteLength a + k) = (before? s k).map (a ++ ·) := by
    have hrest := before?_append_of_le b hk
    unfold before? at hrest ⊢
    rw [splitAt?_append_add, Option.map_map, ← hrest, Option.map_map]
    rfl
  unfold position
  rw [hbefore]
  cases before? s k with
  | none => rfl
  | some p =>
    simp only [Option.map_some, Option.getD_some]
    rw [List.count_append]

/-- **Texts that share a stretch have the same rows and columns within it**, as soon as this holds
of its first byte. -/
theorem position_of_shared {source source' : Text} (h : slice? source first last = some s)
    (h' : slice? source' first last = some s)
    (place : position source' first = position source first) (hfirst : first ≤ n)
    (hlast : n ≤ last) : position source' n = position source n := by
  obtain ⟨a, b, rfl, rfl, rfl⟩ := slice?_eq_some h
  obtain ⟨a', b', rfl, hstart, -⟩ := slice?_eq_some h'
  obtain ⟨k, rfl⟩ := Nat.exists_eq_add_of_le hfirst
  have hk : k ≤ byteLength s := Nat.le_of_add_le_add_left hlast
  unfold position at place
  rw [← hstart, before?_append, hstart, before?_append, Option.getD_some, Option.getD_some,
    Position.mk.injEq] at place
  obtain ⟨hrow, hcolumn⟩ := place
  rw [position_append_add a b hk, ← hstart, position_append_add a' b' hk]
  cases before? s k with
  | none => rfl
  | some p =>
    simp only
    rw [byteLength_lastLine_append, byteLength_lastLine_append, hrow, hcolumn]

end PartialDocs.Text
