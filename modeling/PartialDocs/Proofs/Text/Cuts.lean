import PartialDocs.Text.Basic

/-!
# Where texts come apart

A text is put together from parts with separators between them.  The statements here say
when the parts can be read off again: at the first occurrence of a character that the
part before it does not have, and by splitting at every separator.
-/

set_option autoImplicit false

namespace PartialDocs.Text

/-- The first occurrence of a character cuts a text in one way only. -/
theorem append_cons_inj {c : Char} {x x' y y' : Text} (hx : c ∉ x) (hx' : c ∉ x')
    (h : x ++ c :: y = x' ++ c :: y') : x = x' ∧ y = y' := by
  induction x generalizing x' with
  | nil =>
    cases x' with
    | nil => simpa using h
    | cons d x' =>
      simp only [List.nil_append, List.cons_append, List.cons.injEq] at h
      simp [h.1] at hx'
  | cons d x ih =>
    cases x' with
    | nil =>
      simp only [List.nil_append, List.cons_append, List.cons.injEq] at h
      simp [h.1] at hx
    | cons e x' =>
      simp only [List.cons_append, List.cons.injEq] at h
      rw [List.mem_cons, not_or] at hx hx'
      obtain ⟨rfl, rfl⟩ := ih hx.2 hx'.2 h.2
      exact ⟨by rw [h.1], rfl⟩

/-- The last occurrence of a character cuts a text in one way only. -/
theorem append_cons_inj_of_last {c : Char} {x x' y y' : Text} (hy : c ∉ y) (hy' : c ∉ y')
    (h : x ++ c :: y = x' ++ c :: y') : x = x' ∧ y = y' := by
  have hback : y.reverse ++ c :: x.reverse = y'.reverse ++ c :: x'.reverse := by
    simpa using congrArg List.reverse h
  obtain ⟨hys, hxs⟩ := append_cons_inj (by simpa using hy) (by simpa using hy') hback
  exact ⟨List.reverse_inj.1 hxs, List.reverse_inj.1 hys⟩

/-- A cut before a separator cuts the pieces of a split. -/
theorem splitOn_append_cons (sep : Char) (x y : Text) :
    splitOn sep (x ++ sep :: y) = splitOn sep x ++ splitOn sep y := by
  induction x with
  | nil => simp [splitOn]
  | cons c x ih =>
    by_cases hc : c = sep
    · rw [List.cons_append, splitOn, if_pos hc, ih, splitOn, if_pos hc]
      rfl
    · rw [List.cons_append, splitOn, if_neg hc, ih, splitOn, if_neg hc]
      obtain ⟨p, ps, hp⟩ := List.exists_cons_of_ne_nil (splitOn_ne_nil sep x)
      rw [hp]
      rfl

/-- A text has at most one piece more than characters. -/
theorem length_splitOn_le (sep : Char) (s : Text) : (splitOn sep s).length ≤ s.length + 1 := by
  induction s with
  | nil => exact Nat.le_refl 1
  | cons c s ih =>
    have hfirst : (consFirst c (splitOn sep s)).length = (splitOn sep s).length := by
      cases hs : splitOn sep s with
      | nil => exact absurd hs (splitOn_ne_nil sep s)
      | cons p ps => rfl
    unfold splitOn
    split
    · exact Nat.succ_le_succ ih
    · rw [hfirst]
      exact Nat.le_succ_of_le ih

/-- A text without the separator is one piece. -/
theorem splitOn_of_not_mem {sep : Char} {x : Text} (h : sep ∉ x) : splitOn sep x = [x] := by
  induction x with
  | nil => rfl
  | cons c x ih =>
    rw [List.mem_cons, not_or] at h
    unfold splitOn
    rw [if_neg (Ne.symm h.1), ih h.2]
    rfl

/-- Pieces before other pieces are joined by themselves. -/
theorem joinWith_append (sep : Char) {a b : List Text} (ha : a ≠ []) (hb : b ≠ []) :
    joinWith [sep] (a ++ b) = joinWith [sep] a ++ sep :: joinWith [sep] b := by
  match a with
  | [] => exact absurd rfl ha
  | [piece] =>
    obtain ⟨next, rest, rfl⟩ := List.exists_cons_of_ne_nil hb
    rw [List.singleton_append, joinWith, joinWith, List.append_assoc, List.singleton_append]
  | piece :: next :: rest =>
    have ih := joinWith_append sep (a := next :: rest) (by simp) hb
    rw [List.cons_append, List.cons_append, joinWith, ← List.cons_append, ih, joinWith]
    simp

/-- Splitting joined pieces splits every piece by itself. -/
theorem splitOn_joinWith (sep : Char) {ps : List Text} (h : ps ≠ []) :
    splitOn sep (joinWith [sep] ps) = ps.flatMap (splitOn sep) := by
  match ps with
  | [] => exact absurd rfl h
  | [p] => simp [joinWith]
  | p :: q :: rest =>
    rw [joinWith, List.append_assoc, List.singleton_append, splitOn_append_cons,
      splitOn_joinWith sep (by simp)]
    rfl

/-- Pieces without the separator come back. -/
theorem flatMap_splitOn_of_not_mem {sep : Char} {ps : List Text} (h : ∀ p ∈ ps, sep ∉ p) :
    ps.flatMap (splitOn sep) = ps := by
  induction ps with
  | nil => rfl
  | cons p ps ih =>
    rw [List.flatMap_cons, splitOn_of_not_mem (h p List.mem_cons_self),
      ih fun q hq => h q (List.mem_cons_of_mem _ hq)]
    rfl

/-- One line by itself. -/
@[simp] theorem unlines_singleton (line : Text) : unlines [line] = line := rfl

/-- Lines above other lines. -/
theorem unlines_append {a b : List Text} (ha : a ≠ []) (hb : b ≠ []) :
    unlines (a ++ b) = unlines a ++ '\n' :: unlines b :=
  joinWith_append '\n' ha hb

/-- The lines of lines written one below the other. -/
theorem lines_unlines {ls : List Text} (ne : ls ≠ []) (h : ∀ l ∈ ls, '\n' ∉ l) :
    lines (unlines ls) = ls := by
  unfold lines unlines
  rw [splitOn_joinWith '\n' ne, flatMap_splitOn_of_not_mem h]

/-- Lines above a text are lines before those of the text. -/
theorem lines_unlines_append {ls : List Text} (ne : ls ≠ []) (h : ∀ l ∈ ls, '\n' ∉ l)
    (rest : Text) : lines (unlines ls ++ '\n' :: rest) = ls ++ lines rest := by
  have hcut : lines (unlines ls ++ '\n' :: rest) = lines (unlines ls) ++ lines rest :=
    splitOn_append_cons '\n' _ _
  rw [hcut, lines_unlines ne h]

/-- The pieces between separators hold none. -/
theorem not_mem_of_mem_splitOn {sep : Char} {s p : Text} (h : p ∈ splitOn sep s) : sep ∉ p := by
  induction s generalizing p with
  | nil => simp [List.mem_singleton.1 h]
  | cons c s ih =>
    unfold splitOn at h
    split at h
    · rcases List.mem_cons.1 h with rfl | h
      · simp
      · exact ih h
    · rename_i hc
      obtain ⟨q, qs, hq⟩ := List.exists_cons_of_ne_nil (splitOn_ne_nil sep s)
      rw [hq] at h ih
      rcases List.mem_cons.1 h with rfl | h
      · rw [List.mem_cons, not_or]
        exact ⟨Ne.symm hc, ih List.mem_cons_self⟩
      · exact ih (List.mem_cons_of_mem _ h)

/-- The pieces are made of the characters of the text. -/
theorem mem_of_mem_splitOn {sep c : Char} {s p : Text} (h : p ∈ splitOn sep s) (hc : c ∈ p) :
    c ∈ s := by
  induction s generalizing p with
  | nil =>
    rw [List.mem_singleton.1 h] at hc
    cases hc
  | cons d s ih =>
    unfold splitOn at h
    split at h
    · rcases List.mem_cons.1 h with rfl | h
      · cases hc
      · exact List.mem_cons_of_mem d (ih h hc)
    · obtain ⟨q, qs, hq⟩ := List.exists_cons_of_ne_nil (splitOn_ne_nil sep s)
      rw [hq] at h ih
      rcases List.mem_cons.1 h with rfl | h
      · rcases List.mem_cons.1 hc with rfl | hc
        · exact List.mem_cons_self
        · exact List.mem_cons_of_mem d (ih List.mem_cons_self hc)
      · exact List.mem_cons_of_mem d (ih (List.mem_cons_of_mem q h) hc)

/-- A character of joined pieces is the separator or belongs to a piece. -/
theorem mem_of_mem_joinWith {sep c : Char} {ps : List Text} (h : c ∈ joinWith [sep] ps) :
    c = sep ∨ ∃ p ∈ ps, c ∈ p := by
  match ps with
  | [] => simp [joinWith] at h
  | [p] => exact .inr ⟨p, by simp, h⟩
  | p :: q :: rest =>
    rw [joinWith, List.append_assoc, List.singleton_append, List.mem_append, List.mem_cons] at h
    rcases h with h | h | h
    · exact .inr ⟨p, by simp, h⟩
    · exact .inl h
    · rcases mem_of_mem_joinWith h with h | ⟨r, hr, hc⟩
      · exact .inl h
      · exact .inr ⟨r, List.mem_cons_of_mem _ hr, hc⟩

/-- A known end is taken away. -/
theorem stripSuffix?_append (ending s : Text) : stripSuffix? ending (s ++ ending) = some s := by
  unfold stripSuffix?
  rw [List.reverse_append, stripPrefix?_append, Option.map_some, List.reverse_reverse]

/-- Replacing a character by another one. -/
theorem replace_singleton (old new : Char) (s : Text) :
    replace old [new] s = s.map fun c => if c = old then new else c := by
  unfold replace
  induction s with
  | nil => rfl
  | cons c s ih =>
    rw [List.flatMap_cons, List.map_cons, ih]
    split <;> rfl

/-- Different numbers have different digits. -/
theorem ofNat_inj {m n : Nat} (h : ofNat m = ofNat n) : m = n := by
  unfold ofNat at h
  rw [← Nat.ofDigitChars_ten_toDigits (n := m), h, Nat.ofDigitChars_ten_toDigits]

/-- A number is written in digits. -/
theorem isDigit_of_mem_ofNat {n : Nat} {c : Char} (h : c ∈ ofNat n) : c.isDigit = true :=
  Nat.isDigit_of_mem_toDigits (by decide) (by decide) h

end PartialDocs.Text
