import PartialDocs.Proofs.Text.Lines

/-!
# Line feeds behind carriage returns

A text can end its lines in a carriage return and a line feed instead of a line feed alone
(`withReturns`).  A byte then stands further down by one for each line feed before it, so that
a cut there cuts the same text (`splitAt?_withReturns`).  Rows stay the same, and every line but
the last one ends in a carriage return (`lines_withReturns`).
-/

set_option autoImplicit false

namespace PartialDocs.Text

/-- A text with a carriage return before every line feed. -/
def withReturns (s : Text) : Text := replace '\n' ['\r', '\n'] s

/-- Where a byte of a text stands when a carriage return has been put before every line feed. -/
def offsetWithReturns : Text → Nat → Nat
  | _, 0 => 0
  | [], n + 1 => n + 1
  | c :: rest, n + 1 =>
    if c.utf8Size ≤ n + 1 then
      byteLength (withReturns [c]) + offsetWithReturns rest (n + 1 - c.utf8Size)
    else n + 1

variable {s before after : Text}

/-! ## Characters -/

/-- Texts get their carriage returns one by one. -/
theorem withReturns_append (s t : Text) : withReturns (s ++ t) = withReturns s ++ withReturns t :=
  List.flatMap_append

/-- A line feed gets a carriage return in front. -/
theorem withReturns_lineFeed : withReturns ['\n'] = ['\r', '\n'] := rfl

/-- A text gets its carriage returns character by character. -/
theorem withReturns_cons (c : Char) (s : Text) :
    withReturns (c :: s) = withReturns [c] ++ withReturns s := withReturns_append [c] s

/-- Any other character stays. -/
theorem withReturns_singleton {c : Char} (h : c ≠ '\n') : withReturns [c] = [c] := by
  unfold withReturns replace
  rw [List.flatMap_singleton, if_neg h]

/-- A text in one line stays. -/
theorem withReturns_of_not_mem (h : '\n' ∉ s) : withReturns s = s := by
  induction s with
  | nil => rfl
  | cons c s ih =>
    rw [List.mem_cons, not_or] at h
    rw [withReturns_cons, withReturns_singleton (Ne.symm h.1), ih h.2, List.singleton_append]

/-- Without its carriage returns the text is the one that had none. -/
theorem filter_withReturns (h : '\r' ∉ s) : (withReturns s).filter (· != '\r') = s := by
  induction s with
  | nil => rfl
  | cons c s ih =>
    rw [List.mem_cons, not_or] at h
    rw [withReturns_cons, List.filter_append, ih h.2]
    by_cases hc : c = '\n'
    · subst hc
      rfl
    · rw [withReturns_singleton hc, List.filter_cons_of_pos (by simpa using Ne.symm h.1)]
      rfl

/-- Only the empty text becomes empty. -/
theorem withReturns_eq_nil_iff : withReturns s = [] ↔ s = [] := by
  cases s with
  | nil => exact iff_of_true rfl rfl
  | cons c s =>
    rw [withReturns_cons, List.append_eq_nil_iff]
    by_cases hc : c = '\n'
    · simp [hc, withReturns_lineFeed]
    · simp [withReturns_singleton hc]

/-- Whether a text begins with a character that is neither a carriage return nor a line feed. -/
theorem head?_withReturns {c : Char} (hfeed : c ≠ '\n') (hreturn : c ≠ '\r') :
    (withReturns s).head? = some c ↔ s.head? = some c := by
  cases s with
  | nil => rfl
  | cons d s =>
    rw [withReturns_cons]
    by_cases hd : d = '\n'
    · simp [hd, withReturns_lineFeed, Ne.symm hfeed, Ne.symm hreturn]
    · simp [withReturns_singleton hd]

/-- A beginning without carriage returns is there before they are put in. -/
theorem prefix_of_prefix_withReturns {p : Text} (hp : '\r' ∉ p) (noReturn : '\r' ∉ s)
    (h : p <+: withReturns s) : p <+: s := by
  obtain ⟨rest, hrest⟩ := h
  have hkept : p.filter (· != '\r') = p := by
    rw [List.filter_eq_self]
    intro c hc
    rw [bne_iff_ne]
    rintro rfl
    exact hp hc
  refine ⟨rest.filter (· != '\r'), ?_⟩
  rw [← filter_withReturns noReturn, ← hrest, List.filter_append, hkept]

/-- There are as many line feeds as before. -/
theorem count_lineFeed_withReturns (s : Text) : (withReturns s).count '\n' = s.count '\n' := by
  induction s with
  | nil => rfl
  | cons c s ih =>
    rw [withReturns_cons, List.count_append, ih]
    by_cases hc : c = '\n'
    · have hone : (withReturns ['\n']).count '\n' = 1 := rfl
      rw [hc, hone, List.count_cons_self, Nat.add_comm]
    · rw [withReturns_singleton hc, ← List.count_append, List.singleton_append]

/-! ## Cuts -/

/-- Bytes of the first character stay where they are. -/
theorem offsetWithReturns_of_lt {c : Char} {n : Nat} (h : n < c.utf8Size) (s : Text) :
    offsetWithReturns (c :: s) n = n := by
  cases n with
  | zero => rfl
  | succ n => rw [offsetWithReturns, if_neg (by omega)]

/-- A byte behind the first character moves with this character and by itself. -/
theorem offsetWithReturns_cons_add (c : Char) (s : Text) (n : Nat) :
    offsetWithReturns (c :: s) (c.utf8Size + n) =
      byteLength (withReturns [c]) + offsetWithReturns s n := by
  obtain ⟨k, hk⟩ : ∃ k, c.utf8Size + n = k + 1 := by
    have hpos := c.utf8Size_pos
    exact ⟨c.utf8Size + n - 1, by omega⟩
  have hrest : k + 1 - c.utf8Size = n := by omega
  rw [hk, offsetWithReturns, if_pos (by omega), hrest]

/-- Behind a beginning of a text bytes move as in the rest of it. -/
theorem offsetWithReturns_append_add (x s : Text) (n : Nat) :
    offsetWithReturns (x ++ s) (byteLength x + n) =
      byteLength (withReturns x) + offsetWithReturns s n := by
  induction x with
  | nil => simp [withReturns, replace]
  | cons c x ih =>
    rw [List.cons_append, byteLength_cons, Nat.add_assoc, offsetWithReturns_cons_add, ih,
      withReturns_cons c x, byteLength_append, Nat.add_assoc]

/-- A text becomes longer by its number of line feeds. -/
theorem byteLength_withReturns (s : Text) :
    byteLength (withReturns s) = byteLength s + s.count '\n' := by
  induction s with
  | nil => rfl
  | cons c s ih =>
    rw [withReturns_cons, byteLength_append, ih, byteLength_cons]
    by_cases hc : c = '\n'
    · have hone : byteLength (withReturns ['\n']) = '\n'.utf8Size + 1 := rfl
      rw [hc, hone, List.count_cons_self]
      omega
    · have hone : byteLength [c] = c.utf8Size := Nat.add_zero _
      rw [withReturns_singleton hc, hone, List.count_cons_of_ne hc, Nat.add_assoc]

/-- The end of a beginning of a text moves to the end of that beginning with its carriage
returns. -/
theorem offsetWithReturns_append (x s : Text) :
    offsetWithReturns (x ++ s) (byteLength x) = byteLength (withReturns x) := by
  have hmoved := offsetWithReturns_append_add x s 0
  have hstart : offsetWithReturns s 0 = 0 := by cases s <;> rfl
  rwa [hstart] at hmoved

/-- What stands further down stands further down with carriage returns too. -/
theorem offsetWithReturns_lt (s : Text) {m n : Nat} (h : m < n) :
    offsetWithReturns s m < offsetWithReturns s n := by
  induction s generalizing m n with
  | nil =>
    have hsame : ∀ k, offsetWithReturns [] k = k := fun k => by cases k <;> rfl
    rwa [hsame, hsame]
  | cons c s ih =>
    have hsize : c.utf8Size ≤ byteLength (withReturns [c]) := by
      rw [byteLength_withReturns]
      exact Nat.le_add_right c.utf8Size _
    rcases Nat.lt_or_ge m c.utf8Size with hm | hm
    · rw [offsetWithReturns_of_lt hm]
      rcases Nat.lt_or_ge n c.utf8Size with hn | hn
      · rwa [offsetWithReturns_of_lt hn]
      · obtain ⟨k, rfl⟩ := Nat.exists_eq_add_of_le hn
        rw [offsetWithReturns_cons_add]
        omega
    · obtain ⟨j, rfl⟩ := Nat.exists_eq_add_of_le hm
      obtain ⟨k, rfl⟩ := Nat.exists_eq_add_of_le (Nat.le_trans hm (Nat.le_of_lt h))
      rw [offsetWithReturns_cons_add, offsetWithReturns_cons_add]
      exact Nat.add_lt_add_left (ih (by omega)) _

/-- The order of two bytes stays. -/
theorem offsetWithReturns_le_iff (s : Text) {m n : Nat} :
    offsetWithReturns s m ≤ offsetWithReturns s n ↔ m ≤ n := by
  constructor
  · intro h
    exact Nat.le_of_not_lt fun hlt => Nat.not_lt_of_le h (offsetWithReturns_lt s hlt)
  · intro h
    rcases Nat.eq_or_lt_of_le h with rfl | hlt
    · exact Nat.le_refl _
    · exact Nat.le_of_lt (offsetWithReturns_lt s hlt)

/-- Two bytes stay apart. -/
theorem offsetWithReturns_inj (s : Text) {m n : Nat} :
    offsetWithReturns s m = offsetWithReturns s n ↔ m = n := by
  rw [Nat.le_antisymm_iff, Nat.le_antisymm_iff, offsetWithReturns_le_iff, offsetWithReturns_le_iff]

/-- **A cut of the text with carriage returns cuts the text.** -/
theorem splitAt?_withReturns (s : Text) (n : Nat) :
    splitAt? (withReturns s) (offsetWithReturns s n) =
      (splitAt? s n).map fun x => (withReturns x.1, withReturns x.2) := by
  induction s generalizing n with
  | nil => cases n <;> rfl
  | cons c s ih =>
    rcases Nat.lt_or_ge n c.utf8Size with hn | hn
    · rw [offsetWithReturns_of_lt hn]
      cases n with
      | zero => simp [splitAt?, withReturns, replace]
      | succ n =>
        have hc : c ≠ '\n' := by
          rintro rfl
          have hone : '\n'.utf8Size = 1 := rfl
          omega
        rw [withReturns_cons, withReturns_singleton hc, List.singleton_append, splitAt?, splitAt?,
          if_neg (by omega), if_neg (by omega)]
        rfl
    · obtain ⟨k, rfl⟩ := Nat.exists_eq_add_of_le hn
      have hone : c.utf8Size = byteLength [c] := (Nat.add_zero _).symm
      have hcut := splitAt?_append_add [c] s k
      rw [← hone, List.singleton_append] at hcut
      rw [offsetWithReturns_cons_add, withReturns_cons, splitAt?_append_add, ih, hcut,
        Option.map_map, Option.map_map]
      apply Option.map_congr
      intro x _
      exact congrArg (·, withReturns x.2) (withReturns_cons c x.1).symm

/-- What stands before a byte has its carriage returns. -/
theorem before?_withReturns (s : Text) (n : Nat) :
    before? (withReturns s) (offsetWithReturns s n) = (before? s n).map withReturns := by
  unfold before?
  rw [splitAt?_withReturns, Option.map_map, Option.map_map]
  rfl

/-- A slice has its carriage returns. -/
theorem slice?_withReturns (s : Text) (start stop : Nat) :
    slice? (withReturns s) (offsetWithReturns s start) (offsetWithReturns s stop) =
      (slice? s start stop).map withReturns := by
  unfold slice?
  simp only [offsetWithReturns_le_iff]
  split
  · rename_i hle
    rw [splitAt?_withReturns]
    cases hcut : splitAt? s start with
    | none => rfl
    | some x =>
      obtain ⟨x, rest⟩ := x
      obtain ⟨rfl, rfl⟩ := splitAt?_eq_some hcut
      obtain ⟨k, rfl⟩ := Nat.exists_eq_add_of_le hle
      simp only [Option.map_some, Option.bind_some]
      rw [offsetWithReturns_append_add, offsetWithReturns_append, Nat.add_sub_cancel_left,
        Nat.add_sub_cancel_left, before?_withReturns]
  · rfl

/-- A slice at the end of a line may take the carriage return with it. -/
theorem slice?_withReturns_succ {t : Text} {start stop : Nat} (h : slice? s start stop = some t)
    (hend : splitAt? s stop = some (before, '\n' :: after)) :
    slice? (withReturns s) (offsetWithReturns s start) (offsetWithReturns s stop + 1) =
      some (withReturns t ++ ['\r']) := by
  obtain ⟨first, rest, hs, rfl, rfl⟩ := slice?_eq_some h
  have hcut := splitAt?_append (first ++ t) rest
  rw [byteLength_append, List.append_assoc, ← hs, hend, Option.some.injEq, Prod.mk.injEq] at hcut
  obtain ⟨-, rfl⟩ := hcut
  have hstart : offsetWithReturns s (byteLength first) = byteLength (withReturns first) := by
    rw [hs]
    exact offsetWithReturns_append first _
  have hstop : offsetWithReturns s (byteLength first + byteLength t) + 1 =
      byteLength (withReturns first) + byteLength (withReturns t ++ ['\r']) := by
    have hmoved := offsetWithReturns_append (first ++ t) ('\n' :: after)
    rw [byteLength_append, List.append_assoc, ← hs, withReturns_append, byteLength_append] at hmoved
    have hone : byteLength ['\r'] = 1 := rfl
    rw [hmoved, byteLength_append, hone, Nat.add_assoc]
  have htext : withReturns s =
      withReturns first ++ ((withReturns t ++ ['\r']) ++ '\n' :: withReturns after) := by
    rw [hs, withReturns_append, withReturns_append, withReturns_cons '\n' after,
      withReturns_lineFeed]
    simp
  rw [hstart, hstop, htext]
  exact slice?_append _ _ _

/-! ## Rows and lines -/

/-- A byte stays in its row. -/
theorem row_withReturns (s : Text) (n : Nat) :
    (position (withReturns s) (offsetWithReturns s n)).row = (position s n).row := by
  unfold position
  rw [before?_withReturns]
  cases before? s n with
  | none => rfl
  | some before => exact count_lineFeed_withReturns before

/-- The last line, which ends in no line feed, stays. -/
theorem lastLine_withReturns (s : Text) : lastLine (withReturns s) = lastLine s := by
  rcases exists_lastLine s with h | ⟨above, h⟩
  · rw [withReturns_of_not_mem h]
  · have hlast := not_mem_lastLine s
    have htext : withReturns s = (withReturns above ++ ['\r']) ++ '\n' :: lastLine s := by
      conv_lhs => rw [h]
      rw [withReturns_append, withReturns_cons '\n', withReturns_lineFeed,
        withReturns_of_not_mem hlast]
      simp
    rw [htext, lastLine_append_lineFeed _ hlast]

/-- **Every line but the last one ends in a carriage return.** -/
theorem lines_withReturns (s : Text) :
    lines (withReturns s) = (lines s).dropLast.map (· ++ ['\r']) ++ [lastLine s] := by
  induction s using List.reverseRecOn with
  | nil => rfl
  | append_singleton s c ih =>
    have hlast := lastLine_withReturns s
    have habove : (lines (withReturns s)).dropLast = (lines s).dropLast.map (· ++ ['\r']) := by
      rw [ih, List.dropLast_concat]
    by_cases hc : c = '\n'
    · -- the last line gets a carriage return and is followed by an empty line
      subst hc
      have hreturn : '\n' ∉ ['\r'] := by decide
      have htext : withReturns (s ++ ['\n']) = (withReturns s ++ ['\r']) ++ '\n' :: [] := by
        rw [withReturns_append, withReturns_lineFeed, List.append_assoc]
        rfl
      rw [htext, lines_append_lineFeed, lines_append _ hreturn, habove, hlast,
        dropLast_lines_append_lineFeed s (by simp), lastLine_append_lineFeed s (by simp),
        lines_eq s, List.map_append, List.dropLast_concat]
      rfl
    · have hone : '\n' ∉ [c] := by simpa using Ne.symm hc
      rw [withReturns_append, withReturns_singleton hc, lines_append _ hone, habove, hlast,
        dropLast_lines_append s hone, lastLine_append s hone]

/-- A character that a text does not have is not dropped at its end. -/
theorem dropSuffix_of_not_mem {c : Char} (h : c ∉ s) : dropSuffix [c] s = s :=
  dropSuffix_singleton_of_ne fun hlast => h (List.mem_of_getLast? hlast)

/-- The lines of a text without carriage returns are read off with them. -/
theorem map_dropSuffix_lines_withReturns (noReturn : '\r' ∉ s) :
    (lines (withReturns s)).map (dropSuffix ['\r']) = (lines s).map (dropSuffix ['\r']) := by
  have hnone : ∀ l ∈ lines s, dropSuffix ['\r'] l = l := fun l hl =>
    dropSuffix_of_not_mem fun hmem => noReturn (mem_of_mem_splitOn hl hmem)
  have habove : ((lines s).dropLast.map (· ++ ['\r'])).map (dropSuffix ['\r']) =
      (lines s).dropLast.map (dropSuffix ['\r']) := by
    rw [List.map_map]
    refine List.map_congr_left fun l hl => ?_
    rw [Function.comp_apply, dropSuffix_append, hnone l (List.dropLast_subset _ hl)]
  rw [lines_withReturns, List.map_append, habove, ← List.map_append, ← lines_eq]

end PartialDocs.Text
