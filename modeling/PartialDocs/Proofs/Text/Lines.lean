import Mathlib.Data.List.Induction
import Mathlib.Data.List.TakeWhile
import PartialDocs.Proofs.Text.Cuts
import PartialDocs.Proofs.Text.Words

/-!
# Lines and rows

The lines of a text are the ones above its last line and that last line (`lines_eq`).  What stands
behind a text and holds no line feed goes on with its last line and leaves the lines above alone
(`dropLast_lines_append`).  The row of a byte counts the line feeds before it, so that a row begins
at one byte only (`append_lineFeed_inj`).
-/

set_option autoImplicit false

namespace PartialDocs.Text

variable {s t : Text}

/-! ## The last line -/

/-- The last line has no line feed. -/
theorem not_mem_lastLine (s : Text) : '\n' ∉ lastLine s := by
  intro h
  have hne := List.mem_takeWhile_imp (List.mem_reverse.1 h)
  simp at hne

/-- A text without a line feed is its last line. -/
theorem lastLine_of_not_mem {s : Text} (h : '\n' ∉ s) : lastLine s = s := by
  have hall : ∀ c ∈ s.reverse, (c != '\n') = true := by
    intro c hc
    rw [bne_iff_ne]
    rintro rfl
    exact h (List.mem_reverse.1 hc)
  unfold lastLine
  rw [List.takeWhile_eq_self_iff.2 hall, List.reverse_reverse]

/-- A character in front changes the first line only. -/
theorem lastLine_cons_of_mem {c : Char} {s : Text} (h : '\n' ∈ s) :
    lastLine (c :: s) = lastLine s := by
  have hlength : (s.reverse.takeWhile (· != '\n')).length ≠ s.reverse.length := by
    intro hlength
    have hself := (List.takeWhile_prefix (· != '\n')).eq_of_length hlength
    have hmem : '\n' ∈ s.reverse.takeWhile (· != '\n') := by
      rw [hself]
      exact List.mem_reverse.2 h
    have hne := List.mem_takeWhile_imp hmem
    simp at hne
  unfold lastLine
  rw [List.reverse_cons, List.takeWhile_append, if_neg hlength]

/-- What follows without a line feed belongs to the last line. -/
theorem lastLine_append (s : Text) (ht : '\n' ∉ t) : lastLine (s ++ t) = lastLine s ++ t := by
  induction t using List.reverseRecOn with
  | nil => rw [List.append_nil, List.append_nil]
  | append_singleton t c ih =>
    rw [List.mem_append, List.mem_singleton, not_or] at ht
    have hc : (c != '\n') = true := by simpa using Ne.symm ht.2
    have hrest := ih ht.1
    unfold lastLine at hrest ⊢
    rw [← List.append_assoc, List.reverse_append, List.reverse_singleton, List.singleton_append,
      List.takeWhile_cons_of_pos (p := (· != '\n')) hc, List.reverse_cons, hrest, List.append_assoc]

/-- What follows a line feed without another one is the last line. -/
theorem lastLine_append_lineFeed (s : Text) (ht : '\n' ∉ t) : lastLine (s ++ '\n' :: t) = t := by
  have hempty : lastLine (s ++ ['\n']) = [] := by
    unfold lastLine
    rw [List.reverse_append, List.reverse_singleton, List.singleton_append,
      List.takeWhile_cons_of_neg (by simp), List.reverse_nil]
  have hcut := lastLine_append (s ++ ['\n']) ht
  rwa [hempty, List.append_assoc, List.singleton_append, List.nil_append] at hcut

/-- A text is one line, or a line feed stands before its last line. -/
theorem exists_lastLine (s : Text) : '\n' ∉ s ∨ ∃ above, s = above ++ '\n' :: lastLine s := by
  induction s using List.reverseRecOn with
  | nil => exact .inl (by simp)
  | append_singleton s c ih =>
    by_cases hc : c = '\n'
    · subst hc
      refine .inr ⟨s, ?_⟩
      rw [lastLine_append_lineFeed s (by simp)]
    · have hone : '\n' ∉ [c] := by simpa using Ne.symm hc
      rw [lastLine_append s hone]
      rcases ih with h | ⟨above, h⟩
      · exact .inl (by simp [h, Ne.symm hc])
      · refine .inr ⟨above, ?_⟩
        rw [← List.cons_append, ← List.append_assoc, ← h]

/-! ## The lines above the last one -/

/-- A text has one line more than it has line feeds. -/
theorem length_lines (s : Text) : (lines s).length = s.count '\n' + 1 := by
  unfold lines
  induction s with
  | nil => rfl
  | cons c rest ih =>
    unfold splitOn
    split
    · rename_i hc
      rw [hc, List.length_cons, ih, List.count_cons_self]
    · rename_i hc
      obtain ⟨l, ls, hlines⟩ := List.exists_cons_of_ne_nil (splitOn_ne_nil '\n' rest)
      rw [List.count_cons_of_ne hc, ← ih, hlines]
      rfl

/-- A text without a line feed is its only line. -/
theorem lines_of_not_mem (h : '\n' ∉ s) : lines s = [s] := splitOn_of_not_mem h

/-- The lines in front of a line feed and those behind it. -/
theorem lines_append_lineFeed (s t : Text) : lines (s ++ '\n' :: t) = lines s ++ lines t :=
  splitOn_append_cons '\n' s t

/-- The lines in front of the last line. -/
theorem dropLast_lines_append_lineFeed (s : Text) (ht : '\n' ∉ t) :
    (lines (s ++ '\n' :: t)).dropLast = lines s := by
  rw [lines_append_lineFeed, lines_of_not_mem ht, List.dropLast_concat]

/-- What holds no line feed leaves the lines above it alone. -/
theorem dropLast_lines_append (s : Text) (ht : '\n' ∉ t) :
    (lines (s ++ t)).dropLast = (lines s).dropLast := by
  rcases exists_lastLine s with h | ⟨above, h⟩
  · have hboth : '\n' ∉ s ++ t := by simp [h, ht]
    rw [lines_of_not_mem hboth, lines_of_not_mem h]
    rfl
  · have hlast : '\n' ∉ lastLine s ++ t := by simp [not_mem_lastLine, ht]
    have hcut := dropLast_lines_append_lineFeed above hlast
    rw [← List.cons_append, ← List.append_assoc, ← h] at hcut
    have hcut' := dropLast_lines_append_lineFeed above (not_mem_lastLine s)
    rw [← h] at hcut'
    rw [hcut, hcut']

/-- The lines of a text are those above its last line and that line. -/
theorem lines_eq (s : Text) : lines s = (lines s).dropLast ++ [lastLine s] := by
  rcases exists_lastLine s with h | ⟨above, h⟩
  · rw [lines_of_not_mem h, lastLine_of_not_mem h]
    rfl
  · have hlast := not_mem_lastLine s
    have hlines : lines s = lines above ++ [lastLine s] := by
      conv_lhs => rw [h]
      rw [lines_append_lineFeed, lines_of_not_mem hlast]
    rw [hlines, List.dropLast_concat]

/-- What follows without a line feed goes on with the last line. -/
theorem lines_append (s : Text) (ht : '\n' ∉ t) :
    lines (s ++ t) = (lines s).dropLast ++ [lastLine s ++ t] := by
  rw [lines_eq, dropLast_lines_append s ht, lastLine_append s ht]

/-! ## Rows -/

/-- Behind a beginning a text is cut like its rest. -/
theorem splitAt?_append_add (x s : Text) (n : Nat) :
    splitAt? (x ++ s) (byteLength x + n) = (splitAt? s n).map fun y => (x ++ y.1, y.2) := by
  induction x with
  | nil => simp
  | cons c x ih =>
    obtain ⟨k, hk⟩ : ∃ k, byteLength (c :: x) + n = k + 1 := by
      have hpos := c.utf8Size_pos
      exact ⟨byteLength (c :: x) + n - 1, by rw [byteLength_cons]; omega⟩
    rw [byteLength_cons, Nat.add_assoc] at hk
    have hrest : k + 1 - c.utf8Size = byteLength x + n := by omega
    rw [byteLength_cons, Nat.add_assoc, hk, List.cons_append, splitAt?, if_pos (by omega),
      hrest, ih,
      Option.map_map]
    rfl

/-- What stands before the end of a beginning is the beginning. -/
theorem before?_append (s t : Text) : before? (s ++ t) (byteLength s) = some s := by
  unfold before?
  rw [splitAt?_append]
  rfl

/-- A text goes on behind what stands before a byte. -/
theorem before?_eq_some {source before : Text} {n : Nat} (h : before? source n = some before) :
    ∃ after, source = before ++ after ∧ byteLength before = n := by
  unfold before? at h
  rw [Option.map_eq_some_iff] at h
  obtain ⟨⟨a, after⟩, hcut, rfl⟩ := h
  exact ⟨after, splitAt?_eq_some hcut⟩

/-- A row is the number of line feeds before it. -/
theorem row_of_before? {source before : Text} {n : Nat} (h : before? source n = some before) :
    (position source n).row = before.count '\n' := by
  unfold position
  rw [h]
  rfl

/-- Of two beginnings of a text the one of fewer bytes is a beginning of the other. -/
theorem prefix_of_byteLength_le {a b : Text} (ha : a <+: s) (hb : b <+: s)
    (h : byteLength a ≤ byteLength b) : a <+: b := by
  rcases List.prefix_or_prefix_of_prefix ha hb with hab | ⟨rest, rfl⟩
  · exact hab
  · rw [byteLength_append] at h
    cases rest with
    | nil => simp
    | cons c rest =>
      have hpos := c.utf8Size_pos
      rw [byteLength_cons] at h
      omega

/-- What stands before a slice, and before its end. -/
theorem exists_before?_of_slice? {source : Text} {start stop : Nat}
    (h : slice? source start stop = some s) :
    ∃ before, before? source start = some before ∧ before? source stop = some (before ++ s) := by
  obtain ⟨before, after, rfl, rfl, rfl⟩ := slice?_eq_some h
  refine ⟨before, before?_append before _, ?_⟩
  rw [← byteLength_append, ← List.append_assoc]
  exact before?_append (before ++ s) after

/-- What stands before the end of a slice is what stands before it, and the slice. -/
theorem before?_of_slice? {source before : Text} {start stop : Nat}
    (hbefore : before? source start = some before) (h : slice? source start stop = some s) :
    before? source stop = some (before ++ s) := by
  obtain ⟨before', hstart, hstop⟩ := exists_before?_of_slice? h
  rw [hbefore, Option.some.injEq] at hstart
  rw [hstart, hstop]

/-- Behind a slice the text goes on up to any later byte. -/
theorem exists_gap_of_slice? {source before : Text} {start stop n : Nat}
    (h : slice? source start stop = some s) (hbefore : before? source n = some before)
    (hle : stop ≤ n) :
    ∃ first gap after, before? source start = some first ∧ before = first ++ s ++ gap ∧
      splitAt? source stop = some (first ++ s, gap ++ after) := by
  obtain ⟨after, hsource, hn⟩ := before?_eq_some hbefore
  obtain ⟨first, rest, hslice, hstart, hstop⟩ := slice?_eq_some h
  rw [← List.append_assoc] at hslice
  obtain ⟨gap, hgap⟩ : first ++ s <+: before := by
    refine prefix_of_byteLength_le ⟨rest, hslice.symm⟩ ⟨after, hsource.symm⟩ ?_
    rwa [byteLength_append, hstop, hn]
  have hcut : source = (first ++ s) ++ (gap ++ after) := by
    rw [← List.append_assoc, hgap, hsource]
  refine ⟨first, gap, after, ?_, hgap.symm, ?_⟩
  · rw [hslice, List.append_assoc, ← hstart]
    exact before?_append _ _
  · rw [hcut, ← hstop, ← byteLength_append]
    exact splitAt?_append _ _

/-- The row at the end of a slice. -/
theorem row_of_slice? {source : Text} {start stop : Nat} (h : slice? source start stop = some s) :
    (position source stop).row = (position source start).row + s.count '\n' := by
  obtain ⟨before, hstart, hstop⟩ := exists_before?_of_slice? h
  rw [row_of_before? hstop, row_of_before? hstart, List.count_append]

/-- A text is cut at the end of a row in one way only. -/
theorem append_lineFeed_inj {a b : Text} (h : a ++ '\n' :: s = b ++ '\n' :: t)
    (rows : a.count '\n' = b.count '\n') : a = b ∧ s = t := by
  induction a generalizing b with
  | nil =>
    cases b with
    | nil => simpa using h
    | cons d b =>
      simp only [List.nil_append, List.cons_append, List.cons.injEq] at h
      rw [← h.1, List.count_cons_self] at rows
      simp at rows
  | cons c a ih =>
    cases b with
    | nil =>
      simp only [List.nil_append, List.cons_append, List.cons.injEq] at h
      rw [h.1, List.count_cons_self] at rows
      simp at rows
    | cons d b =>
      simp only [List.cons_append, List.cons.injEq] at h
      obtain ⟨rfl, h⟩ := h
      rw [List.count_cons, List.count_cons, Nat.add_right_cancel_iff] at rows
      obtain ⟨rfl, rfl⟩ := ih h rows
      exact ⟨rfl, rfl⟩

/-! ## Known beginnings and ends -/

/-- A beginning is dropped. -/
theorem dropPrefix_append (beginning s : Text) : dropPrefix beginning (beginning ++ s) = s := by
  unfold dropPrefix
  rw [stripPrefix?_append]
  rfl

/-- An ending is dropped. -/
theorem dropSuffix_append (ending s : Text) : dropSuffix ending (s ++ ending) = s := by
  unfold dropSuffix
  rw [stripSuffix?_append]
  rfl

/-- Where a text ends otherwise, nothing is dropped. -/
theorem dropSuffix_singleton_of_ne {c : Char} (h : s.getLast? ≠ some c) :
    dropSuffix [c] s = s := by
  rcases List.eq_nil_or_concat' s with rfl | ⟨s, d, rfl⟩
  · rfl
  · rw [List.getLast?_concat, ne_eq, Option.some.injEq] at h
    unfold dropSuffix stripSuffix?
    rw [List.reverse_concat, List.reverse_singleton, stripPrefix?, if_neg (Ne.symm h)]
    rfl

/-- The last character is one of the last part. -/
theorem dropSuffix_singleton_append (c : Char) (s : Text) (ht : t ≠ []) :
    dropSuffix [c] (s ++ t) = s ++ dropSuffix [c] t := by
  obtain ⟨t, d, rfl⟩ := (List.eq_nil_or_concat' t).resolve_left ht
  by_cases hd : d = c
  · rw [hd, ← List.append_assoc, dropSuffix_append, dropSuffix_append]
  · have hne : ∀ u : Text, (u ++ [d]).getLast? ≠ some c := by
      intro u
      rw [List.getLast?_concat, ne_eq, Option.some.injEq]
      exact hd
    rw [dropSuffix_singleton_of_ne (hne t), ← List.append_assoc, dropSuffix_singleton_of_ne (hne _)]

/-- Texts beside each other are blank when both are. -/
theorem isBlank_append (s t : Text) : isBlank (s ++ t) = (isBlank s && isBlank t) :=
  List.all_append

/-- Lines are blank when they are blank one by one. -/
theorem isBlank_append_lineFeed (s t : Text) :
    isBlank (s ++ '\n' :: t) = (isBlank s && isBlank t) := isBlank_append s _

/-- A blank gap is trimmed. -/
theorem trimStart_append {gap : Text} (hgap : isBlank gap = true) (s : Text) :
    trimStart (gap ++ s) = trimStart s :=
  List.dropWhile_append_of_pos (by simpa [isBlank] using hgap)

/-- A text that begins with no blank is not trimmed. -/
theorem trimStart_cons {c : Char} (hc : isBlankChar c = false) (s : Text) :
    trimStart (c :: s) = c :: s :=
  List.dropWhile_cons_of_neg (by simp [hc])

end PartialDocs.Text
