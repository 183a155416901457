import PartialDocs.Comment.Leading
import PartialDocs.Proofs.Text.Lines

/-!
# What is documentation

A comment is documentation when it begins with three slashes and no fourth one, or when it is a
block between a slash with two stars and a star with a slash whose inside is not empty and begins
with no third star (`content?_isSome_iff`).  A comment counts for a declaration when it `Reaches`
its row (`adjacentContent?_isSome_iff`).  The walk along the siblings takes such comments one by
one (`fromSiblings_cons_of_isRow`) and ends at the first other one.
-/

set_option autoImplicit false

namespace PartialDocs.Comment

open Text (position)

/-! ## Documentation lines and blocks -/

/-- Whether a text begins with three slashes and no fourth one. -/
def beginsDocLine (s : Text) : Bool :=
  "///".toList.isPrefixOf s && !"////".toList.isPrefixOf s

/-- Whether a line is a documentation line once the blanks in front are left out. -/
def isDocLine (line : Text) : Bool := beginsDocLine (Text.trimStart line)

/-- Whether a text is a documentation block. -/
def IsDocBlock (s : Text) : Prop :=
  ∃ inner, s = "/**".toList ++ (inner ++ "*/".toList) ∧ inner ≠ [] ∧ inner.head? ≠ some '*'

/-- Whether a text is a documentation comment. -/
def IsDocumentation (s : Text) : Prop := beginsDocLine s = true ∨ IsDocBlock s

variable {s : Text}

/-- A documentation line begins with three slashes, and not with four. -/
theorem beginsDocLine_iff :
    beginsDocLine s = true ↔ ∃ rest, s = "///".toList ++ rest ∧ rest.head? ≠ some '/' := by
  unfold beginsDocLine
  rw [Bool.and_eq_true, Bool.not_eq_true', ← Bool.not_eq_true, List.isPrefixOf_iff_prefix,
    List.isPrefixOf_iff_prefix]
  constructor
  · rintro ⟨⟨rest, rfl⟩, hfour⟩
    refine ⟨rest, rfl, ?_⟩
    intro hhead
    obtain ⟨rest', rfl⟩ := List.head?_eq_some_iff.1 hhead
    exact hfour ⟨rest', rfl⟩
  · rintro ⟨rest, rfl, hhead⟩
    refine ⟨⟨rest, rfl⟩, ?_⟩
    rintro ⟨rest', hrest⟩
    have hsame : '/' :: rest' = rest := (List.append_right_inj "///".toList).1 hrest
    rw [← hsame] at hhead
    exact hhead rfl

/-- What a documentation line holds behind its slashes. -/
theorem lineContent?_append {rest : Text} (h : rest.head? ≠ some '/') :
    lineContent? ("///".toList ++ rest) =
      some (Text.dropPrefix [' '] (Text.dropSuffix ['\r'] rest)) := by
  unfold lineContent?
  rw [Text.stripPrefix?_append]
  cases rest with
  | nil => rfl
  | cons c rest =>
    have hc : c ≠ '/' := by simpa using h
    split
    · rename_i heq
      cases heq
    · rename_i heq
      rw [Option.some.injEq, List.cons.injEq] at heq
      exact absurd heq.1 hc
    · rename_i heq
      rw [Option.some.injEq] at heq
      rw [← heq]

/-- Just the documentation lines have content. -/
theorem lineContent?_isSome (s : Text) : (lineContent? s).isSome = beginsDocLine s := by
  rw [Bool.eq_iff_iff, beginsDocLine_iff]
  constructor
  · intro h
    unfold lineContent? at h
    split at h
    · cases h
    · cases h
    · rename_i rest hne hrest
      refine ⟨rest, Text.stripPrefix?_eq_some_iff.1 hrest, ?_⟩
      intro hhead
      obtain ⟨rest', rfl⟩ := List.head?_eq_some_iff.1 hhead
      exact hne rest' rfl
  · rintro ⟨rest, rfl, hhead⟩
    rw [lineContent?_append hhead]
    rfl

/-- Any other line has none. -/
theorem lineContent?_eq_none_iff : lineContent? s = none ↔ beginsDocLine s = false := by
  rw [← lineContent?_isSome, Option.isSome_eq_false_iff, Option.isNone_iff_eq_none]

/-- What a documentation block holds between its markers, if it is neither empty nor begins with a
star. -/
theorem blockInner?_eq_some_iff {inner : Text} :
    blockInner? s = some inner ↔
      s = "/**".toList ++ (inner ++ "*/".toList) ∧ inner ≠ [] ∧ inner.head? ≠ some '*' := by
  have hcut : ∀ x,
      (Text.stripPrefix? "/**".toList s).bind (Text.stripSuffix? "*/".toList) = some x ↔
        s = "/**".toList ++ (x ++ "*/".toList) := by
    intro x
    rw [Option.bind_eq_some_iff]
    simp only [Text.stripPrefix?_eq_some_iff]
    constructor
    · rintro ⟨rest, rfl, hrest⟩
      unfold Text.stripSuffix? at hrest
      obtain ⟨r, hr, rfl⟩ := Option.map_eq_some_iff.1 hrest
      rw [Text.stripPrefix?_eq_some_iff] at hr
      rw [← List.reverse_reverse rest, hr, List.reverse_append, List.reverse_reverse]
    · rintro rfl
      exact ⟨_, rfl, Text.stripSuffix?_append _ _⟩
  unfold blockInner?
  split
  · rename_i hnone
    simp only [reduceCtorEq, false_iff, not_and]
    intro hs
    rw [(hcut inner).2 hs] at hnone
    cases hnone
  · rename_i hempty
    simp only [reduceCtorEq, false_iff, not_and]
    intro hs hne
    rw [(hcut inner).2 hs, Option.some.injEq] at hempty
    exact absurd hempty hne
  · rename_i rest hstar
    simp only [reduceCtorEq, false_iff, not_and, Decidable.not_not]
    intro hs hne
    rw [(hcut inner).2 hs, Option.some.injEq] at hstar
    rw [hstar]
    rfl
  · rename_i x hempty hstar hx
    rw [Option.some.injEq]
    constructor
    · rintro rfl
      refine ⟨(hcut x).1 hx, ?_, ?_⟩
      · rintro rfl
        exact hempty rfl
      · intro hhead
        obtain ⟨rest, rfl⟩ := List.head?_eq_some_iff.1 hhead
        exact hstar rest rfl
    · rintro ⟨hs, -, -⟩
      rw [(hcut inner).2 hs, Option.some.injEq] at hx
      exact hx.symm

/-- Just the documentation blocks have content. -/
theorem blockContent?_isSome_iff : (blockContent? s).isSome = true ↔ IsDocBlock s := by
  unfold blockContent? IsDocBlock
  rw [Option.isSome_map, Option.isSome_iff_exists]
  simp only [blockInner?_eq_some_iff]

/-- **A comment has a content exactly when it is a documentation comment.** -/
theorem content?_isSome_iff : (content? s).isSome = true ↔ IsDocumentation s := by
  unfold content? IsDocumentation
  rw [Option.isSome_or, Bool.or_eq_true, lineContent?_isSome, blockContent?_isSome_iff]

/-! ## Lines with blanks behind them -/

/-- What may stand between a line and its line feed. -/
def IsLineEnd (s : Text) : Prop := s = [] ∨ s = ['\r']

instance (s : Text) : Decidable (IsLineEnd s) := inferInstanceAs (Decidable (_ ∨ _))

/-- A documentation line stays one when it goes on with no further slash. -/
theorem beginsDocLine_append (h : beginsDocLine s = true) {t : Text} (ht : t.head? ≠ some '/') :
    beginsDocLine (s ++ t) = true := by
  obtain ⟨rest, rfl, hhead⟩ := beginsDocLine_iff.1 h
  rw [beginsDocLine_iff]
  refine ⟨rest ++ t, by rw [List.append_assoc], ?_⟩
  cases rest with
  | nil => exact ht
  | cons c rest => exact hhead

/-- Blanks at the end do not make a documentation line. -/
theorem beginsDocLine_append_of_isBlank {gap : Text} (hgap : Text.isBlank gap = true) (s : Text) :
    beginsDocLine (s ++ gap) = beginsDocLine s := by
  have hslash : '/' ∉ gap := fun h => Bool.false_ne_true (List.all_eq_true.1 hgap '/' h)
  rw [Bool.eq_iff_iff]
  constructor
  · rw [beginsDocLine_iff, beginsDocLine_iff]
    rintro ⟨rest, hrest, hhead⟩
    rcases List.append_eq_append_iff.1 hrest with ⟨x, hx, rfl⟩ | ⟨x, rfl, rfl⟩
    · -- no slash stands among the blanks
      have hempty : x = [] := by
        rw [List.eq_nil_iff_forall_not_mem]
        intro c hc
        have hmem : c ∈ "///".toList := by
          rw [hx]
          exact List.mem_append_right s hc
        have hc' : c = '/' := by simpa using hmem
        exact hslash (List.mem_append_left rest (hc' ▸ hc))
      rw [hempty, List.append_nil] at hx
      exact ⟨[], by rw [← hx, List.append_nil], by simp⟩
    · refine ⟨x, rfl, ?_⟩
      intro hx
      obtain ⟨y, rfl⟩ := List.head?_eq_some_iff.1 hx
      exact hhead rfl
  · exact fun h => beginsDocLine_append h fun hhead => hslash (List.mem_of_mem_head? hhead)

/-- Blanks at the end do not make a line documentation. -/
theorem isDocLine_append_of_isBlank {gap : Text} (hgap : Text.isBlank gap = true) (line : Text) :
    isDocLine (line ++ gap) = isDocLine line := by
  unfold isDocLine Text.trimStart
  rw [List.dropWhile_append]
  split
  · rename_i hempty
    rw [List.isEmpty_iff] at hempty
    rw [hempty, List.dropWhile_eq_nil_iff.2 (List.all_eq_true.1 hgap)]
  · exact beginsDocLine_append_of_isBlank hgap _

/-- A carriage return at the end does not make a documentation line. -/
theorem isDocLine_dropSuffix (line : Text) :
    isDocLine (Text.dropSuffix ['\r'] line) = isDocLine line := by
  rcases List.eq_nil_or_concat' line with rfl | ⟨line, c, rfl⟩
  · rfl
  · by_cases hc : c = '\r'
    · rw [hc, Text.dropSuffix_append, isDocLine_append_of_isBlank rfl]
    · rw [Text.dropSuffix_singleton_of_ne (by simpa using hc)]

/-- Blanks in front do not matter. -/
theorem isDocLine_append {gap : Text} (hgap : Text.isBlank gap = true) {s : Text}
    (hs : "/".toList <+: s) : isDocLine (gap ++ s) = beginsDocLine s := by
  obtain ⟨rest, rfl⟩ := hs
  unfold isDocLine
  rw [Text.trimStart_append hgap]
  exact congrArg beginsDocLine (Text.trimStart_cons rfl rest)

/-! ## Lines above a byte -/

/-- The lines above the one of a byte, from the top. -/
def linesAbove (source : Text) (offset : Nat) : List Text :=
  match Text.before? source offset with
  | none => []
  | some before => (Text.lines before).dropLast

/-- There are no documentation lines at the end where the last line is none. -/
theorem docLines_eq_nil_iff {ls : List Text} :
    docLines ls = [] ↔ ∀ line ∈ ls.head?, isDocLine line = false := by
  cases ls with
  | nil => simp [docLines]
  | cons line ls =>
    have hsome := lineContent?_isSome (Text.trimStart (Text.dropSuffix ['\r'] line))
    have hdoc : beginsDocLine (Text.trimStart (Text.dropSuffix ['\r'] line)) = isDocLine line :=
      isDocLine_dropSuffix line
    rw [hdoc] at hsome
    rw [docLines, List.head?_cons]
    cases hcontent : lineContent? (Text.trimStart (Text.dropSuffix ['\r'] line)) with
    | none =>
      rw [hcontent] at hsome
      simpa using hsome.symm
    | some content =>
      rw [hcontent] at hsome
      simp [← hsome]

variable {source before : Text} {offset : Nat}

/-- A byte starts its line when only blanks stand before it there. -/
theorem startsLine_of_before? (h : Text.before? source offset = some before) :
    startsLine source offset = Text.isBlank (Text.lastLine before) := by
  unfold startsLine
  rw [h]
  rfl

/-- A byte behind a slash in its line is not the first thing on it. -/
theorem startsLine_of_slash {text : Text}
    (h : Text.before? source offset = some (before ++ text)) (hslash : '/' ∈ text)
    (hfeed : '\n' ∉ text) : startsLine source offset = false := by
  have hblank : Text.isBlank text = false :=
    Bool.eq_false_iff.2 fun h => Bool.false_ne_true (List.all_eq_true.1 h '/' hslash)
  rw [startsLine_of_before? h, Text.lastLine_append before hfeed, Text.isBlank_append, hblank,
    Bool.and_false]

/-- The lines above a byte. -/
theorem linesAbove_of_before? {last : Text}
    (h : Text.before? source offset = some (before ++ '\n' :: last)) (hlast : '\n' ∉ last) :
    linesAbove source offset = Text.lines before := by
  unfold linesAbove
  rw [h]
  exact Text.dropLast_lines_append_lineFeed before hlast

/-- Where there are lines above a byte, a line feed stands before it. -/
theorem exists_before?_of_linesAbove (h : linesAbove source offset ≠ []) :
    ∃ above last, Text.before? source offset = some (above ++ '\n' :: last) ∧ '\n' ∉ last := by
  unfold linesAbove at h
  cases hbefore : Text.before? source offset with
  | none =>
    rw [hbefore] at h
    exact absurd rfl h
  | some before =>
    rcases Text.exists_lastLine before with hone | ⟨above, habove⟩
    · simp only [hbefore, Text.lines_of_not_mem hone] at h
      exact absurd rfl h
    · exact ⟨above, _, congrArg some habove, Text.not_mem_lastLine before⟩

/-- The line right above a byte that follows a line feed. -/
theorem getLast?_linesAbove {gap : Text} (h : Text.before? source offset = some (before ++ gap))
    (hfeed : '\n' ∈ gap) :
    ∃ above, gap = above ++ '\n' :: Text.lastLine gap ∧
      (linesAbove source offset).getLast? = some (Text.lastLine (before ++ above)) := by
  obtain ⟨above, habove⟩ := (Text.exists_lastLine gap).resolve_left fun h => h hfeed
  refine ⟨above, habove, ?_⟩
  rw [habove, ← List.append_assoc] at h
  rw [linesAbove_of_before? h (Text.not_mem_lastLine gap), Text.lines_eq, List.getLast?_concat]

/-- A byte that starts its line has a text before it, whose last line is blank. -/
theorem startsLine_iff :
    startsLine source offset = true ↔
      ∃ before, Text.before? source offset = some before ∧
        Text.isBlank (Text.lastLine before) = true := by
  unfold startsLine
  rw [Option.any_eq_true]

/-- The documentation lines above a byte that starts its line. -/
theorem fromLines_eq (first : startsLine source offset = true) :
    fromLines source offset = (docLines (linesAbove source offset).reverse).reverse := by
  obtain ⟨before, hbefore, hblank⟩ := startsLine_iff.1 first
  unfold fromLines linesAbove
  rw [hbefore]
  exact if_pos hblank

/-! ## Comments that count for a row -/

/-- Whether a node is a documentation comment that stands first on its line and ends at most one
row above the given one. -/
structure Reaches (source : Text) (row : Nat) (t : Tree) : Prop where
  comment : t.kind = "comment"
  adjacent : row ≤ (position source t.stop).row + 1
  first : startsLine source t.start = true
  documentation : ∃ text, Text.slice? source t.start t.stop = some text ∧ IsDocumentation text

variable {row : Nat} {t : Tree}

/-- Just the comments that reach a row have content for it. -/
theorem adjacentContent?_isSome_iff :
    (adjacentContent? source row t).isSome = true ↔ Reaches source row t := by
  unfold adjacentContent?
  constructor
  · intro h
    split at h
    · rename_i hcond
      simp only [Bool.and_eq_true, beq_iff_eq, decide_eq_true_eq] at hcond
      rw [Option.isSome_iff_exists] at h
      obtain ⟨content, hcontent⟩ := h
      obtain ⟨text, htext, hcontent⟩ := Option.bind_eq_some_iff.1 hcontent
      exact ⟨hcond.1.1, hcond.1.2, hcond.2, text, htext,
        content?_isSome_iff.1 (Option.isSome_iff_exists.2 ⟨content, hcontent⟩)⟩
    · cases h
  · rintro ⟨hkind, hrow, hfirst, text, htext, hdoc⟩
    rw [if_pos (by simp [hkind, hrow, hfirst]), htext]
    exact content?_isSome_iff.2 hdoc

/-- Where the nearest sibling does not reach, there is nothing to read. -/
theorem fromSiblings_of_not_reaches {siblings : List Tree}
    (h : ∀ t ∈ siblings.head?, ¬ Reaches source row t) : fromSiblings source row siblings = [] := by
  cases siblings with
  | nil => rfl
  | cons t ts =>
    have hnone : adjacentContent? source row t = none := by
      rw [← Option.not_isSome_iff_eq_none, adjacentContent?_isSome_iff]
      exact h t rfl
    rw [fromSiblings, hnone]

/-! ## Comments of one line -/

/-- Whether a node is a documentation comment of one line that stands first on its row. -/
structure IsRow (source : Text) (row : Nat) (t : Tree) (content : Text) : Prop where
  comment : t.kind = "comment"
  first : startsLine source t.start = true
  row : (position source t.start).row = row
  text : ∃ text, Text.slice? source t.start t.stop = some text ∧ '\n' ∉ text ∧
    lineContent? text = some content

/-- A comment of one line counts for the row below it. -/
theorem fromSiblings_cons_of_isRow {content : Text} (h : IsRow source row t content)
    (ts : List Tree) :
    fromSiblings source (row + 1) (t :: ts) = fromSiblings source row ts ++ [content] := by
  obtain ⟨hkind, hfirst, hrow, text, htext, hfeed, hcontent⟩ := h
  have hstop : (position source t.stop).row = row := by
    rw [Text.row_of_slice? htext, List.count_eq_zero.2 hfeed, hrow, Nat.add_zero]
  have hadjacent : adjacentContent? source (row + 1) t = some content := by
    unfold adjacentContent? content?
    rw [if_pos (by simp [hkind, hstop, hfirst]), htext, Option.bind_some, hcontent]
    rfl
  rw [fromSiblings, hadjacent, hrow]

end PartialDocs.Comment
