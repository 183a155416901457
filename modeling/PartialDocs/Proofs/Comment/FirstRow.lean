import PartialDocs.Comment.Leading
import PartialDocs.Proofs.Syntax.Shift
import PartialDocs.Proofs.Text.ByteOrderMark

/-!
# Documentation on the first row

A documentation comment must stand first on its line, and a byte order mark is something
that stands before it.  So documentation that begins on the first row of a text is read as
if it were not there once a mark stands in front (`above?_mark`).
-/

set_option autoImplicit false

namespace PartialDocs.Comment

open Text (mark position)

/-! ## Documentation by nodes -/

/-- The documentation comments that reach the given row with their nodes, nearest first. -/
def siblingRun (source : Text) (row : Nat) : List Tree → List (Tree × Text)
  | [] => []
  | t :: ts =>
    match adjacentContent? source row t with
    | none => []
    | some block => (t, block) :: siblingRun source (position source t.start).row ts

/-- What is read from the siblings, those above first. -/
theorem fromSiblings_eq (source : Text) (row : Nat) (ts : List Tree) :
    fromSiblings source row ts = ((siblingRun source row ts).map Prod.snd).reverse := by
  induction ts generalizing row with
  | nil => rfl
  | cons t ts ih =>
    unfold fromSiblings siblingRun
    cases adjacentContent? source row t with
    | none => rfl
    | some block =>
      simp only
      rw [ih, List.map_cons, List.reverse_cons]

/-- Whether a documentation comment begins below the first row. -/
def isBelowFirst (source : Text) (x : Tree × Text) : Bool :=
  decide ((position source x.1.start).row ≠ 0)

variable (source : Text) (offset : Nat) (siblings : List Tree)

/-- Behind a mark a byte starts its line unless it is in the first row. -/
theorem startsLine_mark :
    startsLine (mark :: source) (offset + 3) =
      (startsLine source offset && decide ((position source offset).row ≠ 0)) := by
  unfold startsLine position
  rw [Text.before?_mark]
  cases Text.before? source offset with
  | none => rfl
  | some before =>
    simp only [Option.map_some, Option.any_some, Option.getD_some]
    exact Text.isBlank_lastLine_mark before

/-- Behind a mark a comment in the first row has no content, and any other one its own. -/
theorem adjacentContent?_mark (row : Nat) (t : Tree) :
    adjacentContent? (mark :: source) row (t.shift 3) =
      if (position source t.start).row ≠ 0 then adjacentContent? source row t else none := by
  unfold adjacentContent?
  rw [Tree.kind_shift, Tree.start_shift, Tree.stop_shift, Text.row_mark, startsLine_mark,
    Text.slice?_mark]
  by_cases hrow : (position source t.start).row ≠ 0
  · rw [if_pos hrow, decide_eq_true hrow, Bool.and_true]
  · rw [if_neg hrow, decide_eq_false hrow, Bool.and_false, Bool.and_false]
    rfl

/-- Behind a mark the run of comments ends before the first row. -/
theorem siblingRun_mark (row : Nat) (ts : List Tree) :
    siblingRun (mark :: source) row (ts.map (Tree.shift 3)) =
      ((siblingRun source row ts).takeWhile (isBelowFirst source)).map
        fun x => (x.1.shift 3, x.2) := by
  induction ts generalizing row with
  | nil => rfl
  | cons t ts ih =>
    rw [List.map_cons, siblingRun, siblingRun, adjacentContent?_mark]
    by_cases hrow : (position source t.start).row ≠ 0
    · rw [if_pos hrow]
      cases adjacentContent? source row t with
      | none => rfl
      | some block =>
        have hbelow : isBelowFirst source (t, block) = true := decide_eq_true hrow
        simp only
        rw [Tree.start_shift, Text.row_mark, ih, List.takeWhile_cons_of_pos hbelow, List.map_cons]
    · rw [if_neg hrow]
      cases adjacentContent? source row t with
      | none => rfl
      | some block =>
        have hfirst : ¬ isBelowFirst source (t, block) = true := by
          unfold isBelowFirst
          simpa using hrow
        simp only
        rw [List.takeWhile_cons_of_neg hfirst, List.map_nil]

/-! ## Documentation by lines -/

/-- There are no more documentation lines than lines. -/
theorem length_docLines_le (ls : List Text) : (docLines ls).length ≤ ls.length := by
  induction ls with
  | nil => exact Nat.le_refl 0
  | cons l ls ih =>
    unfold docLines
    split
    · exact Nat.zero_le _
    · exact Nat.succ_le_succ ih

/-- Further lines count where all lines before them are documentation. -/
theorem docLines_append (ls ms : List Text) :
    docLines (ls ++ ms) =
      docLines ls ++ if (docLines ls).length = ls.length then docLines ms else [] := by
  induction ls with
  | nil => simp [docLines]
  | cons l ls ih =>
    rw [List.cons_append, docLines, docLines]
    split
    · simp
    · rw [ih, List.cons_append, List.length_cons, List.length_cons]
      simp only [Nat.add_right_cancel_iff]

/-- A line behind a mark keeps the mark without its carriage return. -/
theorem exists_dropSuffix_mark (line : Text) :
    ∃ rest, Text.dropSuffix ['\r'] (mark :: line) = mark :: rest := by
  unfold Text.dropSuffix
  cases hsuffix : Text.stripSuffix? ['\r'] (mark :: line) with
  | none => exact ⟨line, rfl⟩
  | some s =>
    unfold Text.stripSuffix? at hsuffix
    rw [Option.map_eq_some_iff] at hsuffix
    obtain ⟨r, hr, rfl⟩ := hsuffix
    rw [Text.stripPrefix?_eq_some_iff, List.reverse_singleton] at hr
    have hline : mark :: line = r.reverse ++ ['\r'] := by
      rw [← List.reverse_reverse (mark :: line), hr]
      simp
    cases hrest : r.reverse with
    | nil =>
      rw [hrest] at hline
      exact absurd (List.cons.inj hline).1 (by decide)
    | cons c rest =>
      rw [hrest] at hline
      rw [← (List.cons.inj hline).1]
      exact ⟨rest, rfl⟩

/-- A line behind a mark is no documentation line. -/
theorem docLines_mark (line : Text) : docLines [mark :: line] = [] := by
  obtain ⟨rest, hrest⟩ := exists_dropSuffix_mark line
  have htrim : Text.trimStart (mark :: rest) = mark :: rest := by
    unfold Text.trimStart
    rw [List.dropWhile_cons_of_neg (by rw [Text.isBlankChar_mark]; simp)]
  have hnone : lineContent? (mark :: rest) = none := by
    unfold lineContent?
    rw [show Text.stripPrefix? "///".toList (mark :: rest) = none from rfl]
  rw [docLines, hrest, htrim, hnone]

/-- Behind a mark the first line is lost, and with it nothing else. -/
theorem docLines_reverse_mark (first : Text) (ls : List Text) :
    (docLines ((mark :: first) :: ls).reverse).reverse =
      if (docLines (first :: ls).reverse).length = ls.length + 1 then
        (docLines (first :: ls).reverse).reverse.tail
      else (docLines (first :: ls).reverse).reverse := by
  rw [List.reverse_cons, List.reverse_cons, docLines_append, docLines_append, docLines_mark]
  by_cases hall : (docLines ls.reverse).length = ls.reverse.length
  · rw [if_pos hall, if_pos hall, List.append_nil, List.length_append, hall, List.length_reverse]
    have hone := length_docLines_le [first]
    match hfirst : docLines [first] with
    | [] => simp
    | [content] => simp
    | _ :: _ :: _ =>
      rw [hfirst, List.length_cons, List.length_cons, List.length_singleton] at hone
      omega
  · have hle := length_docLines_le ls.reverse
    rw [List.length_reverse] at hle
    rw [if_neg hall, if_neg hall, List.append_nil, if_neg (by omega)]

/-- The documentation lines right above, without one on the first row. -/
def linesBelowFirst : List Text :=
  if (fromLines source offset).length = (position source offset).row then
    (fromLines source offset).tail
  else fromLines source offset

/-- Behind a mark the line scan reads the lines below the first one. -/
theorem fromLines_mark :
    fromLines (mark :: source) (offset + 3) = linesBelowFirst source offset := by
  unfold linesBelowFirst fromLines position
  rw [Text.before?_mark]
  cases Text.before? source offset with
  | none => rfl
  | some before =>
    have hlength := Text.length_lines before
    simp only [Option.map_some, Option.getD_some]
    rw [Text.isBlank_lastLine_mark, Text.lines_mark]
    obtain ⟨first, ls, hlines⟩ := List.exists_cons_of_ne_nil (Text.splitOn_ne_nil '\n' before)
    have hcut : Text.lines before = first :: ls := hlines
    rw [hcut, List.length_cons] at hlength
    rw [hcut]
    cases hblank : Text.isBlank (Text.lastLine before) with
    | false => simp
    | true =>
      by_cases hrow : before.count '\n' = 0
      · have hnil : ls = [] := List.length_eq_zero_iff.1 (by omega)
        rw [hrow, hnil]
        rfl
      · have hne : ls ≠ [] := by
          rintro rfl
          rw [List.length_nil] at hlength
          omega
        have hrows : before.count '\n' = ls.dropLast.length + 1 := by
          have hpos := List.length_pos_iff.2 hne
          rw [List.length_dropLast]
          omega
        have hmark := docLines_reverse_mark first ls.dropLast
        rw [decide_eq_true hrow, Bool.and_self, if_pos rfl, if_pos rfl, Text.consFirst,
          List.dropLast_cons_of_ne_nil hne, List.dropLast_cons_of_ne_nil hne, hmark,
          List.length_reverse, hrows]

/-! ## All documentation -/

/-- The documentation above a node without what begins on the first row. -/
def belowFirst? : Option Text :=
  let run := (siblingRun source (position source offset).row siblings).takeWhile
    (isBelowFirst source)
  let blocks :=
    if run.isEmpty then linesBelowFirst source offset else (run.map Prod.snd).reverse
  if blocks.isEmpty then none else some (Text.unlines blocks)

/-- **Behind a mark a node has the documentation that does not begin on the first row.** -/
theorem above?_mark :
    above? (mark :: source) (offset + 3) (siblings.map (Tree.shift 3)) =
      belowFirst? source offset siblings := by
  unfold above? leading belowFirst?
  rw [Text.row_mark, fromSiblings_eq, siblingRun_mark, fromLines_mark, List.map_map]
  simp only [List.isEmpty_reverse, List.isEmpty_map]
  rfl

/-- Whether some of the documentation above a node begins on the first row. -/
def ReachesFirst : Prop :=
  (∃ x ∈ siblingRun source (position source offset).row siblings,
    (position source x.1.start).row = 0) ∨
  (siblingRun source (position source offset).row siblings = [] ∧
    (position source offset).row ≠ 0 ∧
    (fromLines source offset).length = (position source offset).row)

instance : Decidable (ReachesFirst source offset siblings) :=
  inferInstanceAs (Decidable (_ ∨ _ = [] ∧ _ ∧ _))

/-- A comment that does not reach the first row is read as before. -/
theorem belowFirst?_of_not_reaches (h : ¬ ReachesFirst source offset siblings) :
    belowFirst? source offset siblings = above? source offset siblings := by
  unfold ReachesFirst at h
  rw [not_or] at h
  obtain ⟨hnodes, hlines⟩ := h
  have hrun : (siblingRun source (position source offset).row siblings).takeWhile
      (isBelowFirst source) = siblingRun source (position source offset).row siblings := by
    rw [List.takeWhile_eq_self_iff]
    intro x hx
    apply decide_eq_true
    intro hrow
    exact hnodes ⟨x, hx, hrow⟩
  unfold belowFirst? above? leading
  rw [hrun, fromSiblings_eq]
  simp only [List.isEmpty_reverse, List.isEmpty_map]
  cases hsiblings : siblingRun source (position source offset).row siblings with
  | cons x xs => rfl
  | nil =>
    have hsame : linesBelowFirst source offset = fromLines source offset := by
      unfold linesBelowFirst
      split
      · rename_i hlength
        have hzero : (position source offset).row = 0 := by
          apply Decidable.byContradiction
          intro hrow
          exact hlines ⟨hsiblings, hrow, hlength⟩
        rw [hzero] at hlength
        rw [List.length_eq_zero_iff.1 hlength]
        rfl
      · rfl
    simp only [List.isEmpty_nil, if_true]
    rw [hsame]

end PartialDocs.Comment
