import PartialDocs.Compilation
import PartialDocs.Proofs.Comment.Documentation
import PartialDocs.Proofs.Syntax.Nodes

/-!
# Documentation as it is written

Documentation is written in one of two ways: with three slashes and a space in front of every line,
each line a comment of its own, or as one block with blanks, a star and a space in front of every
line.  Either way the lines come back as they were, with every blank and whatever marks they hold
(`comment_of_written`).
-/

set_option autoImplicit false

namespace PartialDocs

open Text (position)

namespace Comment

/-- Blanks within a line. -/
def IsMargin (s : Text) : Prop := Text.isBlank s = true ∧ '\n' ∉ s

/-- A line without line breaks and carriage returns. -/
def IsPlain (s : Text) : Prop := '\n' ∉ s ∧ '\r' ∉ s

instance (s : Text) : Decidable (IsMargin s) := inferInstanceAs (Decidable (_ ∧ _))

instance (s : Text) : Decidable (IsPlain s) := inferInstanceAs (Decidable (_ ∧ _))

/-- The end of a line is a margin. -/
theorem IsLineEnd.isMargin {s : Text} (h : IsLineEnd s) : IsMargin s := by
  rcases h with rfl | rfl <;> decide

/-- The end of a line is dropped from plain content. -/
theorem dropSuffix_isLineEnd {content ending : Text} (plain : IsPlain content)
    (hending : IsLineEnd ending) : Text.dropSuffix ['\r'] (content ++ ending) = content := by
  rcases hending with rfl | rfl
  · rw [List.append_nil]
    exact Text.dropSuffix_singleton_of_ne fun h => plain.2 (List.mem_of_getLast? h)
  · exact Text.dropSuffix_append _ _

/-! ## One comment a line -/

/-- A comment that holds one line behind three slashes and a space. -/
structure HoldsLine (source : Text) (row : Nat) (t : Tree) (content : Text) : Prop where
  comment : t.kind = "comment"
  first : startsLine source t.start = true
  row : (position source t.start).row = row
  text : ∃ ending, IsLineEnd ending ∧
    Text.slice? source t.start t.stop = some ("/// ".toList ++ (content ++ ending))

/-- Comments in neighbouring rows, nearest first, of which the furthest stands in the row `top`. -/
inductive Rows (P : Nat → Tree → Text → Prop) (top : Nat) : List Tree → List Text → Prop
  | nil : Rows P top [] []
  | cons {t : Tree} {ts : List Tree} {content : Text} {contents : List Text} :
      P (top + ts.length) t content → Rows P top ts contents →
        Rows P top (t :: ts) (content :: contents)

variable {source : Text} {top row : Nat} {t : Tree} {content : Text}

/-- A written documentation line has the content that was written. -/
theorem lineContent?_written (plain : IsPlain content) {ending : Text}
    (hending : IsLineEnd ending) :
    lineContent? ("/// ".toList ++ (content ++ ending)) = some content := by
  have hhead : (' ' :: (content ++ ending)).head? ≠ some '/' := by simp
  have hline := lineContent?_append hhead
  have hdrop : Text.dropSuffix ['\r'] (' ' :: (content ++ ending)) = ' ' :: content := by
    have hplain : IsPlain (' ' :: content) := by simpa [IsPlain] using plain
    exact dropSuffix_isLineEnd hplain hending
  rw [hdrop] at hline
  exact hline.trans (congrArg some (Text.dropPrefix_append [' '] content))

/-- A line of plain content is a row. -/
theorem HoldsLine.isRow (h : HoldsLine source row t content) (plain : IsPlain content) :
    IsRow source row t content := by
  obtain ⟨hkind, hfirst, hrow, ending, hending, htext⟩ := h
  refine ⟨hkind, hfirst, hrow, _, htext, ?_, lineContent?_written plain hending⟩
  have hfeed := hending.isMargin.2
  simp [plain.1, hfeed]

/-- The walk takes comments in neighbouring rows one by one. -/
theorem fromSiblings_append_of_rows {ts : List Tree} {contents : List Text}
    (h : Rows (IsRow source) top ts contents) (before : List Tree) :
    fromSiblings source (top + ts.length) (ts ++ before) =
      fromSiblings source top before ++ contents.reverse := by
  induction h with
  | nil => simp
  | cons hrow _ ih =>
    rw [List.length_cons, ← Nat.add_assoc, List.cons_append, fromSiblings_cons_of_isRow hrow, ih,
      List.reverse_cons, List.append_assoc]

/-- Lines of plain content are rows. -/
theorem Rows.isRow {ts : List Tree} {contents : List Text}
    (h : Rows (HoldsLine source) top ts contents) (plain : ∀ c ∈ contents, IsPlain c) :
    Rows (IsRow source) top ts contents := by
  induction h with
  | nil => exact .nil
  | cons hline _ ih =>
    obtain ⟨hplain, hrest⟩ := List.forall_mem_cons.1 plain
    exact .cons (hline.isRow hplain) (ih hrest)

/-- There is a comment for each row. -/
theorem Rows.length_eq {P : Nat → Tree → Text → Prop} {ts : List Tree} {contents : List Text}
    (h : Rows P top ts contents) : ts.length = contents.length := by
  induction h with
  | nil => rfl
  | cons _ _ ih => rw [List.length_cons, List.length_cons, ih]

/-! ## A block of starred lines -/

/-- A line of a block: blanks, a star, a space, the content and the end of the line. -/
structure StarredLine where
  margin : Text
  content : Text
  ending : Text

namespace StarredLine

/-- A later line of a block as it is written. -/
def text (l : StarredLine) : Text := l.margin ++ ("* ".toList ++ (l.content ++ l.ending))

/-- Whether a later line of a block is written as it should be: a margin in front, an ending behind.
-/
structure Proper (l : StarredLine) : Prop where
  margin : IsMargin l.margin
  ending : IsLineEnd l.ending

variable {l : StarredLine}

/-- A later line stays in one line. -/
theorem Proper.not_mem_text (h : l.Proper) (plain : IsPlain l.content) : '\n' ∉ l.text := by
  have hmargin := h.margin.2
  have hending := h.ending.isMargin.2
  simp [text, hmargin, plain.1, hending]

/-- The content comes back whatever it begins with. -/
theorem Proper.blockLineContent_eq (h : l.Proper) (plain : IsPlain l.content) :
    blockLineContent (Text.dropSuffix ['\r'] l.text) = l.content := by
  have hplain : IsPlain ("* ".toList ++ l.content) := by simpa [IsPlain] using plain
  have hdrop : Text.dropSuffix ['\r'] l.text = l.margin ++ ("* ".toList ++ l.content) := by
    have hne : "* ".toList ++ (l.content ++ l.ending) ≠ [] := List.cons_ne_nil '*' _
    unfold text
    rw [Text.dropSuffix_singleton_append _ _ hne, ← List.append_assoc,
      dropSuffix_isLineEnd hplain h.ending]
  have htrim : Text.trimStart (l.margin ++ ("* ".toList ++ l.content)) =
      '*' :: ' ' :: l.content := by
    rw [Text.trimStart_append h.margin.1]
    exact Text.trimStart_cons rfl _
  unfold blockLineContent
  rw [hdrop, htrim]
  exact Text.dropPrefix_append [' '] l.content

end StarredLine

/-- A block of starred lines between a line that opens it and one that closes it. -/
def blockText (opening : Text) (lines : List StarredLine) (closing : Text) : Text :=
  "/**".toList ++ (Text.unlines (opening :: (lines.map StarredLine.text ++ [closing])) ++
    "*/".toList)

/-- A comment that holds lines as a block. -/
structure HoldsBlock (source : Text) (t : Tree) (contents : List Text) : Prop where
  comment : t.kind = "comment"
  first : startsLine source t.start = true
  text : ∃ opening lines closing,
    Text.slice? source t.start t.stop = some (blockText opening lines closing) ∧
    IsLineEnd opening ∧ (∀ l ∈ lines, l.Proper) ∧ IsMargin closing ∧
    lines.map StarredLine.content = contents

/-- The contents of the later lines, of which the last one is blank. -/
theorem laterLines_concat (ls : List Text) {last : Text} (hlast : Text.isBlank last = true) :
    laterLines (ls ++ [last]) = ls.map blockLineContent := by
  induction ls with
  | nil =>
    rw [List.nil_append, laterLines, if_pos hlast]
    rfl
  | cons l ls ih =>
    obtain ⟨next, rest, hnext⟩ :=
      List.exists_cons_of_ne_nil (List.append_ne_nil_of_right_ne_nil ls (List.cons_ne_nil last []))
    rw [List.cons_append, hnext, laterLines, ← hnext, ih, List.map_cons]

/-- The lines of a block without a blank first line and a blank last one. -/
theorem blockLines_around {first last : Text} (hfirst : Text.isBlank first = true)
    (ls : List Text) (hlast : Text.isBlank last = true) :
    blockLines (first :: (ls ++ [last])) = ls.map blockLineContent := by
  obtain ⟨next, rest, hnext⟩ :=
    List.exists_cons_of_ne_nil (List.append_ne_nil_of_right_ne_nil ls (List.cons_ne_nil last []))
  rw [hnext, blockLines, if_pos hfirst, ← hnext, laterLines_concat ls hlast, List.nil_append]

/-- A blank line is blank without its carriage return. -/
theorem isBlank_dropSuffix {s : Text} (h : Text.isBlank s = true) :
    Text.isBlank (Text.dropSuffix ['\r'] s) = true := by
  rcases List.eq_nil_or_concat' s with rfl | ⟨s, c, rfl⟩
  · exact h
  · by_cases hc : c = '\r'
    · rw [hc, Text.dropSuffix_append]
      rw [Text.isBlank, List.all_append, Bool.and_eq_true] at h
      exact h.1
    · rwa [Text.dropSuffix_singleton_of_ne (by simpa using hc)]

/-- **The lines of a block come back as they were.** -/
theorem content?_blockText {opening closing : Text} {lines : List StarredLine}
    (hopening : IsLineEnd opening) (hclosing : IsMargin closing)
    (proper : ∀ l ∈ lines, l.Proper) (plain : ∀ l ∈ lines, IsPlain l.content) :
    content? (blockText opening lines closing) =
      some (Text.unlines (lines.map StarredLine.content)) := by
  let rows := opening :: (lines.map StarredLine.text ++ [closing])
  have hrows : ∀ row ∈ rows, '\n' ∉ row := by
    intro row hrow
    rcases List.mem_cons.1 hrow with rfl | hrow
    · exact hopening.isMargin.2
    · rcases List.mem_append.1 hrow with hrow | hrow
      · obtain ⟨l, hl, rfl⟩ := List.mem_map.1 hrow
        exact (proper l hl).not_mem_text (plain l hl)
      · rw [List.mem_singleton.1 hrow]
        exact hclosing.2
  have hinner : blockInner? (blockText opening lines closing) = some (Text.unlines rows) := by
    obtain ⟨next, rest, hnext⟩ := List.exists_cons_of_ne_nil
      (List.append_ne_nil_of_right_ne_nil (lines.map StarredLine.text)
        (List.cons_ne_nil closing []))
    have hopens : Text.unlines rows = opening ++ '\n' :: Text.unlines (next :: rest) := by
      show Text.unlines (opening :: (lines.map StarredLine.text ++ [closing])) = _
      rw [hnext, ← List.singleton_append, Text.unlines_append (by simp) (by simp)]
      rfl
    rw [blockInner?_eq_some_iff]
    refine ⟨rfl, ?_, ?_⟩
    · rw [hopens]
      simp
    · rw [hopens]
      rcases hopening with rfl | rfl <;> simp
  have hcontents : lines.map (fun l => blockLineContent (Text.dropSuffix ['\r'] l.text)) =
      lines.map StarredLine.content :=
    List.map_congr_left fun l hl => (proper l hl).blockLineContent_eq (plain l hl)
  have hnone : lineContent? (blockText opening lines closing) = none := rfl
  unfold content? blockContent?
  rw [hnone, hinner, Option.none_or, Option.map_some,
    Text.lines_unlines (List.cons_ne_nil _ _) hrows]
  show some (Text.unlines (blockLines
    ((opening :: (lines.map StarredLine.text ++ [closing])).map (Text.dropSuffix ['\r'])))) = _
  rw [List.map_cons, List.map_append, List.map_map, List.map_singleton,
    blockLines_around (isBlank_dropSuffix hopening.isMargin.1) _ (isBlank_dropSuffix hclosing.1),
    List.map_map]
  exact congrArg (fun ls => some (Text.unlines ls)) hcontents

/-- A block right above a row is read as its lines. -/
theorem HoldsBlock.fromSiblings_cons {contents : List Text} (h : HoldsBlock source t contents)
    (plain : ∀ c ∈ contents, IsPlain c) (adjacent : row ≤ (position source t.stop).row + 1)
    (before : List Tree) :
    fromSiblings source row (t :: before) =
      fromSiblings source (position source t.start).row before ++ [Text.unlines contents] := by
  obtain ⟨hkind, hfirst, opening, lines, closing, htext, hopening, proper, hclosing, rfl⟩ := h
  have hadjacent : adjacentContent? source row t =
      some (Text.unlines (lines.map StarredLine.content)) := by
    unfold adjacentContent?
    rw [if_pos (by simp [hkind, hfirst, adjacent]), htext, Option.bind_some,
      content?_blockText hopening hclosing proper (List.forall_mem_map.1 plain)]
  rw [fromSiblings, hadjacent]

/-! ## Reading what is written -/

/-- The siblings before a node, nearest first, of which the first ones hold the given lines right
above it, with no further documentation right above these. -/
inductive WrittenAbove (source : Text) (offset : Nat) (contents : List Text) : List Tree → Prop
  /-- One comment a line, in neighbouring rows. -/
  | lines {top : Nat} {comments before : List Tree} :
      (position source offset).row = top + contents.length →
      Rows (HoldsLine source) top comments contents.reverse →
      (∀ t ∈ before.head?, ¬ Reaches source top t) →
      WrittenAbove source offset contents (comments ++ before)
  /-- One block for all lines. -/
  | block {t : Tree} {before : List Tree} :
      HoldsBlock source t contents →
      (position source offset).row ≤ (position source t.stop).row + 1 →
      (∀ u ∈ before.head?, ¬ Reaches source (position source t.start).row u) →
      WrittenAbove source offset contents (t :: before)

/-- What was written above a declaration is read there. -/
theorem WrittenAbove.above?_eq {offset : Nat} {contents : List Text} {siblings : List Tree}
    (h : WrittenAbove source offset contents siblings) (ne : contents ≠ [])
    (plain : ∀ c ∈ contents, IsPlain c) :
    above? source offset siblings = some (Text.unlines contents) := by
  unfold above? leading
  cases h with
  | @lines top comments before hrow hcomments hbefore =>
    have hplain : ∀ c ∈ contents.reverse, IsPlain c := fun c hc =>
      plain c (List.mem_reverse.1 hc)
    have hwalk := fromSiblings_append_of_rows (hcomments.isRow hplain) before
    rw [hcomments.length_eq, List.length_reverse, fromSiblings_of_not_reaches hbefore,
      List.nil_append, List.reverse_reverse] at hwalk
    rw [hrow, hwalk]
    simp [ne]
  | block hblock hrow hbefore =>
    rw [hblock.fromSiblings_cons plain hrow, fromSiblings_of_not_reaches hbefore]
    rfl

end Comment

variable {f : SourceFile} {p : Piece} {siblings : List Tree} {contents : List Text}

/-- **Documentation comes back as it was written**, line by line or as a block. -/
theorem SourceFile.comment_of_written
    (found : f.tree.precedingSiblings? p.nodeKind p.offset p.stop = some siblings)
    (ne : contents ≠ []) (plain : ∀ c ∈ contents, Comment.IsPlain c)
    (written : Comment.WrittenAbove f.text p.offset contents siblings) :
    f.comment p = .ok (some (Text.unlines contents)) := by
  unfold SourceFile.comment
  rw [found]
  exact congrArg Except.ok (written.above?_eq ne plain)

/-! ## A class with both ways of writing -/

/-- Three comments of one line each. -/
def commentLines : List Tree :=
  [.named "comment" 32 44 none [], .named "comment" 26 30 none [], .named "comment" 14 21 none []]

/-- A method that is documented line by line. -/
def methodM : Tree := .named "method_declaration" 49 61 none []

/-- A comment over several lines. -/
def commentBlock : Tree := .named "comment" 66 103 none []

/-- A class with two methods, of which one is documented line by line and one by a block. -/
def documentedMethods : SourceFile where
  path := "file0.cs".toList
  text :=
    "class A\n\x7b\n    /// * a\n    /// \n\t///  / */ b \n    void M() \x7b \x7d\n".toList ++
      "    /**\n     * ** a /*\n\t*  /// b\t\n     */\n    void N() \x7b \x7d\n\x7d\n".toList
  tree :=
    .named "compilation_unit" 0 123 none
      [.named "class_declaration" 0 122 none
        [.token "class" 0 5, .named "identifier" 6 7 (some "name") [],
         .named "declaration_list" 8 122 (some "body")
          ([.token "\x7b" 8 9] ++ commentLines.reverse ++
            [methodM, commentBlock, .named "method_declaration" 108 120 none [],
             .token "\x7d" 121 122])]]

/-- Lines that look like markers themselves come back either way. -/
theorem SourceFile.comment_of_written_markers :
    Comment.WrittenAbove documentedMethods.text 49 ["* a".toList, [], " / */ b ".toList]
      (commentLines ++ [.token "\x7b" 8 9]) ∧
    documentedMethods.comment ⟨0, 49, 61, 5, 4, "method_declaration", .whole⟩ =
      .ok (some "* a\n\n / */ b ".toList) ∧
    Comment.WrittenAbove documentedMethods.text 108 ["** a /*".toList, " /// b\t".toList]
      (commentBlock :: methodM :: (commentLines ++ [.token "\x7b" 8 9])) ∧
    documentedMethods.comment ⟨0, 108, 120, 10, 4, "method_declaration", .whole⟩ =
      .ok (some "** a /*\n /// b\t".toList) := by
  have hlines : Comment.WrittenAbove documentedMethods.text 49
      ["* a".toList, [], " / */ b ".toList] (commentLines ++ [.token "\x7b" 8 9]) := by
    refine @Comment.WrittenAbove.lines _ _ _ 2 commentLines _ (by decide +kernel) ?_ ?_
    · show Comment.Rows _ 2 commentLines [" / */ b ".toList, [], "* a".toList]
      refine .cons ?_ (.cons ?_ (.cons ?_ .nil))
      all_goals exact ⟨rfl, by decide +kernel, by decide +kernel, [], .inl rfl, by decide +kernel⟩
    · rintro t ⟨⟩ hreaches
      exact absurd hreaches.comment (by decide)
  have hblock : Comment.WrittenAbove documentedMethods.text 108
      ["** a /*".toList, " /// b\t".toList]
      (commentBlock :: methodM :: (commentLines ++ [.token "\x7b" 8 9])) := by
    refine .block ⟨rfl, by decide +kernel, [],
      [⟨"     ".toList, "** a /*".toList, []⟩, ⟨"\t".toList, " /// b\t".toList, []⟩],
      "     ".toList, by decide +kernel, .inl rfl, ?_, by decide +kernel, rfl⟩
      (by decide +kernel) ?_
    · intro l hl
      simp only [List.mem_cons, List.not_mem_nil, or_false] at hl
      rcases hl with rfl | rfl
      all_goals exact ⟨by decide +kernel, .inl rfl⟩
    · rintro t ⟨⟩ hreaches
      exact absurd hreaches.comment (by decide)
  have hplain : ∀ c ∈ ["* a".toList, [], " / */ b ".toList], Comment.IsPlain c := by
    decide +kernel
  have hplain' : ∀ c ∈ ["** a /*".toList, " /// b\t".toList], Comment.IsPlain c := by
    decide +kernel
  refine ⟨hlines, ?_, hblock, ?_⟩
  · exact SourceFile.comment_of_written rfl (List.cons_ne_nil _ _) hplain hlines
  · exact SourceFile.comment_of_written rfl (List.cons_ne_nil _ _) hplain' hblock

end PartialDocs
