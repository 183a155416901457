import PartialDocs.Proofs.Comment.Documentation
import PartialDocs.Proofs.Syntax.Nodes

/-!
# Documentation by nodes and by lines

The documentation lines right above a declaration can be read from the comments before it or from
the text above it.  Where each of these lines is a comment of its own and no block reaches the first
of them, both ways give the same just when the carriage returns at the ends of the lines are counted
alike (`fromSiblings_eq_fromLines_iff`).  Of the parser it is assumed that the comment before the
lines, if it is a line comment, stands in one line and goes on as far as it can (`IsLexed`).
-/

set_option autoImplicit false

namespace PartialDocs.Comment

open Text (position)

/-- The documentation lines right above the line of a byte, nearest first. -/
def docBlock (source : Text) (offset : Nat) : List Text :=
  (linesAbove source offset).reverse.takeWhile isDocLine

/-- A line of documentation as one comment spans it: the comment, its text, and the carriage returns
between the comment and the end of the line. -/
structure SpannedRow where
  tree : Tree
  text : Text
  ending : Text

/-- Whether a comment spans the line of a row from its slashes to its end.  The carriage returns at
the end of the line may belong to the comment or not. -/
structure SpannedRow.Spans (r : SpannedRow) (source : Text) (row : Nat) : Prop where
  comment : r.tree.kind = "comment"
  first : startsLine source r.tree.start = true
  row : (position source r.tree.start).row = row
  place : ∃ before below, source = before ++ (r.text ++ (r.ending ++ '\n' :: below)) ∧
    Text.byteLength before = r.tree.start ∧
    Text.byteLength before + Text.byteLength r.text = r.tree.stop
  slashes : "///".toList <+: r.text
  inRow : '\n' ∉ r.text
  returns : ∀ c ∈ r.ending, c = '\r'

/-- The number of carriage returns at the end of a text. -/
def returnsAtEnd (s : Text) : Nat := (s.reverse.takeWhile (· == '\r')).length

/-- Whether the content of a comment and that of its line end alike.  The comment gives up one
carriage return at its end, the line two, and where there are fewer, all of them. -/
def SpannedRow.ReturnsAgree (r : SpannedRow) : Prop :=
  r.ending.length = 1 ∨
    returnsAtEnd r.text ≤ 1 ∧ returnsAtEnd r.text + r.ending.length ≤ 2

instance (r : SpannedRow) : Decidable r.ReturnsAgree := inferInstanceAs (Decidable (_ ∨ _))

/-- A line comment as it is cut from the source: it stands in one line, and no slash that could
belong to it follows. -/
def IsLexed (source : Text) (t : Tree) : Prop :=
  t.kind = "comment" → ∀ text ∈ Text.slice? source t.start t.stop, "//".toList <+: text →
    '\n' ∉ text ∧ ∀ cut ∈ Text.splitAt? source t.stop, cut.2.head? ≠ some '/'

instance (source : Text) (t : Tree) : Decidable (IsLexed source t) :=
  inferInstanceAs (Decidable (_ → _))

/-- Siblings, nearest first, of which each ends before what follows it. -/
def EndBefore : Nat → List Tree → Prop
  | _, [] => True
  | offset, t :: ts => t.stop ≤ offset ∧ EndBefore t.start ts

/-- Whether a node is a block of documentation that reaches the given row. -/
def IsBlockReaching (source : Text) (row : Nat) (t : Tree) : Prop :=
  Reaches source row t ∧ ∃ text, Text.slice? source t.start t.stop = some text ∧ IsDocBlock text

/-- A declaration that is first on its line, below documentation lines each of which is a comment of
its own, and those are the siblings right before it, nearest first.  No block of documentation among
the siblings before them reaches the first of the lines. -/
structure RowsAbove (source : Text) (offset : Nat) (rows : List SpannedRow) (before : List Tree) :
    Prop where
  first : startsLine source offset = true
  length : rows.length = (docBlock source offset).length
  spanned : ∀ (i : Nat) (r : SpannedRow), rows[i]? = some r →
    r.Spans source ((position source offset).row - (i + 1))
  delimited : ∀ t, before.head? = some t →
    ¬ IsBlockReaching source ((position source offset).row - rows.length) t
  ordered : EndBefore offset (rows.map SpannedRow.tree ++ before)
  lexed : ∀ t, before.head? = some t → IsLexed source t

variable {source : Text} {offset : Nat} {t : Tree}

/-! ## Carriage returns at the end of a line -/

/-- A text is cut before the carriage returns at its end. -/
theorem exists_eq_append_returns (s : Text) :
    ∃ t : Text, t.getLast? ≠ some '\r' ∧ s = t ++ List.replicate (returnsAtEnd s) '\r' := by
  refine ⟨(s.reverse.dropWhile (· == '\r')).reverse, ?_, ?_⟩
  · rw [List.getLast?_reverse]
    intro hhead
    have hnot := List.head?_dropWhile_not (· == '\r') s.reverse
    rw [hhead] at hnot
    simp at hnot
  · have hreturns : s.reverse.takeWhile (· == '\r') =
        List.replicate (returnsAtEnd s) '\r' := by
      refine List.eq_replicate_of_mem fun c hc => ?_
      simpa using List.mem_takeWhile_imp hc
    have hcut := congrArg List.reverse
      (List.takeWhile_append_dropWhile (p := (· == '\r')) (l := s.reverse))
    rw [List.reverse_append, List.reverse_reverse, hreturns, List.reverse_replicate] at hcut
    exact hcut.symm

/-- Carriage returns at the end are those of the part that is not empty before them. -/
theorem returnsAtEnd_append {s : Text} (hs : s.getLast? ≠ some '\r') (t : Text) :
    returnsAtEnd (s ++ t) = returnsAtEnd t := by
  unfold returnsAtEnd
  rw [List.reverse_append, List.takeWhile_append]
  split
  · have hnone : s.reverse.takeWhile (· == '\r') = [] := by
      rcases List.eq_nil_or_concat' s with rfl | ⟨s, c, rfl⟩
      · rfl
      · rw [List.getLast?_concat] at hs
        rw [List.reverse_append, List.reverse_singleton, List.singleton_append,
          List.takeWhile_cons_of_neg (by simpa using hs)]
    rename_i hall
    rw [hnone, List.append_nil]
    exact hall.symm
  · rfl

/-- One carriage return is taken away where there is one. -/
theorem dropSuffix_returns {t : Text} (ht : t.getLast? ≠ some '\r') (n : Nat) :
    Text.dropSuffix ['\r'] (t ++ List.replicate n '\r') = t ++ List.replicate (n - 1) '\r' := by
  cases n with
  | zero => rw [List.replicate_zero, List.append_nil, Text.dropSuffix_singleton_of_ne ht]
  | succ n =>
    rw [List.replicate_succ', ← List.append_assoc, Text.dropSuffix_append, Nat.add_sub_cancel]

/-- Without the space before it a text still shows how many carriage returns it ends in. -/
theorem dropPrefix_returns_inj (t : Text) (m n : Nat) :
    Text.dropPrefix [' '] (t ++ List.replicate m '\r') =
      Text.dropPrefix [' '] (t ++ List.replicate n '\r') ↔ m = n := by
  refine ⟨fun h => ?_, fun h => h ▸ rfl⟩
  have hlength : ∀ k, (Text.dropPrefix [' '] (t ++ List.replicate k '\r')).length +
      (if t.head? = some ' ' then 1 else 0) = t.length + k := by
    intro k
    cases t with
    | nil => cases k <;> simp [Text.dropPrefix, Text.stripPrefix?, List.replicate_succ]
    | cons c t =>
      by_cases hc : c = ' '
      · subst hc
        simp [Text.dropPrefix, Text.stripPrefix?]
        omega
      · have hne : ' ' ≠ c := fun h => hc h.symm
        simp [Text.dropPrefix, Text.stripPrefix?, hc, hne]
        omega
  have hm := hlength m
  rw [h, hlength n] at hm
  omega

/-! ## One line -/

/-- The comment in a documentation line is documentation. -/
theorem exists_of_isDocLine {r : SpannedRow} {indent : Text}
    (hindent : Text.isBlank indent = true) (hslashes : "///".toList <+: r.text)
    (hreturns : ∀ c ∈ r.ending, c = '\r')
    (hdoc : isDocLine (indent ++ (r.text ++ r.ending)) = true) :
    ∃ rest, r.text = "///".toList ++ rest ∧ rest.head? ≠ some '/' := by
  obtain ⟨rest, hrest⟩ := hslashes
  have hblank : Text.isBlank r.ending = true := by
    refine List.all_eq_true.2 fun c hc => ?_
    rw [hreturns c hc]
    rfl
  rw [← List.append_assoc, isDocLine_append_of_isBlank hblank] at hdoc
  unfold isDocLine at hdoc
  have htrim : Text.trimStart ("///".toList ++ rest) = "///".toList ++ rest :=
    Text.trimStart_cons rfl _
  rw [Text.trimStart_append hindent, ← hrest, htrim] at hdoc
  obtain ⟨rest', hrest', hhead⟩ := beginsDocLine_iff.1 hdoc
  exact ⟨rest', hrest.symm.trans hrest', hhead⟩

/-- **A documentation line and the comment in it have the same content just when they end alike.**
-/
theorem content_of_line {r : SpannedRow} {indent : Text} (hindent : Text.isBlank indent = true)
    (hslashes : "///".toList <+: r.text) (hreturns : ∀ c ∈ r.ending, c = '\r')
    (hdoc : isDocLine (indent ++ (r.text ++ r.ending)) = true) :
    ∃ content scanned, lineContent? r.text = some content ∧
      lineContent? (Text.trimStart (Text.dropSuffix ['\r'] (indent ++ (r.text ++ r.ending)))) =
        some scanned ∧ (content = scanned ↔ r.ReturnsAgree) := by
  obtain ⟨rest, hrest, hhead⟩ := exists_of_isDocLine hindent hslashes hreturns hdoc
  obtain ⟨k, hending⟩ : ∃ k, r.ending = List.replicate k '\r' :=
    ⟨_, List.eq_replicate_of_mem hreturns⟩
  obtain ⟨t, ht, hcut⟩ := exists_eq_append_returns rest
  have hfront : returnsAtEnd r.text = returnsAtEnd rest := by
    rw [hrest, returnsAtEnd_append (by decide)]
  generalize returnsAtEnd rest = m at hcut hfront
  have hhead' : ∀ n, (t ++ List.replicate n '\r').head? ≠ some '/' := by
    intro n
    rw [hcut] at hhead
    cases t with
    | nil => cases n <;> simp [List.replicate_succ]
    | cons c t => exact hhead
  have hscan : Text.trimStart (Text.dropSuffix ['\r'] (indent ++ (r.text ++ r.ending))) =
      "///".toList ++ (t ++ List.replicate (m + k - 1) '\r') := by
    have hlast : (indent ++ ("///".toList ++ t)).getLast? ≠ some '\r' := by
      rcases List.eq_nil_or_concat' t with rfl | ⟨t, c, rfl⟩
      · simp
      · rw [List.getLast?_concat] at ht
        rw [← List.append_assoc, ← List.append_assoc, List.getLast?_concat]
        exact ht
    have hline : indent ++ (r.text ++ r.ending) =
        indent ++ ("///".toList ++ t) ++ List.replicate (m + k) '\r' := by
      rw [hrest, hcut, hending, ← List.replicate_append_replicate]
      simp only [List.append_assoc]
    rw [hline, dropSuffix_returns hlast, List.append_assoc, Text.trimStart_append hindent,
      List.append_assoc]
    exact Text.trimStart_cons rfl _
  refine ⟨_, _, ?_, ?_, dropPrefix_returns_inj t (m - 1) (m + k - 1 - 1) |>.trans ?_⟩
  · rw [hrest, hcut, lineContent?_append (hhead' m), dropSuffix_returns ht]
  · rw [hscan, lineContent?_append (hhead' _), dropSuffix_returns ht]
  · unfold SpannedRow.ReturnsAgree
    rw [hending, List.length_replicate, hfront]
    omega

/-- The line right above the row of a byte is the one that a comment in that row spans. -/
theorem SpannedRow.Spans.exists_line {r : SpannedRow}
    (h : r.Spans source ((position source offset).row - 1))
    (above : linesAbove source offset ≠ []) :
    ∃ indent, Text.isBlank indent = true ∧
      Text.slice? source r.tree.start r.tree.stop = some r.text ∧
      linesAbove source offset =
        linesAbove source r.tree.start ++ [indent ++ (r.text ++ r.ending)] ∧
      (position source offset).row = (position source r.tree.start).row + 1 := by
  obtain ⟨-, hfirst, hrow, ⟨b, below, hsource, hstart, hstop⟩, -, hfeed, hreturns⟩ := h
  have hbefore? : Text.before? source r.tree.start = some b := by
    rw [hsource, ← hstart]
    exact Text.before?_append _ _
  have hslice : Text.slice? source r.tree.start r.tree.stop = some r.text := by
    rw [hsource, ← hstart, ← hstop]
    exact Text.slice?_append _ _ _
  rw [startsLine_of_before? hbefore?] at hfirst
  have hfeed' : '\n' ∉ r.text ++ r.ending := by
    rw [List.mem_append, not_or]
    exact ⟨hfeed, fun hmem => absurd (hreturns _ hmem) (by decide)⟩
  obtain ⟨a, last, hbefore, hlast⟩ := exists_before?_of_linesAbove above
  have hrow' : (position source r.tree.start).row = b.count '\n' := Text.row_of_before? hbefore?
  have hrows : (position source offset).row = a.count '\n' + 1 := by
    rw [Text.row_of_before? hbefore, List.count_append, List.count_cons_self,
      List.count_eq_zero.2 hlast]
  -- both end a row with the same number
  have hline : a = b ++ (r.text ++ r.ending) := by
    obtain ⟨after, hsource', -⟩ := Text.before?_eq_some hbefore
    have hcut : a ++ '\n' :: (last ++ after) = (b ++ (r.text ++ r.ending)) ++ '\n' :: below := by
      rw [← List.cons_append, ← List.append_assoc, ← hsource', hsource]
      simp
    refine (Text.append_lineFeed_inj hcut ?_).1
    rw [List.count_append, List.count_eq_zero.2 hfeed', Nat.add_zero]
    omega
  refine ⟨Text.lastLine b, hfirst, hslice, ?_, ?_⟩
  · have hlines : linesAbove source r.tree.start = (Text.lines b).dropLast := by
      unfold linesAbove
      rw [hbefore?]
    rw [linesAbove_of_before? hbefore hlast, hlines, hline, Text.lines_append b hfeed']
  · rw [hrows, hrow', hline, List.count_append, List.count_eq_zero.2 hfeed', Nat.add_zero]

/-- **Both ways of reading take the nearest line**, with the same content just when it ends alike,
and go on above it. -/
theorem exists_content_of_spans {r : SpannedRow} (first : startsLine source offset = true)
    (hblock : docBlock source offset ≠ [])
    (h : r.Spans source ((position source offset).row - 1)) :
    ∃ content scanned,
      IsRow source (position source r.tree.start).row r.tree content ∧
      (position source offset).row = (position source r.tree.start).row + 1 ∧
      fromLines source offset = fromLines source r.tree.start ++ [scanned] ∧
      (content = scanned ↔ r.ReturnsAgree) ∧
      docBlock source r.tree.start = (docBlock source offset).tail := by
  have habove : linesAbove source offset ≠ [] := by
    intro hnil
    unfold docBlock at hblock
    rw [hnil] at hblock
    exact hblock rfl
  obtain ⟨indent, hindent, hslice, hlines, hrow⟩ := h.exists_line habove
  have htaken : isDocLine (indent ++ (r.text ++ r.ending)) = true ∧
      docBlock source r.tree.start = (docBlock source offset).tail := by
    unfold docBlock at hblock ⊢
    rw [hlines, List.reverse_append, List.reverse_singleton, List.singleton_append,
      List.takeWhile_cons] at hblock ⊢
    split at hblock
    · rename_i hline
      rw [if_pos hline]
      exact ⟨hline, rfl⟩
    · exact absurd rfl hblock
  obtain ⟨content, scanned, hcontent, hscanned, hsame⟩ :=
    content_of_line hindent h.slashes h.returns htaken.1
  refine ⟨content, scanned, ⟨h.comment, h.first, rfl, r.text, hslice, h.inRow, hcontent⟩, hrow,
    ?_, hsame, htaken.2⟩
  rw [fromLines_eq first, fromLines_eq h.first, hlines, List.reverse_append,
    List.reverse_singleton, List.singleton_append, docLines, hscanned, List.reverse_cons]

/-! ## The sibling before the lines -/

/-- No documentation lines stand above a byte just when the nearest line is none. -/
theorem docBlock_eq_nil_iff :
    docBlock source offset = [] ↔
      ∀ line, (linesAbove source offset).getLast? = some line → isDocLine line = false := by
  unfold docBlock
  rw [← List.head?_reverse]
  cases (linesAbove source offset).reverse with
  | nil => simp
  | cons line lines => simp [List.takeWhile_cons]

/-- Where no documentation line stands right above, a line comment does not reach. -/
theorem not_reaches_of_docBlock_eq_nil (first : startsLine source offset = true)
    (hblock : docBlock source offset = []) (before : t.stop ≤ offset) (lexed : IsLexed source t)
    (delimited : ¬ IsBlockReaching source (position source offset).row t) :
    ¬ Reaches source (position source offset).row t := by
  intro hreaches
  obtain ⟨hkind, hadjacent, hfirst, text, htext, hdoc⟩ := id hreaches
  have hline : beginsDocLine text = true := hdoc.resolve_right fun h =>
    delimited ⟨hreaches, text, htext, h⟩
  obtain ⟨rest, hrest, -⟩ := beginsDocLine_iff.1 hline
  have hslashes : "//".toList <+: text := ⟨'/' :: rest, hrest.symm⟩
  have hslash : "/".toList <+: text := ⟨'/' :: '/' :: rest, hrest.symm⟩
  obtain ⟨hfeed, hfollows⟩ := lexed hkind text htext hslashes
  -- the byte lies behind the comment
  obtain ⟨o, ho, -⟩ := startsLine_iff.1 first
  obtain ⟨b, gap, after, hb, rfl, hcut⟩ := Text.exists_gap_of_slice? htext ho before
  have hafter : (gap ++ after).head? ≠ some '/' := hfollows _ hcut
  rw [startsLine_of_before? hb] at hfirst
  by_cases hgap : '\n' ∈ gap
  · -- the comment would be a documentation line right above
    obtain ⟨above, habove, hlast⟩ := getLast?_linesAbove ho hgap
    have hrows : gap.count '\n' ≤ 1 := by
      rw [Text.row_of_slice? htext, Text.row_of_before? ho, Text.row_of_before? hb,
        List.count_append, List.count_append, List.count_eq_zero.2 hfeed] at hadjacent
      omega
    have hnone : '\n' ∉ text ++ above := by
      rw [habove, List.count_append, List.count_cons_self] at hrows
      have habove' : '\n' ∉ above := List.count_eq_zero.1 (by omega)
      simp [hfeed, habove']
    have hfollows' : above.head? ≠ some '/' := by
      intro hhead
      rw [habove, List.append_assoc, List.head?_append, hhead] at hafter
      exact hafter rfl
    rw [List.append_assoc, Text.lastLine_append b hnone] at hlast
    have hnot := docBlock_eq_nil_iff.1 hblock _ hlast
    rw [isDocLine_append hfirst (hslash.trans (List.prefix_append text above)),
      beginsDocLine_append hline hfollows'] at hnot
    cases hnot
  · -- the comment would stand before the byte in its line
    have hmem : '/' ∈ text ++ gap := List.mem_append_left gap (hslash.subset (by simp))
    rw [List.append_assoc] at ho
    rw [startsLine_of_slash ho hmem (by simp [hfeed, hgap])] at first
    cases first

/-! ## All lines -/

/-- **Documentation lines of which each is a comment of its own are read alike from the comments and
from the text just when each line and its comment end alike**, unless a block right above them is
documentation too. -/
theorem fromSiblings_eq_fromLines_iff {rows : List SpannedRow} {before : List Tree}
    (h : RowsAbove source offset rows before) :
    fromSiblings source (position source offset).row (rows.map SpannedRow.tree ++ before) =
        fromLines source offset ↔
      ∀ r ∈ rows, r.ReturnsAgree := by
  induction rows generalizing offset with
  | nil =>
    have hblock : docBlock source offset = [] := List.length_eq_zero_iff.1 h.length.symm
    have hlines : docLines (linesAbove source offset).reverse = [] := by
      rw [docLines_eq_nil_iff, List.head?_reverse]
      exact docBlock_eq_nil_iff.1 hblock
    have hsiblings : fromSiblings source (position source offset).row before = [] := by
      refine fromSiblings_of_not_reaches fun t ht => ?_
      have hordered := h.ordered
      obtain ⟨ts, rfl⟩ := List.head?_eq_some_iff.1 ht
      exact not_reaches_of_docBlock_eq_nil h.first hblock hordered.1 (h.lexed t rfl)
        (h.delimited t rfl)
    rw [List.map_nil, List.nil_append, hsiblings, fromLines_eq h.first, hlines]
    simp
  | cons r rows ih =>
    have hblock : docBlock source offset ≠ [] := by
      intro hnil
      have hlength := h.length
      rw [hnil] at hlength
      cases hlength
    have hspans := h.spanned 0 r rfl
    obtain ⟨content, scanned, hcontent, hrow, hlines, hsame, htail⟩ :=
      exists_content_of_spans h.first hblock hspans
    have habove : RowsAbove source r.tree.start rows before := by
      refine ⟨hspans.first, ?_, fun i r' hr' => ?_, fun t ht => ?_, h.ordered.2, h.lexed⟩
      · rw [htail, List.length_tail, ← h.length, List.length_cons, Nat.add_sub_cancel]
      · have hnext := h.spanned (i + 1) r' hr'
        rwa [hrow, Nat.add_sub_add_right] at hnext
      · have hnot := h.delimited t ht
        rwa [hrow, List.length_cons, Nat.add_sub_add_right] at hnot
    rw [List.map_cons, List.cons_append, hrow, fromSiblings_cons_of_isRow hcontent, hlines,
      List.forall_mem_cons, ← hsame, ← ih habove]
    constructor
    · intro heq
      obtain ⟨hinit, hlast⟩ := List.append_inj' heq rfl
      exact ⟨List.singleton_inj.1 hlast, hinit⟩
    · rintro ⟨hlast, hinit⟩
      rw [hlast, hinit]

/-- A field with a comment behind it, and a class below two documentation lines. -/
def belowField : Text := "int x; /// c\n\t/// a\r\n  ///b\n class A".toList

/-- The documentation lines above the class, nearest first. -/
def rowsBelowField : List SpannedRow :=
  [⟨.named "comment" 23 27 none [], "///b".toList, []⟩,
    ⟨.named "comment" 14 19 none [], "/// a".toList, ['\r']⟩]

/-- The comment behind the field. -/
def behindField : Tree := .named "comment" 7 12 none []

/-- The class stands below its documentation lines. -/
theorem rowsAbove_belowField : RowsAbove belowField 29 rowsBelowField [behindField] := by
  have hrow : (position belowField 29).row = 3 := by decide +kernel
  refine ⟨by decide +kernel, by decide +kernel, ?_, ?_, ⟨by decide, by decide, by decide, trivial⟩,
    ?_⟩
  · rw [hrow]
    intro i r hr
    match i, hr with
    | 0, rfl =>
      exact ⟨rfl, by decide +kernel, by decide +kernel, ⟨"int x; /// c\n\t/// a\r\n  ".toList,
        " class A".toList, by decide +kernel, by decide +kernel, by decide +kernel⟩,
        by decide +kernel, by decide +kernel, List.forall_mem_nil _⟩
    | 1, rfl =>
      exact ⟨rfl, by decide +kernel, by decide +kernel, ⟨"int x; /// c\n\t".toList,
        "  ///b\n class A".toList, by decide +kernel, by decide +kernel, by decide +kernel⟩,
        by decide +kernel, by decide +kernel, List.forall_mem_singleton.2 rfl⟩
  · rintro t ⟨⟩ ⟨hreaches, -⟩
    exact absurd hreaches.first (by decide +kernel)
  · rintro t ⟨⟩
    decide +kernel

/-- Two lines are read alike below a comment that is not first on its line. -/
theorem fromSiblings_eq_fromLines_belowField :
    RowsAbove belowField 29 rowsBelowField [behindField] ∧
    (∀ r ∈ rowsBelowField, r.ReturnsAgree) ∧
    fromSiblings belowField (position belowField 29).row
        (rowsBelowField.map SpannedRow.tree ++ [behindField]) = fromLines belowField 29 ∧
    fromLines belowField 29 = [['a'], ['b']] := by
  have hagree : ∀ r ∈ rowsBelowField, r.ReturnsAgree := by decide +kernel
  exact ⟨rowsAbove_belowField, hagree,
    (fromSiblings_eq_fromLines_iff rowsAbove_belowField).2 hagree, by decide +kernel⟩

/-! ## Lines that end in several carriage returns -/

/-- A documentation line that ends in three carriage returns, above a class. -/
def threeReturns : Text := "/// a\r\r\r\nclass A \x7b \x7d".toList

/-- A comment that leaves them out. -/
def commentWithoutReturns : SpannedRow :=
  ⟨.named "comment" 0 5 none [], "/// a".toList, "\r\r\r".toList⟩

/-- A documentation line that ends in two carriage returns, above a class. -/
def twoReturns : Text := "/// a\r\r\nclass A \x7b \x7d".toList

/-- A comment that takes them. -/
def commentWithReturns : SpannedRow := ⟨.named "comment" 0 7 none [], "/// a\r\r".toList, []⟩

/-- **A line that a comment spans to its end can be read in two ways.**  A comment that leaves three
carriage returns out has none, and the line keeps one of them; a comment that takes two keeps one,
and the line none. -/
theorem returns_read_apart :
    RowsAbove threeReturns 9 [commentWithoutReturns] [] ∧
    fromSiblings threeReturns (position threeReturns 9).row [commentWithoutReturns.tree] = [['a']] ∧
    fromLines threeReturns 9 = [['a', '\r']] ∧
    RowsAbove twoReturns 8 [commentWithReturns] [] ∧
    fromSiblings twoReturns (position twoReturns 8).row [commentWithReturns.tree] = [['a', '\r']] ∧
    fromLines twoReturns 8 = [['a']] := by
  have hwithout : RowsAbove threeReturns 9 [commentWithoutReturns] [] := by
    refine ⟨by decide +kernel, by decide +kernel, fun i r hr => ?_, by simp, ⟨by decide, trivial⟩,
      by simp⟩
    match i, hr with
    | 0, rfl =>
      exact ⟨rfl, by decide +kernel, by decide +kernel, ⟨[], "class A \x7b \x7d".toList,
        by decide +kernel, by decide +kernel, by decide +kernel⟩, by decide +kernel,
        by decide +kernel, by simp [commentWithoutReturns]⟩
  have hwith : RowsAbove twoReturns 8 [commentWithReturns] [] := by
    refine ⟨by decide +kernel, by decide +kernel, fun i r hr => ?_, by simp, ⟨by decide, trivial⟩,
      by simp⟩
    match i, hr with
    | 0, rfl =>
      exact ⟨rfl, by decide +kernel, by decide +kernel, ⟨[], "class A \x7b \x7d".toList,
        by decide +kernel, by decide +kernel, by decide +kernel⟩, by decide +kernel,
        by decide +kernel, List.forall_mem_nil _⟩
  refine ⟨hwithout, ?_, ?_, hwith, ?_, ?_⟩ <;> decide +kernel

end PartialDocs.Comment
