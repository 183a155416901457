import PartialDocs.Compilation
import PartialDocs.Proofs.Comment.Documentation
import PartialDocs.Proofs.Syntax.Nodes

/-!
# What comes between a declaration and its documentation

An ordinary comment right before a declaration, or a blank line, keeps it apart from documentation
further up: no comment before it counts.  The text above is then scanned without regard to comments,
so that the declaration is documented exactly where the line right above it looks like documentation
(`absent_iff_of_interrupts`).  That never happens behind a blank line or behind an ordinary comment
of one row, but the last row of a longer comment may look like that (`adjacency_broken`).
-/

set_option autoImplicit false

namespace PartialDocs

open Text (position)

namespace Comment

variable {source : Text} {offset : Nat} {t : Tree}

/-- Whether a byte is the first thing on its line and the line right above looks like
documentation. -/
def DocLineAbove (source : Text) (offset : Nat) : Prop :=
  startsLine source offset = true ∧
    ∃ line, (linesAbove source offset).getLast? = some line ∧ isDocLine line = true

/-- A comment that keeps the declaration at a byte apart from documentation: it is none, or at least
one line lies between. -/
inductive Interrupts (source : Text) (offset : Nat) (t : Tree) : Prop
  | ordinary : t.kind = "comment" →
      (∀ text, Text.slice? source t.start t.stop = some text → ¬ IsDocumentation text) →
      Interrupts source offset t
  | apart : t.kind = "comment" →
      (position source t.stop).row + 1 < (position source offset).row → Interrupts source offset t

/-- What interrupts a run of comments does not belong to it. -/
theorem Interrupts.not_reaches (h : Interrupts source offset t) :
    ¬ Reaches source (position source offset).row t := by
  rintro ⟨-, hadjacent, -, text, htext, hdoc⟩
  cases h with
  | ordinary _ hordinary => exact hordinary text htext hdoc
  | apart _ hrows => omega

/-- The line scan finds nothing just where no documentation line stands above. -/
theorem fromLines_eq_nil_iff : fromLines source offset = [] ↔ ¬ DocLineAbove source offset := by
  unfold DocLineAbove
  by_cases hfirst : startsLine source offset = true
  · rw [fromLines_eq hfirst, List.reverse_eq_nil_iff, docLines_eq_nil_iff, List.head?_reverse]
    simp [hfirst]
  · have hnil : fromLines source offset = [] := by
      unfold fromLines
      cases hbefore : Text.before? source offset with
      | none => rfl
      | some before =>
        unfold startsLine at hfirst
        rw [hbefore] at hfirst
        exact if_neg hfirst
    simp [hnil, hfirst]

/-- **Behind a comment that keeps it apart a declaration has no documentation, unless the line right
above it looks like documentation.** -/
theorem absent_iff_of_interrupts {before : List Tree} (h : Interrupts source offset t) :
    above? source offset (t :: before) = none ↔ ¬ DocLineAbove source offset := by
  have hwalk : fromSiblings source (position source offset).row (t :: before) = [] :=
    fromSiblings_of_not_reaches fun u hu => by
      rw [List.head?_cons, Option.mem_some] at hu
      exact hu ▸ h.not_reaches
  unfold above? leading
  rw [hwalk, ← fromLines_eq_nil_iff]
  cases fromLines source offset <;> simp

/-! ## The line right above -/

/-- The line right above a byte that follows blanks with a line feed among them. -/
theorem docLineAbove_iff {before gap : Text}
    (hoffset : Text.before? source offset = some (before ++ gap))
    (hblank : Text.isBlank gap = true) (hfeed : '\n' ∈ gap) :
    ∃ above, gap = above ++ '\n' :: Text.lastLine gap ∧ Text.isBlank above = true ∧
      (DocLineAbove source offset ↔ isDocLine (Text.lastLine (before ++ above)) = true) := by
  obtain ⟨above, habove, hline⟩ := getLast?_linesAbove hoffset hfeed
  rw [habove, ← List.append_assoc] at hoffset
  rw [habove, Text.isBlank_append_lineFeed, Bool.and_eq_true] at hblank
  have hfirst : startsLine source offset = true := by
    rw [startsLine_of_before? hoffset,
      Text.lastLine_append_lineFeed _ (Text.not_mem_lastLine gap)]
    exact hblank.2
  refine ⟨above, habove, hblank.1, ?_⟩
  unfold DocLineAbove
  rw [hline]
  simp [hfirst]

/-- A blank line is no documentation line. -/
theorem not_isDocLine_of_isBlank {line : Text} (h : Text.isBlank line = true) :
    isDocLine line = false := isDocLine_append_of_isBlank h []

/-- A blank line is no documentation. -/
theorem not_docLineAbove_of_blankLine {before gap : Text}
    (hoffset : Text.before? source offset = some (before ++ gap))
    (hblank : Text.isBlank gap = true) (hfeeds : 2 ≤ gap.count '\n') :
    ¬ DocLineAbove source offset := by
  have hfeed : '\n' ∈ gap := List.count_pos_iff.1 (by omega)
  obtain ⟨above, habove, hblankAbove, hiff⟩ := docLineAbove_iff hoffset hblank hfeed
  have hcount : 0 < above.count '\n' := by
    rw [habove, List.count_append, List.count_cons_self,
      List.count_eq_zero.2 (Text.not_mem_lastLine gap)] at hfeeds
    omega
  have hrest : '\n' ∈ above := List.count_pos_iff.1 hcount
  obtain ⟨first, hfirst⟩ := (Text.exists_lastLine above).resolve_left fun h => h hrest
  -- the line right above is the last one of these blanks
  rw [hfirst, Text.isBlank_append_lineFeed, Bool.and_eq_true] at hblankAbove
  rw [hiff, hfirst, ← List.append_assoc,
    Text.lastLine_append_lineFeed _ (Text.not_mem_lastLine above),
    not_isDocLine_of_isBlank hblankAbove.2]
  exact Bool.false_ne_true

/-- In the row below a comment the line right above is the last row of the comment. -/
theorem docLineAbove_iff_lastRow {before gap : Text}
    (hoffset : Text.before? source offset = some (before ++ gap))
    (hblank : Text.isBlank gap = true) (hfeeds : gap.count '\n' = 1) :
    DocLineAbove source offset ↔ isDocLine (Text.lastLine before) = true := by
  have hfeed : '\n' ∈ gap := List.count_pos_iff.1 (by omega)
  obtain ⟨above, habove, hblankAbove, hiff⟩ := docLineAbove_iff hoffset hblank hfeed
  have hnone : '\n' ∉ above := by
    rw [habove, List.count_append, List.count_cons_self] at hfeeds
    exact List.count_eq_zero.1 (by omega)
  rw [hiff, Text.lastLine_append before hnone, isDocLine_append_of_isBlank hblankAbove]

/-- A comment of one row that stands first on it is no documentation for the scan either, unless it
is documentation. -/
theorem not_docLineAbove_of_oneRow {before text gap : Text}
    (hoffset : Text.before? source offset = some (before ++ text ++ gap))
    (hblank : Text.isBlank gap = true) (hfirst : Text.isBlank (Text.lastLine before) = true)
    (hslash : "/".toList <+: text) (hfeed : '\n' ∉ text) (hordinary : ¬ IsDocumentation text) :
    ¬ DocLineAbove source offset := by
  rcases Nat.lt_trichotomy (gap.count '\n') 1 with hrows | hrows | hrows
  · -- the comment stands before the byte on its line
    have hgap : '\n' ∉ gap := List.count_eq_zero.1 (by omega)
    have hmem : '/' ∈ text ++ gap := List.mem_append_left gap (hslash.subset (by simp))
    have hnone : '\n' ∉ text ++ gap := by simp [hfeed, hgap]
    rw [List.append_assoc] at hoffset
    rintro ⟨hstarts, -⟩
    rw [startsLine_of_slash hoffset hmem hnone] at hstarts
    cases hstarts
  · rw [docLineAbove_iff_lastRow hoffset hblank hrows, Text.lastLine_append before hfeed,
      isDocLine_append hfirst hslash]
    exact fun hline => hordinary (.inl hline)
  · exact not_docLineAbove_of_blankLine hoffset hblank hrows

end Comment

/-! ## Documentation behind a comment that keeps it apart -/

variable {f : SourceFile} {p : Piece} {t : Tree} {before : List Tree}

/-- What a comment right before a piece that keeps it apart leaves of its documentation. -/
structure SourceFile.AdjacencyBroken (f : SourceFile) (p : Piece) (t : Tree) : Prop where
  /-- The piece has no documentation but what the line right above looks like. -/
  absent_iff : f.comment p = .ok none ↔ ¬ Comment.DocLineAbove f.text p.offset
  /-- It has none behind a blank line. -/
  blankLine {gap : Text} : Text.slice? f.text t.stop p.offset = some gap →
    Text.isBlank gap = true → 2 ≤ gap.count '\n' → f.comment p = .ok none
  /-- It has none behind an ordinary comment of one row that stands first on it. -/
  oneRow {text gap : Text} : Text.slice? f.text t.start t.stop = some text →
    Text.slice? f.text t.stop p.offset = some gap → Text.isBlank gap = true →
    Comment.startsLine f.text t.start = true → "/".toList <+: text → '\n' ∉ text →
    ¬ Comment.IsDocumentation text → f.comment p = .ok none
  /-- In the row below a comment it has some exactly if the last row of the comment looks like
  it. -/
  lastRow {whole gap : Text} : Text.before? f.text t.stop = some whole →
    Text.slice? f.text t.stop p.offset = some gap → Text.isBlank gap = true →
    gap.count '\n' = 1 →
    (f.comment p = .ok none ↔ Comment.isDocLine (Text.lastLine whole) = false)

/-- **Ordinary comments and blank lines keep documentation away, but for a comment whose last row
looks like a documentation line.** -/
theorem SourceFile.adjacency_broken
    (found : f.tree.precedingSiblings? p.nodeKind p.offset p.stop = some (t :: before))
    (interrupts : Comment.Interrupts f.text p.offset t) : f.AdjacencyBroken p t := by
  have hcomment : f.comment p = .ok (Comment.above? f.text p.offset (t :: before)) := by
    unfold SourceFile.comment
    rw [found]
  have habsent : f.comment p = .ok none ↔ ¬ Comment.DocLineAbove f.text p.offset := by
    rw [hcomment, Except.ok.injEq]
    exact Comment.absent_iff_of_interrupts interrupts
  refine ⟨habsent, ?_, ?_, ?_⟩
  · intro gap hgap hblank hfeeds
    obtain ⟨whole, -, hoffset⟩ := Text.exists_before?_of_slice? hgap
    exact habsent.2 (Comment.not_docLineAbove_of_blankLine hoffset hblank hfeeds)
  · intro text gap htext hgap hblank hfirst hslash hfeed hordinary
    obtain ⟨above, habove, hstop⟩ := Text.exists_before?_of_slice? htext
    have hoffset := Text.before?_of_slice? hstop hgap
    rw [Comment.startsLine_of_before? habove] at hfirst
    exact habsent.2
      (Comment.not_docLineAbove_of_oneRow hoffset hblank hfirst hslash hfeed hordinary)
  · intro whole gap hwhole hgap hblank hfeeds
    have hoffset := Text.before?_of_slice? hwhole hgap
    rw [habsent, Comment.docLineAbove_iff_lastRow hoffset hblank hfeeds, Bool.not_eq_true]

/-- A class below an ordinary comment, and one with a blank line below its documentation. -/
def looseClasses : SourceFile where
  path := "file0.cs".toList
  text := "// a\nclass A \x7b \x7d\n/// b\n\nclass B \x7b \x7d".toList
  tree :=
    .named "compilation_unit" 0 35 none
      [.named "comment" 0 4 none [], .named "class_declaration" 5 16 none [],
       .named "comment" 17 22 none [], .named "class_declaration" 24 35 none []]

/-- Neither class has documentation. -/
theorem SourceFile.adjacency_broken_looseClasses :
    Comment.Interrupts looseClasses.text 5 (.named "comment" 0 4 none []) ∧
    looseClasses.comment ⟨0, 5, 16, 1, 0, "class_declaration", .whole⟩ = .ok none ∧
    Comment.Interrupts looseClasses.text 24 (.named "comment" 17 22 none []) ∧
    looseClasses.comment ⟨0, 24, 35, 4, 0, "class_declaration", .whole⟩ = .ok none := by
  have htext : Text.slice? looseClasses.text 0 4 = some "// a".toList := by decide +kernel
  have hordinary : ¬ Comment.IsDocumentation "// a".toList :=
    Comment.content?_isSome_iff.not.1 (by decide +kernel)
  have hnear : Comment.Interrupts looseClasses.text 5 (.named "comment" 0 4 none []) := by
    refine .ordinary rfl fun text h => ?_
    rw [Option.some.inj (htext.symm.trans h)] at hordinary
    exact hordinary
  have hapart : Comment.Interrupts looseClasses.text 24 (.named "comment" 17 22 none []) :=
    .apart rfl (by decide +kernel)
  have hA := SourceFile.adjacency_broken (f := looseClasses)
    (p := ⟨0, 5, 16, 1, 0, "class_declaration", .whole⟩) rfl hnear
  have hB := SourceFile.adjacency_broken (f := looseClasses)
    (p := ⟨0, 24, 35, 4, 0, "class_declaration", .whole⟩) rfl hapart
  have hgapA : Text.slice? looseClasses.text 4 5 = some ['\n'] := by decide +kernel
  have hgapB : Text.slice? looseClasses.text 22 24 = some ['\n', '\n'] := by decide +kernel
  exact ⟨hnear, hA.oneRow htext hgapA rfl (by decide +kernel) (by decide) (by decide) hordinary,
    hapart, hB.blankLine hgapB rfl (by decide)⟩

/-- A class below an ordinary comment of two rows, the last of which begins with three slashes. -/
def slashedRow : SourceFile where
  path := "file0.cs".toList
  text := "/*\n/// x */\nclass A \x7b \x7d".toList
  tree :=
    .named "compilation_unit" 0 23 none
      [.named "comment" 0 11 none [],
       .named "class_declaration" 12 23 none
        [.token "class" 12 17, .named "identifier" 18 19 (some "name") [],
         .named "declaration_list" 20 23 (some "body") [.token "\x7b" 20 21, .token "\x7d" 22 23]]]

/-- The comment right before the class is no documentation, but its last row is read as some. -/
theorem SourceFile.ordinary_comment_documents :
    slashedRow.tree.precedingSiblings? "class_declaration" 12 23 =
      some [.named "comment" 0 11 none []] ∧
    Text.slice? slashedRow.text 0 11 = some "/*\n/// x */".toList ∧
    ¬ Comment.IsDocumentation "/*\n/// x */".toList ∧
    slashedRow.comment ⟨0, 12, 23, 2, 0, "class_declaration", .whole⟩ =
      .ok (some "x */".toList) :=
  ⟨rfl, by decide +kernel, Comment.content?_isSome_iff.not.1 (by decide +kernel), by decide +kernel⟩

end PartialDocs
