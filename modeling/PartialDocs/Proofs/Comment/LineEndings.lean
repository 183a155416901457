import PartialDocs.Compilation
import PartialDocs.Proofs.Comment.LineScan
import PartialDocs.Proofs.Syntax.Relabelling
import PartialDocs.Proofs.Text.LineEndings

/-!
# Documentation in texts with other line ends

A source may end its lines in a carriage return and a line feed instead of a line feed alone.  The
nodes of its tree then stand further down, and a line comment may or may not take the carriage
return behind it (`Label.GainsReturns`).  Documentation stays the same: the comments before a
declaration have the content that they had (`content?_withReturns`, `content?_append_return`), and
so have the lines above it (`fromLines_withReturns`).  Of the parser it is assumed that a comment of
slashes stands in one line.
-/

set_option autoImplicit false

namespace PartialDocs

open Text (withReturns offsetWithReturns position)

/-! ## Nodes -/

/-- A label at the place that it has among carriage returns. -/
def Label.amongReturns (source : Text) (l : Label) : Label :=
  { l with start := offsetWithReturns source l.start, stop := offsetWithReturns source l.stop }

/-- Whether a node is a comment that begins with two slashes and ends right before a line feed. -/
def Label.EndsLine (source : Text) (l : Label) : Prop :=
  l.kind = "comment" ∧ (∃ text ∈ Text.slice? source l.start l.stop, "//".toList <+: text) ∧
    ∃ cut ∈ Text.splitAt? source l.stop, cut.2.head? = some '\n'

instance (source : Text) (l : Label) : Decidable (l.EndsLine source) :=
  inferInstanceAs (Decidable (_ ∧ _ ∧ _))

/-- Whether a node does not go over the end of a line if it is a comment that begins with two
slashes. -/
def Label.StandsInRow (source : Text) (l : Label) : Prop :=
  l.kind = "comment" → ∀ text ∈ Text.slice? source l.start l.stop, "//".toList <+: text →
    '\n' ∉ text

instance (source : Text) (l : Label) : Decidable (l.StandsInRow source) :=
  inferInstanceAs (Decidable (_ → _))

/-- Whether a label is another one among carriage returns.  A line comment may go on over the
carriage return behind it. -/
def Label.GainsReturns (source : Text) (l l' : Label) : Prop :=
  l' = l.amongReturns source ∨
    l.EndsLine source ∧
      l' = { l.amongReturns source with stop := offsetWithReturns source l.stop + 1 }

instance (source : Text) (l l' : Label) : Decidable (l.GainsReturns source l') :=
  inferInstanceAs (Decidable (_ ∨ _ ∧ _))

namespace Label.GainsReturns

variable {source : Text} {l l' : Label}

/-- A node keeps its kind. -/
theorem kind (h : l.GainsReturns source l') : l'.kind = l.kind := by
  rcases h with rfl | ⟨-, rfl⟩ <;> rfl

/-- The first byte of a node has moved. -/
theorem start (h : l.GainsReturns source l') : l'.start = offsetWithReturns source l.start := by
  rcases h with rfl | ⟨-, rfl⟩ <;> rfl

/-- Nothing but a comment takes a carriage return. -/
theorem stop (h : l.GainsReturns source l') (other : l.kind ≠ "comment") :
    l'.stop = offsetWithReturns source l.stop := by
  rcases h with rfl | ⟨⟨hcomment, -⟩, -⟩
  · rfl
  · exact absurd hcomment other

/-- What a node spans has got its carriage returns, and perhaps the one behind it. -/
theorem slice?_eq (h : l.GainsReturns source l') :
    Text.slice? (withReturns source) l'.start l'.stop =
        (Text.slice? source l.start l.stop).map withReturns ∨
      ∃ text, Text.slice? source l.start l.stop = some text ∧ "//".toList <+: text ∧
        Text.slice? (withReturns source) l'.start l'.stop = some (withReturns text ++ ['\r']) := by
  rcases h with rfl | ⟨⟨-, ⟨text, htext, hslashes⟩, ⟨before, after⟩, hcut, hfeed⟩, rfl⟩
  · exact .inl (Text.slice?_withReturns source l.start l.stop)
  · obtain ⟨below, rfl⟩ := List.head?_eq_some_iff.1 hfeed
    exact .inr ⟨text, htext, hslashes, Text.slice?_withReturns_succ htext hcut⟩

/-- A node ends in the row in which it ended. -/
theorem row_stop (h : l.GainsReturns source l') :
    (position (withReturns source) l'.stop).row = (position source l.stop).row := by
  rcases h with rfl | ⟨⟨-, ⟨text, htext, -⟩, ⟨before, after⟩, hcut, hfeed⟩, rfl⟩
  · exact Text.row_withReturns source l.stop
  · obtain ⟨below, rfl⟩ := List.head?_eq_some_iff.1 hfeed
    have hslice := Text.slice?_withReturns_succ htext hcut
    have hcount : (withReturns text ++ ['\r']).count '\n' = text.count '\n' := by
      rw [List.count_append, Text.count_lineFeed_withReturns]
      rfl
    rw [Text.row_of_slice? htext, ← Text.row_withReturns source l.start, ← hcount]
    exact Text.row_of_slice? hslice

end Label.GainsReturns

namespace Comment

variable {s : Text}

/-! ## The content of a comment -/

/-- The carriage return behind a line does not belong to its content. -/
theorem lineContent?_append_return (noReturn : '\r' ∉ s) :
    lineContent? (s ++ ['\r']) = lineContent? s := by
  cases hline : beginsDocLine s with
  | false =>
    have hline' : beginsDocLine (s ++ ['\r']) = false := by
      rw [beginsDocLine_append_of_isBlank rfl, hline]
    rw [lineContent?_eq_none_iff.2 hline, lineContent?_eq_none_iff.2 hline']
  | true =>
    obtain ⟨rest, rfl, hhead⟩ := beginsDocLine_iff.1 hline
    have hnone : rest.getLast? ≠ some '\r' := by
      intro hlast
      exact noReturn (List.mem_append_right _ (List.mem_of_getLast? hlast))
    have hhead' : (rest ++ ['\r']).head? ≠ some '/' := by
      cases rest with
      | nil => simp
      | cons c rest => exact hhead
    rw [List.append_assoc, lineContent?_append hhead, lineContent?_append hhead',
      Text.dropSuffix_append, Text.dropSuffix_singleton_of_ne hnone]

/-- What stands between the markers of a block gets the carriage returns of the block. -/
theorem blockInner?_withReturns (noReturn : '\r' ∉ s) :
    blockInner? (withReturns s) = (blockInner? s).map withReturns := by
  have hmark : ∀ y : Text, withReturns ("/**".toList ++ (y ++ "*/".toList)) =
      "/**".toList ++ (withReturns y ++ "*/".toList) := by
    intro y
    rw [Text.withReturns_append, Text.withReturns_append]
    rfl
  have hstar : ∀ y : Text, (withReturns y).head? = some '*' ↔ y.head? = some '*' := fun y =>
    Text.head?_withReturns (by decide) (by decide)
  refine Option.ext fun y => ?_
  rw [blockInner?_eq_some_iff, Option.map_eq_some_iff]
  simp only [blockInner?_eq_some_iff]
  constructor
  · -- without its carriage returns this is what stood there
    rintro ⟨hs, hne, hhead⟩
    have hback : s = "/**".toList ++ (y.filter (· != '\r') ++ "*/".toList) := by
      have hkept := congrArg (List.filter (· != '\r')) hs
      rw [Text.filter_withReturns noReturn, List.filter_append, List.filter_append] at hkept
      exact hkept
    have hy : withReturns (y.filter (· != '\r')) = y := by
      rw [hback, hmark] at hs
      exact List.append_cancel_right (List.append_cancel_left hs)
    refine ⟨y.filter (· != '\r'), ⟨hback, ?_, ?_⟩, hy⟩
    · rwa [ne_eq, ← Text.withReturns_eq_nil_iff, hy]
    · rwa [ne_eq, ← hstar, hy]
  · rintro ⟨inner, ⟨rfl, hne, hhead⟩, rfl⟩
    refine ⟨hmark inner, ?_, ?_⟩
    · rwa [ne_eq, Text.withReturns_eq_nil_iff]
    · rwa [ne_eq, hstar]

/-- A block has the content that it had. -/
theorem blockContent?_withReturns (noReturn : '\r' ∉ s) :
    blockContent? (withReturns s) = blockContent? s := by
  unfold blockContent?
  rw [blockInner?_withReturns noReturn, Option.map_map]
  apply Option.map_congr
  intro inner hinner
  obtain ⟨hs, -, -⟩ := blockInner?_eq_some_iff.1 hinner
  have hnone : '\r' ∉ inner := by
    intro hmem
    rw [hs] at noReturn
    exact noReturn (by simp [hmem])
  rw [Function.comp_apply, Text.map_dropSuffix_lines_withReturns hnone]

/-- A text that does not begin with slashes is no documentation line. -/
theorem lineContent?_eq_none (h : ¬ "//".toList <+: s) : lineContent? s = none := by
  rw [lineContent?_eq_none_iff, Bool.eq_false_iff, ne_eq, beginsDocLine_iff]
  rintro ⟨rest, rfl, -⟩
  exact h ⟨'/' :: rest, rfl⟩

/-- **A comment has the content that it had.** -/
theorem content?_withReturns (noReturn : '\r' ∉ s) (inRow : "//".toList <+: s → '\n' ∉ s) :
    content? (withReturns s) = content? s := by
  by_cases hslashes : "//".toList <+: s
  · rw [Text.withReturns_of_not_mem (inRow hslashes)]
  · have hslashes' : ¬ "//".toList <+: withReturns s := fun h =>
      hslashes (Text.prefix_of_prefix_withReturns (by decide) noReturn h)
    unfold content?
    rw [lineContent?_eq_none hslashes, lineContent?_eq_none hslashes',
      blockContent?_withReturns noReturn]

-- A comment of slashes over two lines would keep the carriage return between them.
example : content? "///a\nb".toList = some "a\nb".toList ∧
    content? (withReturns "///a\nb".toList) = some "a\r\nb".toList := by decide

/-- A text that begins with two slashes is no documentation block. -/
theorem blockContent?_eq_none (h : "//".toList <+: s) : blockContent? s = none := by
  rw [← Option.not_isSome_iff_eq_none, blockContent?_isSome_iff]
  rintro ⟨inner, rfl, -, -⟩
  exact absurd h (by simp)

/-- A line comment has the content that it had when it takes the carriage return behind it. -/
theorem content?_append_return (noReturn : '\r' ∉ s) (hslashes : "//".toList <+: s) :
    content? (s ++ ['\r']) = content? s := by
  have hslashes' : "//".toList <+: s ++ ['\r'] := hslashes.trans (List.prefix_append s ['\r'])
  unfold content?
  rw [lineContent?_append_return noReturn, blockContent?_eq_none hslashes,
    blockContent?_eq_none hslashes']

/-! ## The comments before a declaration -/

variable {source : Text} {t t' : Tree}

/-- A byte starts its line as before. -/
theorem startsLine_withReturns (source : Text) (offset : Nat) :
    startsLine (withReturns source) (offsetWithReturns source offset) =
      startsLine source offset := by
  unfold startsLine
  rw [Text.before?_withReturns]
  cases Text.before? source offset with
  | none => rfl
  | some before =>
    simp only [Option.map_some, Option.any_some]
    rw [Text.lastLine_withReturns]

/-- The comment that a node spans has the content that it had. -/
theorem bind_content?_withReturns {l l' : Label} (noReturn : '\r' ∉ source)
    (h : l.GainsReturns source l') (inRow : l.StandsInRow source) (comment : l.kind = "comment") :
    (Text.slice? (withReturns source) l'.start l'.stop).bind content? =
      (Text.slice? source l.start l.stop).bind content? := by
  have hnone : ∀ text, Text.slice? source l.start l.stop = some text → '\r' ∉ text := by
    intro text htext hmem
    obtain ⟨before, after, rfl, -, -⟩ := Text.slice?_eq_some htext
    exact noReturn (by simp [hmem])
  rcases h.slice?_eq with hslice | ⟨text, htext, hslashes, hslice⟩
  · rw [hslice, Option.bind_map]
    refine Option.bind_congr fun text htext => ?_
    exact content?_withReturns (hnone text htext) (inRow comment text htext)
  · have hfeed : '\n' ∉ text := inRow comment text htext hslashes
    rw [hslice, htext, Text.withReturns_of_not_mem hfeed]
    exact content?_append_return (hnone text htext) hslashes

/-- A node counts for a row as it did, and with the same content. -/
theorem adjacentContent?_withReturns (noReturn : '\r' ∉ source)
    (h : t.label.GainsReturns source t'.label) (inRow : t.label.StandsInRow source) (row : Nat) :
    adjacentContent? (withReturns source) row t' = adjacentContent? source row t := by
  have hkind : t'.kind = t.kind := h.kind
  have hstart : t'.start = offsetWithReturns source t.start := h.start
  have hrow : (position (withReturns source) t'.stop).row = (position source t.stop).row :=
    h.row_stop
  unfold adjacentContent?
  rw [hkind, hrow, hstart, startsLine_withReturns, ← hstart]
  by_cases hcomment : t.kind = "comment"
  · have hcontent : (Text.slice? (withReturns source) t'.start t'.stop).bind content? =
        (Text.slice? source t.start t.stop).bind content? :=
      bind_content?_withReturns noReturn h inRow hcomment
    rw [hcontent]
  · simp [hcomment]

/-- **The comments before a declaration give the documentation that they gave.** -/
theorem fromSiblings_withReturns (noReturn : '\r' ∉ source) {ts ts' : List Tree}
    (h : Tree.RelabelledAll (Label.GainsReturns source) ts ts')
    (inRow : ∀ t ∈ ts, t.label.StandsInRow source) (row : Nat) :
    fromSiblings (withReturns source) row ts' = fromSiblings source row ts := by
  induction ts generalizing ts' row with
  | nil =>
    cases ts' with
    | nil => rfl
    | cons t' ts' => exact h.elim
  | cons t ts ih =>
    cases ts' with
    | nil => exact h.elim
    | cons t' ts' =>
      obtain ⟨hnode, hrest⟩ := h
      have hstart : t'.start = offsetWithReturns source t.start := hnode.label.start
      have habove := ih hrest fun u hu => inRow u (List.mem_cons_of_mem t hu)
      rw [fromSiblings, fromSiblings,
        adjacentContent?_withReturns noReturn hnode.label (inRow t List.mem_cons_self), hstart,
        Text.row_withReturns, habove]

/-! ## The lines above a declaration -/

/-- Carriage returns at their ends change nothing in documentation lines. -/
theorem docLines_map_return {ls : List Text} (noReturn : ∀ l ∈ ls, '\r' ∉ l) :
    docLines (ls.map (· ++ ['\r'])) = docLines ls := by
  induction ls with
  | nil => rfl
  | cons l ls ih =>
    have hline : Text.dropSuffix ['\r'] (l ++ ['\r']) = Text.dropSuffix ['\r'] l := by
      rw [Text.dropSuffix_append, Text.dropSuffix_of_not_mem (noReturn l List.mem_cons_self)]
    rw [List.map_cons, docLines, docLines, hline,
      ih fun m hm => noReturn m (List.mem_cons_of_mem l hm)]

/-- **The lines above a declaration give the documentation that they gave.** -/
theorem fromLines_withReturns (noReturn : '\r' ∉ source) (offset : Nat) :
    fromLines (withReturns source) (offsetWithReturns source offset) = fromLines source offset := by
  unfold fromLines
  rw [Text.before?_withReturns]
  cases hbefore : Text.before? source offset with
  | none => rfl
  | some before =>
    obtain ⟨after, hsource, -⟩ := Text.before?_eq_some hbefore
    have hnone : ∀ l ∈ (Text.lines before).dropLast.reverse, '\r' ∉ l := by
      intro l hl hmem
      have hline : l ∈ Text.lines before := List.dropLast_subset _ (List.mem_reverse.1 hl)
      rw [hsource, List.mem_append, not_or] at noReturn
      exact noReturn.1 (Text.mem_of_mem_splitOn hline hmem)
    have hlines : (Text.lines (withReturns before)).dropLast.reverse =
        (Text.lines before).dropLast.reverse.map (· ++ ['\r']) := by
      rw [Text.lines_withReturns, List.dropLast_concat, List.map_reverse]
    simp only [Option.map_some]
    rw [Text.lastLine_withReturns, hlines, docLines_map_return hnone]

/-- What is read above a declaration stays. -/
theorem above?_withReturns (noReturn : '\r' ∉ source) {ts ts' : List Tree}
    (h : Tree.RelabelledAll (Label.GainsReturns source) ts ts')
    (inRow : ∀ t ∈ ts, t.label.StandsInRow source) (offset : Nat) :
    above? (withReturns source) (offsetWithReturns source offset) ts' =
      above? source offset ts := by
  unfold above? leading
  rw [Text.row_withReturns, fromSiblings_withReturns noReturn h inRow,
    fromLines_withReturns noReturn]

end Comment

/-! ## Files -/

/-- A piece at the place that it has among carriage returns. -/
def Piece.amongReturns (source : Text) (p : Piece) : Piece :=
  { p with offset := offsetWithReturns source p.offset, stop := offsetWithReturns source p.stop }

/-- Whether a file is another one with a carriage return before every line feed. -/
structure SourceFile.GainsReturns (f g : SourceFile) : Prop where
  text : g.text = withReturns f.text
  tree : Tree.Relabelled (Label.GainsReturns f.text) f.tree g.tree

variable {f g : SourceFile} {t : Tree} {p : Piece}

/-- The piece of a declaration is found again, behind the same siblings. -/
theorem SourceFile.GainsReturns.exists_siblings {siblings : List Tree} (h : f.GainsReturns g)
    (declares : p.nodeKind ≠ "comment")
    (found : f.tree.precedingSiblings? p.nodeKind p.offset p.stop = some siblings) :
    ∃ siblings', g.tree.precedingSiblings? p.nodeKind (offsetWithReturns f.text p.offset)
        (offsetWithReturns f.text p.stop) = some siblings' ∧
      Tree.RelabelledAll (Label.GainsReturns f.text) siblings siblings' := by
  refine Tree.exists_precedingIn?_relabelled (fun l l' hl => ?_) h.tree found
  rw [Bool.eq_iff_iff]
  simp only [Bool.and_eq_true, beq_iff_eq, hl.kind, hl.start, Text.offsetWithReturns_inj]
  refine and_congr_right fun hnode => ?_
  rw [hl.stop (hnode.1 ▸ declares), Text.offsetWithReturns_inj]

/-- **A declaration has the same documentation whichever way lines end.** -/
theorem SourceFile.comment_amongReturns (h : f.GainsReturns g) (noReturn : '\r' ∉ f.text)
    (inRow : ∀ u, Tree.Within u f.tree → u.label.StandsInRow f.text)
    (node : Tree.Within t f.tree) (declares : t.kind ≠ "comment")
    (kind : p.nodeKind = t.kind) (offset : p.offset = t.start) (stop : p.stop = t.stop) :
    ∃ doc, f.comment p = .ok doc ∧ g.comment (p.amongReturns f.text) = .ok doc := by
  have hfound := Tree.precedingSiblings?_isSome node
  rw [← kind, ← offset, ← stop] at hfound
  obtain ⟨siblings, hsiblings⟩ := Option.isSome_iff_exists.1 hfound
  have hinRow : ∀ u ∈ siblings, u.label.StandsInRow f.text := fun u hu =>
    inRow u (Tree.within_of_mem_precedingSiblings? hsiblings hu)
  obtain ⟨siblings', hsiblings', hgained⟩ := h.exists_siblings (kind ▸ declares) hsiblings
  have hmoved : g.tree.precedingSiblings? (p.amongReturns f.text).nodeKind
      (p.amongReturns f.text).offset (p.amongReturns f.text).stop = some siblings' := hsiblings'
  refine ⟨Comment.above? f.text p.offset siblings, ?_, ?_⟩
  · unfold SourceFile.comment
    rw [hsiblings]
  · unfold SourceFile.comment
    rw [hmoved, h.text]
    exact congrArg Except.ok (Comment.above?_withReturns noReturn hgained hinRow p.offset)

/-- A class below a block and a line of documentation. -/
def blockAndLine : SourceFile where
  path := "file0.cs".toList
  text := "/**\n * One.\n */\n/// Two.\nclass A \x7b \x7d\n".toList
  tree :=
    .named "compilation_unit" 0 37 none
      [.named "comment" 0 15 none [], .named "comment" 16 24 none [],
       .named "class_declaration" 25 36 none
        [.token "class" 25 30, .named "identifier" 31 32 (some "name") [],
         .named "declaration_list" 33 36 (some "body") [.token "\x7b" 33 34, .token "\x7d" 35 36]]]

/-- The same class with the other line ends.  The second comment has the carriage return behind
it. -/
def blockAndLineReturns : SourceFile where
  path := "file0.cs".toList
  text := "/**\r\n * One.\r\n */\r\n/// Two.\r\nclass A \x7b \x7d\r\n".toList
  tree :=
    .named "compilation_unit" 0 42 none
      [.named "comment" 0 17 none [], .named "comment" 19 28 none [],
       .named "class_declaration" 29 40 none
        [.token "class" 29 34, .named "identifier" 35 36 (some "name") [],
         .named "declaration_list" 37 40 (some "body") [.token "\x7b" 37 38, .token "\x7d" 39 40]]]

/-- Both comments of the class keep their contents. -/
theorem SourceFile.comment_amongReturns_blockAndLine :
    blockAndLine.GainsReturns blockAndLineReturns ∧ '\r' ∉ blockAndLine.text ∧
    (∀ u, Tree.Within u blockAndLine.tree → u.label.StandsInRow blockAndLine.text) ∧
    blockAndLine.comment ⟨0, 25, 36, 4, 0, "class_declaration", .whole⟩ =
      .ok (some "One.\nTwo.".toList) ∧
    blockAndLineReturns.comment ⟨0, 29, 40, 4, 0, "class_declaration", .whole⟩ =
      .ok (some "One.\nTwo.".toList) := by
  have hgained : blockAndLine.GainsReturns blockAndLineReturns := by
    refine ⟨by decide +kernel, by decide +kernel, ⟨by decide +kernel, trivial⟩,
      ⟨by decide +kernel, trivial⟩, ⟨by decide +kernel, ⟨by decide +kernel, trivial⟩,
      ⟨by decide +kernel, trivial⟩, ⟨by decide +kernel, ?_⟩, trivial⟩, trivial⟩
    exact ⟨⟨by decide +kernel, trivial⟩, ⟨by decide +kernel, trivial⟩, trivial⟩
  have hreturn : '\r' ∉ blockAndLine.text := by decide +kernel
  have hinRow : ∀ u ∈ blockAndLine.tree.nodes, u.label.StandsInRow blockAndLine.text := by
    decide +kernel
  have hwithin : ∀ u, Tree.Within u blockAndLine.tree → u.label.StandsInRow blockAndLine.text :=
    fun u hu => hinRow u hu.mem_nodes
  have hnode := Tree.within_of_mem_children
    (show blockAndLine.tree.children[2] ∈ blockAndLine.tree.children from List.getElem_mem _)
  have hread : blockAndLine.comment ⟨0, 25, 36, 4, 0, "class_declaration", .whole⟩ =
      .ok (some "One.\nTwo.".toList) := by decide +kernel
  obtain ⟨doc, hdoc, hdoc'⟩ := SourceFile.comment_amongReturns
    (p := ⟨0, 25, 36, 4, 0, "class_declaration", .whole⟩) hgained hreturn hwithin hnode (by decide)
    rfl rfl rfl
  rw [hread] at hdoc
  rw [← hdoc] at hdoc'
  exact ⟨hgained, hreturn, hwithin, hread, hdoc'⟩

end PartialDocs
