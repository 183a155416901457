import PartialDocs.Proofs.Comment.FirstRow
import PartialDocs.Proofs.Compilation.Likeness
import PartialDocs.Proofs.Declaration.Shift
import PartialDocs.Proofs.Resolution.Totality

/-!
# Files with a byte order mark

A file may begin with a byte order mark, behind which its tree has moved by three bytes.
Marks in front of some files of a compilation change neither the symbols nor their
documentation IDs, and the pieces move with the trees.  The comments stay the same as long
as they do not begin on the first row of a marked file, and so do the merged comments, the
elements and the documentation file (`marked_alike`).  What begins on the first row is lost
behind a mark.
-/

set_option autoImplicit false

namespace PartialDocs

/-- The file with a byte order mark in front. -/
def SourceFile.marked (f : SourceFile) : SourceFile :=
  { f with text := Text.mark :: f.text, tree := f.tree.shift 3 }

/-- The piece behind a mark in front of its text. -/
def Piece.behindMark (source : Text) (p : Piece) : Piece :=
  { p with
    offset := p.offset + 3
    stop := p.stop + 3
    column := (Text.position (Text.mark :: source) (p.offset + 3)).column }

/-- Whether the documentation of a piece begins on the first row of its file. -/
def SourceFile.ReachesFirst (f : SourceFile) (p : Piece) : Prop :=
  ∃ siblings, f.tree.precedingSiblings? p.nodeKind p.offset p.stop = some siblings ∧
    Comment.ReachesFirst f.text p.offset siblings

namespace Compilation

/-- The files, of which the chosen ones get a mark. -/
def markFiles (chosen : Nat → Bool) (files : List SourceFile) : List SourceFile :=
  files.mapIdx fun i f => if chosen i then f.marked else f

/-- The piece where it stands when the chosen files have a mark. -/
def movePiece (chosen : Nat → Bool) (files : List SourceFile) (p : Piece) : Piece :=
  match files[p.file]? with
  | none => p
  | some f => if chosen p.file then p.behindMark f.text else p

/-- Whether the documentation of a piece begins on the first row of a file that gets a mark. -/
def ReachesMark (chosen : Nat → Bool) (files : List SourceFile) (p : Piece) : Prop :=
  ∃ f, files[p.file]? = some f ∧ chosen p.file = true ∧ f.ReachesFirst p

variable {chosen : Nat → Bool} {files : List SourceFile} {f : SourceFile} {p q : Piece}

/-- The files with marks in their places. -/
theorem getElem?_markFiles (chosen : Nat → Bool) (files : List SourceFile) (i : Nat) :
    (markFiles chosen files)[i]? =
      (files[i]?).map fun f => if chosen i then f.marked else f := by
  unfold markFiles
  rw [List.getElem?_mapIdx]

/-- A piece of a file with a mark stands behind the mark. -/
theorem movePiece_of_chosen (hf : files[p.file]? = some f) (h : chosen p.file = true) :
    movePiece chosen files p = p.behindMark f.text := by
  unfold movePiece
  rw [hf]
  exact if_pos h

/-- A piece of any other file stays. -/
theorem movePiece_of_not_chosen (h : chosen p.file = false) : movePiece chosen files p = p := by
  unfold movePiece
  cases files[p.file]? with
  | none => rfl
  | some f => exact if_neg (by rw [h]; exact Bool.false_ne_true)

/-- A piece stays in its file. -/
theorem file_movePiece (chosen : Nat → Bool) (files : List SourceFile) (p : Piece) :
    (movePiece chosen files p).file = p.file := by
  unfold movePiece
  cases files[p.file]? with
  | none => rfl
  | some f =>
    simp only
    split <;> rfl

/-- Pieces keep their roles. -/
theorem keepsRoles_movePiece (chosen : Nat → Bool) (files : List SourceFile) :
    KeepsRoles (movePiece chosen files) := by
  intro p
  unfold movePiece
  cases files[p.file]? with
  | none => rfl
  | some f =>
    simp only
    split <;> rfl

/-! ## The builder -/

/-- The pieces of a file are those of its nodes behind the mark. -/
theorem moves_marked {i : Nat} (hf : files[i]? = some f) (h : chosen i = true) :
    Declaration.Moves 3 i i f.text (Text.mark :: f.text) (movePiece chosen files) where
  slices := Text.slice?_mark f.text
  piece role t := by
    have hmove : movePiece chosen files (Declaration.pieceOf f.text i role t) =
        (Declaration.pieceOf f.text i role t).behindMark f.text := movePiece_of_chosen hf h
    rw [hmove]
    unfold Declaration.pieceOf Piece.behindMark
    simp only
    rw [Tree.start_shift, Tree.stop_shift, Tree.kind_shift, Text.row_mark]

/-- In a file without a mark nothing moves. -/
theorem moves_unmarked {i : Nat} (files : List SourceFile) (f : SourceFile)
    (h : chosen i = false) :
    Declaration.Moves 0 i i f.text f.text (movePiece chosen files) where
  slices := fun _ _ => rfl
  piece role t := by
    have hmove : movePiece chosen files (Declaration.pieceOf f.text i role t) =
        Declaration.pieceOf f.text i role t := movePiece_of_not_chosen h
    rw [Tree.shift_zero, hmove]

/-- The outline of a file, its pieces moved behind the mark if it has one. -/
theorem outline_markFiles {i : Nat} (hf : files[i]? = some f) :
    (if chosen i then f.marked else f).outline i =
      Declaration.mapPiecesAll (movePiece chosen files) (f.outline i) := by
  cases h : chosen i with
  | true =>
    rw [if_pos rfl]
    exact Declaration.ofChildren_shift (moves_marked hf h) .file f.tree
  | false =>
    rw [if_neg Bool.false_ne_true]
    have hshift := Declaration.ofChildren_shift (moves_unmarked files f h) .file f.tree
    rw [Tree.shift_zero] at hshift
    exact hshift

/-- The outlines of the files stay but for the places of the pieces. -/
theorem outlinesAlike_markFiles (chosen : Nat → Bool) (files : List SourceFile) :
    OutlinesAlike .same (movePiece chosen files) files (markFiles chosen files) where
  length_eq := List.length_mapIdx
  outline hf hf' := by
    rw [getElem?_markFiles, hf, Option.map_some, Option.some.injEq] at hf'
    rw [← hf', outline_markFiles hf]
    exact Declaration.likeAll_mapPiecesAll _ _

/-- The order of two pieces stays. -/
theorem startsBy_movePiece (hp : Positioned files p) (hq : Positioned files q) :
    (movePiece chosen files p).startsBy (movePiece chosen files q) = p.startsBy q := by
  have hmoved : p.file = q.file → ∃ n, (movePiece chosen files p).offset = p.offset + n ∧
      (movePiece chosen files q).offset = q.offset + n ∧
      (p.offset = q.offset → (movePiece chosen files p).line = (movePiece chosen files q).line ∧
        (movePiece chosen files p).column = (movePiece chosen files q).column) := by
    intro hfile
    have hplace := hp.row_column hq hfile
    obtain ⟨f, hf, -⟩ := hp
    cases h : chosen p.file with
    | false =>
      refine ⟨0, ?_⟩
      rw [movePiece_of_not_chosen h, movePiece_of_not_chosen (hfile ▸ h)]
      exact ⟨rfl, rfl, hplace⟩
    | true =>
      refine ⟨3, ?_⟩
      rw [movePiece_of_chosen hf h, movePiece_of_chosen (hfile ▸ hf) (hfile ▸ h)]
      refine ⟨rfl, rfl, fun hoffset => ⟨(hplace hoffset).1, ?_⟩⟩
      unfold Piece.behindMark
      simp only
      rw [hoffset]
  refine Piece.startsBy_congr (file_movePiece ..) (file_movePiece ..) ?_ ?_
  · intro hfile
    obtain ⟨n, hpn, hqn, -⟩ := hmoved hfile
    omega
  · intro hfile hoffset
    obtain ⟨n, -, -, hplaces⟩ := hmoved hfile
    exact ⟨hp.row_column hq hfile hoffset, hplaces hoffset⟩

/-- **Files of which some have a mark make the compilation of the unmarked ones, with moved
pieces.** -/
theorem alike_markFiles (chosen : Nat → Bool) (files : List SourceFile) :
    Alike .same (movePiece chosen files) files (markFiles chosen files) :=
  (outlinesAlike_markFiles chosen files).alike keepsSpelling_same
    (keepsRoles_movePiece chosen files) startsBy_movePiece

/-! ## Comments -/

/-- The comment of a marked file has what does not begin on the first row. -/
theorem comment_marked {siblings : List Tree}
    (h : f.tree.precedingSiblings? p.nodeKind p.offset p.stop = some siblings) :
    f.marked.comment (p.behindMark f.text) =
      .ok (Comment.belowFirst? f.text p.offset siblings) := by
  have hmark : f.marked.tree.precedingSiblings? (p.behindMark f.text).nodeKind
      (p.behindMark f.text).offset (p.behindMark f.text).stop =
        some (siblings.map (Tree.shift 3)) := by
    have hshift := Tree.precedingSiblings?_shift 3 f.tree p.nodeKind p.offset p.stop
    rw [h] at hshift
    exact hshift
  unfold SourceFile.comment
  rw [hmark]
  exact congrArg Except.ok (Comment.above?_mark f.text p.offset siblings)

/-- A comment that does not reach the first row stays. -/
theorem comment_marked_of_not_reaches {text : Option Text} (h : f.comment p = .ok text)
    (not : ¬ f.ReachesFirst p) : f.marked.comment (p.behindMark f.text) = .ok text := by
  unfold SourceFile.comment at h
  cases hsiblings : f.tree.precedingSiblings? p.nodeKind p.offset p.stop with
  | none =>
    rw [hsiblings] at h
    cases h
  | some siblings =>
    rw [hsiblings, Except.ok.injEq] at h
    have hbelow := Comment.belowFirst?_of_not_reaches f.text p.offset siblings
      fun hreaches => not ⟨siblings, hsiblings, hreaches⟩
    rw [comment_marked hsiblings, hbelow, h]

/-- The comment of a moved piece is that of the piece. -/
theorem comment_movePiece {text : Option Text} (h : (ofFiles files).comment p = .ok text)
    (not : ¬ ReachesMark chosen files p) :
    (ofFiles (markFiles chosen files)).comment (movePiece chosen files p) = .ok text := by
  have hfile : (ofFiles (markFiles chosen files)).files[(movePiece chosen files p).file]? =
      (files[p.file]?).map fun f => if chosen p.file then f.marked else f := by
    rw [file_movePiece]
    exact getElem?_markFiles chosen files p.file
  unfold comment at h ⊢
  rw [hfile]
  cases hf : files[p.file]? with
  | none =>
    simp only [ofFiles, hf] at h
    cases h
  | some f =>
    simp only [ofFiles, hf] at h
    simp only [Option.map_some]
    cases hchosen : chosen p.file with
    | false =>
      rw [movePiece_of_not_chosen hchosen, if_neg Bool.false_ne_true]
      exact h
    | true =>
      rw [movePiece_of_chosen hf hchosen, if_pos rfl]
      exact comment_marked_of_not_reaches h fun hreaches => not ⟨f, hf, hchosen, hreaches⟩

/-! ## All answers -/

/-- Whether no documentation of a symbol begins on the first row of a file that gets a mark. -/
def Unreached (chosen : Nat → Bool) (files : List SourceFile) (id : SymbolId) : Prop :=
  ∀ ps, (ofFiles files).index.pieces id = .ok ps → ∀ p ∈ ps, ¬ ReachesMark chosen files p

/-- What stays the same when some files of a compilation get a mark. -/
structure MarkedAlike (chosen : Nat → Bool) (files : List SourceFile) : Prop where
  symbols : (ofFiles (markFiles chosen files)).index.symbols = (ofFiles files).index.symbols
  docId : ∀ id, (ofFiles (markFiles chosen files)).index.docId id =
    (ofFiles files).index.docId id
  pieces : ∀ id ps, (ofFiles files).index.pieces id = .ok ps →
    (ofFiles (markFiles chosen files)).index.pieces id =
      .ok (ps.map (movePiece chosen files))
  /-- The comment of a piece in a marked file has what does not begin on the first row. -/
  comment : ∀ p f siblings, files[p.file]? = some f → chosen p.file = true →
    f.tree.precedingSiblings? p.nodeKind p.offset p.stop = some siblings →
    (ofFiles (markFiles chosen files)).comment (movePiece chosen files p) =
      .ok (Comment.belowFirst? f.text p.offset siblings)
  comments : ∀ id cs, Unreached chosen files id → (ofFiles files).comments id = .ok cs →
    (ofFiles (markFiles chosen files)).comments id =
      .ok (cs.map fun x => (movePiece chosen files x.1, x.2))
  merged : ∀ id, Unreached chosen files id →
    (ofFiles (markFiles chosen files)).merged id = (ofFiles files).merged id
  xml : ∀ id, Unreached chosen files id → ∀ policy,
    (ofFiles (markFiles chosen files)).xml policy id = (ofFiles files).xml policy id
  docFile : (∀ id, Unreached chosen files id) → ∀ policy assembly,
    (ofFiles (markFiles chosen files)).docFile policy assembly =
      (ofFiles files).docFile policy assembly

/-- The symbols stay. -/
theorem symbols_markFiles (chosen : Nat → Bool) (files : List SourceFile) :
    (ofFiles (markFiles chosen files)).index.symbols = (ofFiles files).index.symbols := by
  rw [eq_comm, ← List.forall₂_eq_eq_eq]
  exact (alike_markFiles chosen files).symbols.imp fun _ _ hs => hs.eq.symm

/-- The number of symbols stays. -/
theorem size_markFiles (chosen : Nat → Bool) (files : List SourceFile) :
    (ofFiles (markFiles chosen files)).index.size = (ofFiles files).index.size := by
  rw [SymbolIndex.size_eq, SymbolIndex.size_eq, symbols_markFiles]

/-- The pieces of a symbol stay but for their places. -/
theorem pieces_markFiles {id : Nat} {ps : List Piece}
    (h : (ofFiles files).index.pieces id = .ok ps) :
    (ofFiles (markFiles chosen files)).index.pieces id =
      .ok (ps.map (movePiece chosen files)) := by
  rw [(alike_markFiles chosen files).pieces, h]
  rfl

/-- What a compilation answers about a symbol that no mark reaches. -/
theorem answers_markFiles {id : Nat} (hid : id < (ofFiles files).index.size)
    (unreached : Unreached chosen files id) :
    ∃ cs, (ofFiles files).comments id = .ok cs ∧
      (ofFiles (markFiles chosen files)).comments id =
        .ok (cs.map fun x => (movePiece chosen files x.1, x.2)) ∧
      (ofFiles (markFiles chosen files)).merged id = (ofFiles files).merged id ∧
      ∀ policy, (ofFiles (markFiles chosen files)).xml policy id =
        (ofFiles files).xml policy id := by
  obtain ⟨s, docId, cs, hs, hdocId, hpieces, hcomment, -, -, hxml⟩ := exists_answers files hid
  have hcomments := comments_of_pieces hpieces hcomment
  have hs' : (ofFiles (markFiles chosen files)).index.symbol id = .ok s := by
    rw [SymbolIndex.symbol_eq_ok_iff, symbols_markFiles]
    exact SymbolIndex.symbol_eq_ok_iff.1 hs
  have hdocId' : (ofFiles (markFiles chosen files)).index.docId id = .ok docId := by
    rw [(alike_markFiles chosen files).docId, hdocId]
  have hpieces' : (ofFiles (markFiles chosen files)).index.pieces id =
      .ok ((cs.map fun x => (movePiece chosen files x.1, x.2)).map Prod.fst) := by
    rw [pieces_markFiles hpieces, List.map_map, List.map_map]
    rfl
  have hcomments' : (ofFiles (markFiles chosen files)).comments id =
      .ok (cs.map fun x => (movePiece chosen files x.1, x.2)) := by
    refine comments_of_pieces hpieces' ?_
    intro y hy
    obtain ⟨x, hx, rfl⟩ := List.mem_map.1 hy
    exact comment_movePiece (hcomment x hx) (unreached _ hpieces _ (List.mem_map_of_mem hx))
  have hroled : roled (cs.map fun x => (movePiece chosen files x.1, x.2)) = roled cs := by
    unfold roled
    rw [List.map_map]
    apply List.map_congr_left
    intro x _
    exact congrArg (·, x.2) (keepsRoles_movePiece chosen files x.1)
  refine ⟨cs, hcomments, hcomments', ?_, ?_⟩
  · rw [merged_eq_ok hs' hcomments', merged_eq_ok hs hcomments, hroled]
  · intro policy
    rw [xml_eq hs' hdocId' hpieces' hcomments' policy, hxml policy, hroled]
    simp only [List.forall_mem_map, keepsRoles_movePiece chosen files _]

/-- A symbol that no mark reaches has the same merged comment and the same element. -/
theorem merged_xml_markFiles {id : Nat} (unreached : Unreached chosen files id) :
    (ofFiles (markFiles chosen files)).merged id = (ofFiles files).merged id ∧
      ∀ policy, (ofFiles (markFiles chosen files)).xml policy id =
        (ofFiles files).xml policy id := by
  by_cases hid : id < (ofFiles files).index.size
  · obtain ⟨-, -, -, hmerged, hxml⟩ := answers_markFiles hid unreached
    exact ⟨hmerged, hxml⟩
  · have hle := Nat.le_of_not_lt hid
    have hrefuses := refuses_of_size_le hle
    have hrefuses' : (ofFiles (markFiles chosen files)).Refuses id :=
      refuses_of_size_le (by rw [size_markFiles]; exact hle)
    refine ⟨hrefuses'.merged.trans hrefuses.merged.symm, ?_⟩
    intro policy
    rw [hrefuses'.xml, hrefuses.xml]

/-- The comments of a symbol stay where none of them reaches the first row. -/
theorem comments_markFiles {id : Nat} {cs : List (Piece × Option Text)}
    (unreached : Unreached chosen files id) (h : (ofFiles files).comments id = .ok cs) :
    (ofFiles (markFiles chosen files)).comments id =
      .ok (cs.map fun x => (movePiece chosen files x.1, x.2)) := by
  by_cases hid : id < (ofFiles files).index.size
  · obtain ⟨cs', hcs', hmarked, -⟩ := answers_markFiles hid unreached
    rw [h, Except.ok.injEq] at hcs'
    rw [hmarked, ← hcs']
  · rw [(refuses_of_size_le (Nat.le_of_not_lt hid)).comments] at h
    cases h

/-- What is left of the comment of a piece in a file with a mark. -/
theorem comment_marked_movePiece (hf : files[p.file]? = some f) (hchosen : chosen p.file = true)
    {siblings : List Tree}
    (h : f.tree.precedingSiblings? p.nodeKind p.offset p.stop = some siblings) :
    (ofFiles (markFiles chosen files)).comment (movePiece chosen files p) =
      .ok (Comment.belowFirst? f.text p.offset siblings) := by
  have hfile : (ofFiles (markFiles chosen files)).files[(p.behindMark f.text).file]? =
      some f.marked := by
    have hget := getElem?_markFiles chosen files p.file
    rw [hf, Option.map_some, if_pos hchosen] at hget
    exact hget
  rw [movePiece_of_chosen hf hchosen]
  unfold comment
  rw [hfile]
  exact comment_marked h

/-- **Byte order marks in front of some files change nothing but the places of the pieces, unless
documentation begins on the first row of a marked file.** -/
theorem marked_alike (chosen : Nat → Bool) (files : List SourceFile) :
    MarkedAlike chosen files where
  symbols := symbols_markFiles chosen files
  docId := (alike_markFiles chosen files).docId
  pieces _ _ h := pieces_markFiles h
  comment _ _ _ hf hchosen h := comment_marked_movePiece hf hchosen h
  comments _ _ unreached h := comments_markFiles unreached h
  merged _ unreached := (merged_xml_markFiles unreached).1
  xml _ unreached := (merged_xml_markFiles unreached).2
  docFile unreached policy assembly := by
    have hxml : (ofFiles (markFiles chosen files)).xml policy = (ofFiles files).xml policy := by
      funext id
      exact (merged_xml_markFiles (unreached id)).2 policy
    unfold docFile elements SymbolIndex.ids
    rw [size_markFiles, hxml]

/-! ## A class with documentation -/

/-- A class that is documented by the line above it, which is the first row. -/
def documentedClass : SourceFile where
  path := "file0.cs".toList
  text := "/// doc\nclass A \x7b \x7d".toList
  tree :=
    .named "compilation_unit" 0 19 none
      [.named "comment" 0 7 none [],
       .named "class_declaration" 8 19 none
        [.token "class" 8 13, .named "identifier" 14 15 (some "name") [],
         .named "declaration_list" 16 19 (some "body")
          [.token "\x7b" 16 17, .token "\x7d" 18 19]]]

/-- The same with an empty line before the documentation. -/
def lowerClass : SourceFile :=
  { documentedClass with
    text := '\n' :: documentedClass.text
    tree := documentedClass.tree.shift 1 }

/-- The symbol of the class. -/
def classA : Symbol := { name := ['A'], kind := .class }

/-- What a compilation answers about a class in one piece. -/
theorem answers_classA {f : SourceFile} {p : Piece} (text : Option Text)
    (entries : (builderOf [f]).entries = [⟨classA, [p]⟩])
    (found : (ofFiles [f]).comment p = .ok text) :
    (ofFiles [f]).index.pieces 0 = .ok [p] ∧ (ofFiles [f]).comments 0 = .ok [(p, text)] ∧
      (ofFiles [f]).merged 0 = .ok text ∧
      ∀ policy, (ofFiles [f]).xml policy 0 = .ok (Xml.memberOrEmpty "T:A".toList text) := by
  have hs : (ofFiles [f]).index.symbol 0 = .ok classA := by
    rw [SymbolIndex.symbol_eq_ok_iff, symbols_ofFiles, IndexBuilder.symbols, entries]
    rfl
  have hdocId : (ofFiles [f]).index.docId 0 = .ok "T:A".toList := by
    rw [SymbolIndex.docId_eq_ok (wellPlaced_ofFiles _) (SymbolIndex.symbol_eq_ok_iff.1 hs)]
    rfl
  have hpieces : (ofFiles [f]).index.pieces 0 = .ok [p] := by
    apply pieces_of_singleton
    rw [entries]
    rfl
  have hcomments : (ofFiles [f]).comments 0 = .ok [(p, text)] :=
    comments_of_pieces hpieces (by simpa using found)
  have hbody : mergeComments (.ofSymbol classA) (roled [(p, text)]) = text := by
    cases text <;> rfl
  have hmerged := merged_eq_ok hs hcomments
  rw [hbody] at hmerged
  refine ⟨hpieces, hcomments, hmerged, ?_⟩
  intro policy
  have hxml := xml_eq hs hdocId
    (show (ofFiles [f]).index.pieces 0 = .ok ([(p, text)].map Prod.fst) from hpieces)
    hcomments policy
  have hskip : ¬ (policy = .omitted ∧ classA.isPartialMethod = true ∧
      ∀ x ∈ [(p, text)], x.1.role ≠ .implementing) := by
    rintro ⟨-, hmethod, -⟩
    exact Bool.false_ne_true hmethod
  rw [hxml, if_neg hskip, hbody]

/-- The one class of the file. -/
theorem entries_lowerClass : (builderOf [lowerClass]).entries =
    [⟨classA, [⟨0, 9, 20, 2, 0, "class_declaration", .whole⟩]⟩] := by
  decide +kernel

/-- The class keeps its documentation behind a mark. -/
theorem marked_alike_lowerClass :
    Unreached (fun _ => true) [lowerClass] 0 ∧
    (ofFiles [lowerClass]).merged 0 = .ok (some "doc".toList) ∧
    (ofFiles [lowerClass.marked]).merged 0 = .ok (some "doc".toList) := by
  obtain ⟨hpieces, -, hmerged, -⟩ :=
    answers_classA (some "doc".toList) entries_lowerClass rfl
  have hunreached : Unreached (fun _ => true) [lowerClass] 0 := by
    intro ps hps p hp
    rw [hpieces, Except.ok.injEq] at hps
    rw [← hps] at hp
    rw [List.mem_singleton.1 hp]
    rintro ⟨f, hf, -, siblings, hsiblings, hreaches⟩
    obtain rfl := Option.some.inj hf
    obtain rfl := Option.some.inj hsiblings
    revert hreaches
    decide +kernel
  have hsame := (marked_alike (fun _ => true) [lowerClass]).merged 0 hunreached
  exact ⟨hunreached, hmerged, hsame.trans hmerged⟩

/-- Behind a mark a class loses documentation that begins on the first row. -/
theorem mark_hides_documentation :
    (ofFiles [documentedClass]).comments 0 =
      .ok [(⟨0, 8, 19, 1, 0, "class_declaration", .whole⟩, some "doc".toList)] ∧
    (ofFiles [documentedClass.marked]).comments 0 =
      .ok [(⟨0, 11, 22, 1, 0, "class_declaration", .whole⟩, none)] ∧
    (∀ policy, (ofFiles [documentedClass]).xml policy 0 =
      .ok (Xml.member "T:A".toList "doc".toList)) ∧
    ∀ policy, (ofFiles [documentedClass.marked]).xml policy 0 = .ok [] := by
  have hentries : (builderOf [documentedClass]).entries =
      [⟨classA, [⟨0, 8, 19, 1, 0, "class_declaration", .whole⟩]⟩] := by decide +kernel
  have hmarked : (builderOf [documentedClass.marked]).entries =
      [⟨classA, [⟨0, 11, 22, 1, 0, "class_declaration", .whole⟩]⟩] := by decide +kernel
  obtain ⟨-, hcomments, -, hxml⟩ := answers_classA (some "doc".toList) hentries rfl
  obtain ⟨-, hcomments', -, hxml'⟩ := answers_classA none hmarked rfl
  exact ⟨hcomments, hcomments', hxml, hxml'⟩

end Compilation

end PartialDocs
