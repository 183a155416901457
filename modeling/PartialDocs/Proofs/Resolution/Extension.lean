import PartialDocs.Proofs.Index.Sorting
import PartialDocs.Proofs.Resolution.Law

/-!
# One more source file

A further file at the end of the list only extends a compilation.  Every symbol keeps its
number, everything that is known of it and its documentation ID, and its pieces come
before those of the further file.  `exists_prolonged` says this together with what follows
for the documentation: elements that nothing can be added to stay as they are, and the
body of a type goes on below.

The entry of a symbol in the builder goes on with pieces of the further file
(`exists_prolonged_entry`), and the final sorting keeps the two parts apart, because the
further file has the highest ordinal.
-/

set_option autoImplicit false

namespace PartialDocs.Compilation

/-- How a symbol of a compilation goes on in the compilation of one more file, given its pieces
before and those that the further file adds, each with its comment. -/
structure Prolonged (c d : Compilation) (id : SymbolId) (s : Symbol) (docId : Text)
    (cs new : List (Piece × Option Text)) : Prop where
  symbol : c.index.symbol id = .ok s ∧ d.index.symbol id = .ok s
  docId : c.index.docId id = .ok docId ∧ d.index.docId id = .ok docId
  pieces : c.index.pieces id = .ok (cs.map Prod.fst) ∧
    d.index.pieces id = .ok ((cs ++ new).map Prod.fst)
  comments : c.comments id = .ok cs ∧ d.comments id = .ok (cs ++ new)
  /-- Nothing is added to a symbol that is not partial. -/
  notPartial : s.isPartial = false →
    new = [] ∧ ∀ policy, ∃ x, c.xml policy id = .ok x ∧ d.xml policy id = .ok x
  /-- The element of a partial method that is implemented does not change. -/
  implemented : s.isPartialMethod = true → (∃ x ∈ cs, x.1.role = .implementing) →
    ∀ policy, ∃ x, c.xml policy id = .ok x ∧ d.xml policy id = .ok x
  /-- The body of a type is made of all its comments, and goes on with those of the further file. -/
  type : s.kind.isType = true → ∃ body body', c.merged id = .ok body ∧ d.merged id = .ok body' ∧
    Stacked cs body ∧ Stacked (cs ++ new) body' ∧ GoesOn new body body'

variable {files : List SourceFile} {f : SourceFile}

/-! ## Entries and symbols -/

/-- The entry of a symbol goes on with pieces of the further file. -/
theorem exists_prolonged_entry (f : SourceFile) {id : Nat} {e : IndexEntry}
    (he : (builderOf files).entries[id]? = some e) :
    ∃ more, (builderOf (files ++ [f])).entries[id]? = some ⟨e.symbol, e.pieces ++ more⟩ ∧
      ∀ p ∈ more, p.file = files.length := by
  rw [builderOf_append, enterFile_eq_addAll]
  obtain ⟨more, hentry, hmore⟩ := IndexBuilder.entry_extends_addAll
    ((builderOf files).handedAll none (f.outline files.length)) he
  refine ⟨more, hentry, ?_⟩
  intro p hp
  obtain ⟨s, hs⟩ := hmore p hp
  exact file_of_mem_handedAll (sound_builderOf files) hs

/-- The symbols are those before and further ones. -/
theorem symbols_ofFiles_append (files : List SourceFile) (f : SourceFile) :
    ∃ later, (ofFiles (files ++ [f])).index.symbols = (ofFiles files).index.symbols ++ later := by
  rw [symbols_ofFiles, symbols_ofFiles, builderOf_append, enterFile_eq_addAll]
  obtain ⟨later, hlater⟩ := IndexBuilder.symbols_extend_addAll (builderOf files)
    ((builderOf files).handedAll none (f.outline files.length))
  exact ⟨later, hlater.symm⟩

/-- A symbol has the documentation ID that it had before. -/
theorem docId_ofFiles_append (f : SourceFile) {id : Nat} {s : Symbol}
    (hs : (ofFiles files).index.symbols[id]? = some s) :
    ∃ docId, (ofFiles files).index.docId id = .ok docId ∧
      (ofFiles (files ++ [f])).index.docId id = .ok docId := by
  obtain ⟨later, hlater⟩ := symbols_ofFiles_append files f
  have hplaced := wellPlaced_ofFiles files
  have hplaced' := wellPlaced_ofFiles (files ++ [f])
  have hs' : (ofFiles (files ++ [f])).index.symbols[id]? = some s := by
    rw [hlater, List.getElem?_append_left (List.getElem?_eq_some_iff.1 hs).1, hs]
  refine ⟨_, SymbolIndex.docId_eq_ok hplaced hs, ?_⟩
  rw [SymbolIndex.docId_eq_ok hplaced' hs', hlater]
  rw [hlater] at hplaced'
  rw [placedDocId_append hplaced' hplaced.containersFirst (hplaced.placed hs)]

/-! ## Comments -/

/-- One more file does not change the comment of an earlier piece. -/
theorem comment_of_earlier (f : SourceFile) {p : Piece} (h : p.file < files.length) :
    (ofFiles (files ++ [f])).comment p = (ofFiles files).comment p := by
  unfold comment ofFiles
  simp only [List.getElem?_append_left h]

/-- The comment of a piece in the last file. -/
theorem comment_of_last {p : Piece} (h : p.file = files.length) :
    (ofFiles (files ++ [f])).comment p = f.comment p := by
  unfold comment ofFiles
  simp [h]

/-- The pieces of a symbol are those before, followed by some of the further file. -/
theorem exists_pieces_append (f : SourceFile) {id : Nat} {e : IndexEntry}
    (he : (builderOf files).entries[id]? = some e) :
    ∃ ps more, (ofFiles files).index.pieces id = .ok ps ∧
      (ofFiles (files ++ [f])).index.pieces id = .ok (ps ++ more) ∧
      PiecesFit e.symbol ps ∧ PiecesFit e.symbol (ps ++ more) ∧
      (∀ p ∈ ps, Located files p) ∧
      ∀ p ∈ more, Located (files ++ [f]) p ∧ p.file = files.length := by
  obtain ⟨more, he', hmore⟩ := exists_prolonged_entry f he
  have hmem := List.mem_of_getElem? he
  have hmem' := List.mem_of_getElem? he'
  have hfit := (sound_builderOf files).pieces e hmem
  have hfit' := (sound_builderOf (files ++ [f])).pieces _ hmem'
  -- the pieces of the further file are sorted after the others
  have hsorted : (e.pieces ++ more).mergeSort Piece.startsBy =
      e.pieces.mergeSort Piece.startsBy ++ more.mergeSort Piece.startsBy := by
    apply Piece.mergeSort_append_of_file_lt
    intro p hp q hq
    rw [hmore q hq]
    exact (located_of_mem_pieces hmem hp).file_lt
  refine ⟨e.pieces.mergeSort Piece.startsBy, more.mergeSort Piece.startsBy, ?_, ?_, ?_, ?_, ?_, ?_⟩
  · exact IndexBuilder.pieces_build_eq_ok he hfit.nonempty
  · rw [← hsorted]
    exact IndexBuilder.pieces_build_eq_ok he' hfit'.nonempty
  · exact hfit.perm (List.mergeSort_perm _ _).symm
  · rw [← hsorted]
    exact hfit'.perm (List.mergeSort_perm _ _).symm
  · intro p hp
    exact located_of_mem_pieces hmem (List.mem_mergeSort.1 hp)
  · intro p hp
    have hp' := List.mem_mergeSort.1 hp
    exact ⟨located_of_mem_pieces hmem' (List.mem_append_right _ hp'), hmore p hp'⟩

/-- The pieces with their comments are those before, followed by some of the further file. -/
theorem exists_comments_append (f : SourceFile) {id : Nat} {e : IndexEntry}
    (he : (builderOf files).entries[id]? = some e) :
    ∃ cs new, (ofFiles files).index.pieces id = .ok (cs.map Prod.fst) ∧
      (ofFiles files).comments id = .ok cs ∧
      (ofFiles (files ++ [f])).index.pieces id = .ok ((cs ++ new).map Prod.fst) ∧
      (ofFiles (files ++ [f])).comments id = .ok (cs ++ new) ∧
      PiecesFit e.symbol (cs.map Prod.fst) ∧ PiecesFit e.symbol ((cs ++ new).map Prod.fst) ∧
      ∀ x ∈ new, x.1.file = files.length ∧ f.comment x.1 = .ok x.2 := by
  obtain ⟨ps, more, hpieces, hpieces', hfit, hfit', hps, hmore⟩ := exists_pieces_append f he
  obtain ⟨cs, -, rfl, hcomment⟩ := mapM_comment_eq_ok fun p hp =>
    (hps p hp).exists_comment (ofFiles files).index
  obtain ⟨new, -, rfl, hcomment'⟩ := mapM_comment_eq_ok fun p hp =>
    (hmore p hp).1.exists_comment (ofFiles (files ++ [f])).index
  rw [← List.map_append] at hpieces' hfit'
  have hall : ∀ x ∈ cs ++ new, (ofFiles (files ++ [f])).comment x.1 = .ok x.2 := by
    intro x hx
    rcases List.mem_append.1 hx with hx | hx
    · rw [comment_of_earlier f (hps x.1 (List.mem_map_of_mem hx)).file_lt]
      exact hcomment x hx
    · exact hcomment' x hx
  refine ⟨cs, new, hpieces, comments_of_pieces hpieces hcomment, hpieces',
    comments_of_pieces hpieces' hall, hfit, hfit', ?_⟩
  intro x hx
  have hfile := (hmore x.1 (List.mem_map_of_mem hx)).2
  refine ⟨hfile, ?_⟩
  rw [← comment_of_last hfile]
  exact hcomment' x hx

/-! ## The law -/

/-- **A further file at the end only extends a compilation**: every symbol is prolonged by pieces of
this file. -/
theorem exists_prolonged (files : List SourceFile) (f : SourceFile) (id : Nat)
    (hid : id < (ofFiles files).index.size) :
    ∃ s docId cs new, Prolonged (ofFiles files) (ofFiles (files ++ [f])) id s docId cs new ∧
      ∀ x ∈ new, x.1.file = files.length ∧ f.comment x.1 = .ok x.2 := by
  obtain ⟨e, he, hs⟩ := exists_entry files hid
  obtain ⟨later, hlater⟩ := symbols_ofFiles_append files f
  obtain ⟨docId, hdocId, hdocId'⟩ := docId_ofFiles_append f hs
  obtain ⟨cs, new, hpieces, hcs, hpieces', hcs', hfit, hfit', hnew⟩ := exists_comments_append f he
  have hsymbol : (ofFiles files).index.symbol id = .ok e.symbol :=
    SymbolIndex.symbol_eq_ok_iff.2 hs
  have hsymbol' : (ofFiles (files ++ [f])).index.symbol id = .ok e.symbol := by
    rw [SymbolIndex.symbol_eq_ok_iff, hlater,
      List.getElem?_append_left (List.getElem?_eq_some_iff.1 hs).1, hs]
  have hxml := xml_eq hsymbol hdocId hpieces hcs
  have hxml' := xml_eq hsymbol' hdocId' hpieces' hcs'
  refine ⟨e.symbol, docId, cs, new, ⟨⟨hsymbol, hsymbol'⟩, ⟨hdocId, hdocId'⟩, ⟨hpieces, hpieces'⟩,
    ⟨hcs, hcs'⟩, ?_, ?_, ?_⟩, hnew⟩
  · intro hpart
    have hone := hfit.single hpart
    have hone' := hfit'.single hpart
    have hnil : new = [] := by
      rw [List.length_map] at hone hone'
      rw [List.length_append] at hone'
      exact List.length_eq_zero_iff.1 (by omega)
    refine ⟨hnil, fun policy => ⟨_, hxml policy, ?_⟩⟩
    rw [hxml' policy, hnil, List.append_nil]
  · rintro hmethod ⟨x, hx, hrole⟩ policy
    refine ⟨Xml.memberOrEmpty docId x.2, ?_, ?_⟩
    · rw [hxml policy, if_neg fun h => h.2.2 x hx hrole, merge_implemented hmethod hfit hx hrole]
    · have hx' := List.mem_append_left new hx
      rw [hxml' policy, if_neg fun h => h.2.2 x hx' hrole,
        merge_implemented hmethod hfit' hx' hrole]
  · intro htype
    have hbody : Stacked cs (mergeComments (.ofSymbol e.symbol) (roled cs)) :=
      stacked_of_type htype
    have hbody' : Stacked (cs ++ new) (mergeComments (.ofSymbol e.symbol) (roled (cs ++ new))) :=
      stacked_of_type htype
    exact ⟨_, _, merged_eq_ok hsymbol hcs, merged_eq_ok hsymbol' hcs', hbody, hbody',
      hbody.goesOn hbody'⟩

/-! ## The second part of a class -/

/-- The class and its method, each with the piece of the first file. -/
theorem entries_definingPart : (builderOf [definingPart]).entries =
    [⟨sharedClass, [firstPart]⟩, ⟨sharedMethod, [definingPiece]⟩] := by
  unfold builderOf
  simp only [List.zipIdx_cons, List.zipIdx_nil, List.foldl_cons, List.foldl_nil,
    IndexBuilder.enterFile, outline_definingPart]
  decide +kernel

/-- The comments of a symbol that one piece of the first part declares. -/
theorem comments_definingPart (id : Nat) {s : Symbol} {p : Piece} {text : Option Text}
    (he : (builderOf [definingPart]).entries[id]? = some ⟨s, [p]⟩)
    (hfile : p.file = 0) (h : definingPart.comment p = .ok text) :
    (ofFiles [definingPart]).comments id = .ok [(p, text)] := by
  have hcomment : (ofFiles ([] ++ [definingPart])).comment p = .ok text := by
    rw [comment_of_last hfile, h]
  exact comments_of_pieces (pieces_of_singleton he) (List.forall_mem_singleton.2 hcomment)

/-- The file of the second part prolongs the class by its part, whose comment goes below the one
that is there, and the method by the piece that implements it. -/
theorem exists_prolonged_definingPart : 0 < (ofFiles [definingPart]).index.size ∧
    1 < (ofFiles [definingPart]).index.size ∧
    (∃ s docId, Prolonged (ofFiles [definingPart]) (ofFiles bothParts) 0 s docId
      [(firstPart, some "First.".toList)] [(secondPart, some "Second.".toList)]) ∧
    ∃ s docId, Prolonged (ofFiles [definingPart]) (ofFiles bothParts) 1 s docId
      [(definingPiece, some "One.".toList)] [(implementingPiece, none)] := by
  have hsize : (ofFiles [definingPart]).index.size = 2 := by
    rw [SymbolIndex.size_eq, symbols_ofFiles, IndexBuilder.length_symbols, entries_definingPart]
    rfl
  have hzero : 0 < (ofFiles [definingPart]).index.size := by
    rw [hsize]
    decide
  have hone : 1 < (ofFiles [definingPart]).index.size := by
    rw [hsize]
    decide
  have hclass : definingPart.comment firstPart = .ok (some "First.".toList) :=
    SourceFile.comment_eq_ok_iff.2 (by decide +kernel)
  have hmethod : definingPart.comment definingPiece = .ok (some "One.".toList) :=
    SourceFile.comment_eq_ok_iff.2 (by decide +kernel)
  refine ⟨hzero, hone, ?_, ?_⟩
  · obtain ⟨s, docId, cs, new, h, -⟩ := exists_prolonged [definingPart] implementingPart 0 hzero
    have hbefore := comments_definingPart 0 (by rw [entries_definingPart]; rfl) rfl hclass
    obtain rfl := Except.ok.inj (h.comments.1.symm.trans hbefore)
    have hafter := Except.ok.inj (h.comments.2.symm.trans comments_sharedClass)
    obtain rfl : new = [(secondPart, some "Second.".toList)] := (List.cons.inj hafter).2
    exact ⟨s, docId, h⟩
  · obtain ⟨s, docId, cs, new, h, -⟩ := exists_prolonged [definingPart] implementingPart 1 hone
    have hbefore := comments_definingPart 1 (by rw [entries_definingPart]; rfl) rfl hmethod
    obtain rfl := Except.ok.inj (h.comments.1.symm.trans hbefore)
    have hafter := Except.ok.inj (h.comments.2.symm.trans comments_sharedMethod)
    obtain rfl : new = [(implementingPiece, none)] := (List.cons.inj hafter).2
    exact ⟨s, docId, h⟩

end PartialDocs.Compilation
