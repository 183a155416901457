import PartialDocs.Proofs.Resolution.Totality
import PartialDocs.Proofs.Xml.Decoding

/-!
# Reading the documentation file of a compilation back

Comments go into a documentation file as they are, markup included.  Still nothing is
lost: as long as no documentation ID has a line feed, `Xml.decode` gets the name of the
assembly and the members of the file back (`decode_docFile`).
-/

set_option autoImplicit false

namespace PartialDocs.Compilation

/-- A documentation file and the members read off it: one for each documented symbol, in the order
of the symbols. -/
structure Decoded (c : Compilation) (policy : UnimplementedPolicy) (assembly : Text)
    (file : DocFile) (emitted : List Emitted) : Prop where
  written : c.docFile policy assembly = .ok file
  ids : emitted.map Emitted.id = c.index.ids.filter (c.isDocumented policy)
  speaks : ∀ e ∈ emitted, e.Speaks c
  read : Xml.decode file.xml = (assembly, emitted.map fun e => (e.docId, e.body))
  count : file.members = emitted.length

/-- **The documentation file of a compilation without line feeds in its documentation IDs says
which members it was written from, whatever their comments are.** -/
theorem decode_docFile (files : List SourceFile) (policy : UnimplementedPolicy) (assembly : Text)
    (h : ∀ id docId, (ofFiles files).index.docId id = .ok docId → '\n' ∉ docId) :
    ∃ file emitted, Decoded (ofFiles files) policy assembly file emitted := by
  obtain ⟨emitted, hfile, hids, hspeaks⟩ := exists_documented files policy assembly
  have hlines : ∀ m ∈ emitted.map fun e => (e.docId, e.body), '\n' ∉ m.1 := by
    intro m hm
    obtain ⟨e, he, rfl⟩ := List.mem_map.1 hm
    exact h e.id e.docId (hspeaks e he).docId
  have helements : emitted.map Emitted.element =
      (emitted.map fun e => (e.docId, e.body)).map fun m => Xml.member m.1 m.2 := by
    rw [List.map_map]
    rfl
  refine ⟨_, emitted, hfile, hids, hspeaks, ?_, rfl⟩
  rw [helements, Xml.decode_file assembly hlines]

/-! ## Comments that look like the lines around them -/

/-- A class whose comment is a closing tag, an empty line and an opening tag. -/
def tagsInComment : SourceFile where
  path := "C.cs".toList
  text := "/// </member>\n///\n/// <member name=\"x\">\nclass C \x7b \x7d".toList
  tree :=
    .named "compilation_unit" 0 51 none
      [.named "comment" 0 13 none [], .named "comment" 14 17 none [],
       .named "comment" 18 39 none [],
       .named "class_declaration" 40 51 none
        [.token "class" 40 45, .named "identifier" 46 47 (some "name") [],
         .named "declaration_list" 48 51 (some "body") [.token "\x7b" 48 49, .token "\x7d" 50 51]]]

/-- The piece of the class. -/
def taggedPiece : Piece := ⟨0, 40, 51, 3, 0, "class_declaration", .whole⟩

/-- The comment of the class. -/
def taggedComment : Text := "</member>\n\n<member name=\"x\">".toList

/-- The one class of the file. -/
theorem entries_tagsInComment : (builderOf [tagsInComment]).entries =
    [⟨{ name := ['C'], kind := .class }, [taggedPiece]⟩] := by
  have houtline : tagsInComment.outline 0 =
      [.mk { name := ['C'], kind := .class } taggedPiece []] := by decide +kernel
  unfold builderOf
  simp only [List.zipIdx_cons, List.zipIdx_nil, List.foldl_cons, List.foldl_nil,
    IndexBuilder.enterFile, houtline]
  decide +kernel

/-- There is one symbol. -/
theorem size_tagsInComment : (ofFiles [tagsInComment]).index.size = 1 := by
  rw [SymbolIndex.size_eq, symbols_ofFiles, IndexBuilder.length_symbols, entries_tagsInComment]
  rfl

/-- It is the class. -/
theorem symbol_tagsInComment :
    (ofFiles [tagsInComment]).index.symbol 0 = .ok { name := ['C'], kind := .class } := by
  rw [SymbolIndex.symbol_eq_ok_iff, symbols_ofFiles, IndexBuilder.symbols, entries_tagsInComment]
  rfl

/-- The documentation ID of the class. -/
theorem docId_tagsInComment : (ofFiles [tagsInComment]).index.docId 0 = .ok "T:C".toList := by
  have hsymbol := SymbolIndex.symbol_eq_ok_iff.1 symbol_tagsInComment
  rw [SymbolIndex.docId_eq_ok (wellPlaced_ofFiles _) hsymbol, symbols_ofFiles,
    IndexBuilder.symbols, entries_tagsInComment]
  rfl

/-- The piece of the class. -/
theorem pieces_tagsInComment : (ofFiles [tagsInComment]).index.pieces 0 = .ok [taggedPiece] := by
  apply pieces_of_singleton
  rw [entries_tagsInComment]
  rfl

/-- The comment of the class. -/
theorem comments_tagsInComment :
    (ofFiles [tagsInComment]).comments 0 = .ok [(taggedPiece, some taggedComment)] := by
  have hcomment : (ofFiles [tagsInComment]).comment taggedPiece = .ok (some taggedComment) := rfl
  exact comments_of_pieces pieces_tagsInComment (by simpa using hcomment)

/-- The comment of the class comes back line by line. -/
theorem decode_docFile_tagsInComment :
    (∀ id docId, (ofFiles [tagsInComment]).index.docId id = .ok docId → '\n' ∉ docId) ∧
    ∀ policy, ∃ file, (ofFiles [tagsInComment]).docFile policy "A".toList = .ok file ∧
      Xml.decode file.xml = ("A".toList, [("T:C".toList, taggedComment)]) := by
  have hlines : ∀ id docId,
      (ofFiles [tagsInComment]).index.docId id = .ok docId → '\n' ∉ docId := by
    intro id docId hdocId
    rcases Nat.eq_zero_or_pos id with rfl | hpos
    · rw [docId_tagsInComment, Except.ok.injEq] at hdocId
      rw [← hdocId]
      decide
    · have hsize : (ofFiles [tagsInComment]).index.size ≤ id := by
        rw [size_tagsInComment]
        exact hpos
      rw [(refuses_of_size_le hsize).docId] at hdocId
      cases hdocId
  refine ⟨hlines, ?_⟩
  intro policy
  obtain ⟨file, emitted, d⟩ := decode_docFile [tagsInComment] policy "A".toList hlines
  have hdocumented : (ofFiles [tagsInComment]).isDocumented policy 0 = true := by
    have hpieces : (ofFiles [tagsInComment]).index.pieces 0 =
        .ok ([(taggedPiece, some taggedComment)].map Prod.fst) := pieces_tagsInComment
    unfold isDocumented
    rw [xml_eq symbol_tagsInComment docId_tagsInComment hpieces comments_tagsInComment policy,
      if_neg fun hskip => absurd hskip.2.1 (by decide)]
    rfl
  have hids : emitted.map Emitted.id = [0] := by
    have hrange : (ofFiles [tagsInComment]).index.ids = [0] := by
      unfold SymbolIndex.ids
      rw [size_tagsInComment]
      rfl
    rw [d.ids, hrange, List.filter_cons_of_pos hdocumented]
    rfl
  obtain ⟨e, rfl⟩ : ∃ e, emitted = [e] := by
    have hlength : emitted.length = 1 := by simpa using congrArg List.length hids
    exact List.length_eq_one_iff.1 hlength
  have hid : e.id = 0 := by simpa using hids
  obtain ⟨hdocId, hmerged⟩ := d.speaks e List.mem_cons_self
  rw [hid, docId_tagsInComment, Except.ok.injEq] at hdocId
  rw [hid, merged_eq_ok symbol_tagsInComment comments_tagsInComment, Except.ok.injEq] at hmerged
  have hbody : taggedComment = e.body := Option.some.inj hmerged
  refine ⟨file, d.written, ?_⟩
  rw [d.read, hdocId, hbody]
  rfl

end PartialDocs.Compilation
