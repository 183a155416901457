import PartialDocs.Compilation
import PartialDocs.Proofs.Declaration.Outline

/-!
# What a compilation hands to the builder

`Compilation.handed` lists the declarations of some files as the builder gets them, each
symbol already in its place.  The builder of the compilation has added them one after
another (`builderOf_eq_addAll`), every addition was allowed (`admits_handed`), and every
piece has the kind and span of a node of the file that it names (`located_handed`).
-/

set_option autoImplicit false

namespace PartialDocs.Compilation

open IndexBuilder (addAll addAll_append admits_append)

/-- What further files hand to the builder. -/
def handedFrom (b : IndexBuilder) : List (SourceFile × Nat) → List (Symbol × Piece)
  | [] => []
  | (f, ordinal) :: rest =>
    b.handedAll none (f.outline ordinal) ++ handedFrom (b.enterFile ordinal f) rest

/-- The declarations of some files as they are handed to the builder. -/
def handed (files : List SourceFile) : List (Symbol × Piece) := handedFrom .empty files.zipIdx

/-- The piece has the kind and the span of a node of the file that it names. -/
def Located (files : List SourceFile) (p : Piece) : Prop :=
  ∃ (f : SourceFile) (t : Tree), files[p.file]? = some f ∧ Tree.Within t f.tree ∧
    t.kind = p.nodeKind ∧ t.start = p.offset ∧ t.stop = p.stop

/-- Entering a file is adding what its outline hands on. -/
theorem enterFile_eq_addAll (b : IndexBuilder) (ordinal : Nat) (f : SourceFile) :
    b.enterFile ordinal f = b.addAll (b.handedAll none (f.outline ordinal)) :=
  IndexBuilder.enterAll_eq_addAll b none (f.outline ordinal)

/-- Entering files is adding what they hand on. -/
theorem foldl_enterFile (b : IndexBuilder) (fs : List (SourceFile × Nat)) :
    fs.foldl (fun b (f, ordinal) => b.enterFile ordinal f) b = b.addAll (handedFrom b fs) := by
  induction fs generalizing b with
  | nil => rfl
  | cons f rest ih =>
    obtain ⟨f, ordinal⟩ := f
    rw [List.foldl_cons, handedFrom, addAll_append, ← enterFile_eq_addAll]
    exact ih (b.enterFile ordinal f)

/-- The builder of a compilation has added everything that was handed over. -/
theorem builderOf_eq_addAll (files : List SourceFile) :
    builderOf files = IndexBuilder.empty.addAll (handed files) :=
  foldl_enterFile .empty files.zipIdx

/-- What one file hands over is allowed, and its pieces are known when those of its nodes are. -/
theorem admits_outline_of_knows {Known : Piece → Prop} {ordinal : Nat} {f : SourceFile}
    (known : Declaration.KnowsNodes ordinal f.text Known f.tree) {b : IndexBuilder} (hb : b.Sound) :
    b.Admits (b.handedAll none (f.outline ordinal)) ∧
      ∀ x ∈ b.handedAll none (f.outline ordinal), Known x.2 := by
  refine IndexBuilder.admits_handedAll ?_ b hb (by simp [IndexBuilder.IsTypeOrNone])
  intro d hd b' hb' hnone
  obtain ⟨hproper, htype⟩ := Declaration.proper_ofChildren f.tree .file known d hd
  have hsort : d.symbol.kind.isType = true ∨ (none : Option SymbolId).isSome = true := by
    simpa [Declaration.Scope.file] using htype
  exact IndexBuilder.admits_handed hproper b' none hb' hnone hsort

/-- What one file hands over is allowed and located. -/
theorem admits_outline {files : List SourceFile} {ordinal : Nat} {f : SourceFile}
    (hf : files[ordinal]? = some f) {b : IndexBuilder} (hb : b.Sound) :
    b.Admits (b.handedAll none (f.outline ordinal)) ∧
      ∀ x ∈ b.handedAll none (f.outline ordinal), Located files x.2 :=
  admits_outline_of_knows (fun t _ ht => ⟨f, t, hf, ht, rfl, rfl, rfl⟩) hb

/-- The pieces that a file hands over name this file. -/
theorem file_of_mem_handedAll {ordinal : Nat} {f : SourceFile} {b : IndexBuilder} (hb : b.Sound)
    {s : Symbol} {p : Piece} (h : (s, p) ∈ b.handedAll none (f.outline ordinal)) :
    p.file = ordinal := by
  have known : Declaration.KnowsNodes ordinal f.text (fun p => p.file = ordinal) f.tree :=
    fun _ _ _ => rfl
  exact (admits_outline_of_knows known hb).2 (s, p) h

/-- What files hand on is admitted, and each piece stands in its file. -/
theorem admits_handedFrom {files : List SourceFile} {fs : List (SourceFile × Nat)}
    (h : ∀ x ∈ fs, files[x.2]? = some x.1) {b : IndexBuilder} (hb : b.Sound) :
    b.Admits (handedFrom b fs) ∧ ∀ x ∈ handedFrom b fs, Located files x.2 := by
  induction fs generalizing b with
  | nil => exact ⟨trivial, by simp [handedFrom]⟩
  | cons f rest ih =>
    obtain ⟨f, ordinal⟩ := f
    obtain ⟨hadmits, hlocated⟩ := admits_outline (h _ List.mem_cons_self) hb
    obtain ⟨hadmits', hlocated'⟩ :=
      ih (fun x hx => h x (List.mem_cons_of_mem _ hx)) (hb.addAll hadmits)
    rw [← enterFile_eq_addAll] at hadmits' hlocated'
    rw [handedFrom]
    refine ⟨admits_append.2 ⟨hadmits, ?_⟩, ?_⟩
    · rw [← enterFile_eq_addAll]
      exact hadmits'
    · intro x hx
      rcases List.mem_append.1 hx with hx | hx
      · exact hlocated x hx
      · exact hlocated' x hx

/-- A file with its ordinal is the one at this place. -/
theorem getElem?_of_mem_zipIdx {files : List SourceFile} {x : SourceFile × Nat}
    (hx : x ∈ files.zipIdx) : files[x.2]? = some x.1 := by
  obtain ⟨f, i⟩ := x
  simpa using List.mem_zipIdx_iff_getElem?.1 hx

/-- Every declaration of a compilation is allowed at the moment when it is added. -/
theorem admits_handed (files : List SourceFile) : IndexBuilder.empty.Admits (handed files) :=
  (admits_handedFrom (fun _ => getElem?_of_mem_zipIdx) IndexBuilder.sound_empty).1

/-- Every piece of a compilation is located in its file. -/
theorem located_handed (files : List SourceFile) : ∀ x ∈ handed files, Located files x.2 :=
  (admits_handedFrom (fun _ => getElem?_of_mem_zipIdx) IndexBuilder.sound_empty).2

/-- **The builder of a compilation is sound.** -/
theorem sound_builderOf (files : List SourceFile) : (builderOf files).Sound := by
  rw [builderOf_eq_addAll]
  exact IndexBuilder.sound_empty.addAll (admits_handed files)

/-- A further file is entered after all others. -/
theorem builderOf_append (files : List SourceFile) (f : SourceFile) :
    builderOf (files ++ [f]) = (builderOf files).enterFile files.length f := by
  unfold builderOf
  rw [List.zipIdx_append, List.foldl_append, Nat.zero_add]
  rfl

/-- A declaration is allowed where it stands among those handed over, and the builder was sound
before it. -/
theorem allowed_of_handed {files : List SourceFile} {before after : List (Symbol × Piece)}
    {s : Symbol} {p : Piece} (h : handed files = before ++ (s, p) :: after) :
    (IndexBuilder.empty.addAll before).Sound ∧ (IndexBuilder.empty.addAll before).Allowed s p := by
  have hadmits := admits_handed files
  rw [h, admits_append] at hadmits
  exact ⟨IndexBuilder.sound_empty.addAll hadmits.1, hadmits.2.1⟩

/-- The pieces of every symbol are located. -/
theorem located_of_mem_pieces {files : List SourceFile} {e : IndexEntry} {p : Piece}
    (he : e ∈ (builderOf files).entries) (hp : p ∈ e.pieces) : Located files p := by
  rw [builderOf_eq_addAll] at he
  rcases IndexBuilder.mem_pieces_addAll he hp with ⟨e', he', -⟩ | ⟨s, hs⟩
  · simp [IndexBuilder.empty] at he'
  · exact located_handed files (s, p) hs

/-- A located piece names one of the files. -/
theorem Located.file_lt {files : List SourceFile} {p : Piece} (h : Located files p) :
    p.file < files.length := by
  obtain ⟨f, -, hf, -⟩ := h
  exact (List.getElem?_eq_some_iff.1 hf).1

/-- The comment of a located piece is found. -/
theorem Located.exists_comment {files : List SourceFile} {p : Piece} (h : Located files p)
    (index : SymbolIndex) : ∃ text, (Compilation.mk files index).comment p = .ok text := by
  obtain ⟨f, t, hf, ht, hkind, hstart, hstop⟩ := h
  have hfound := Tree.precedingSiblings?_isSome ht
  rw [hkind, hstart, hstop] at hfound
  obtain ⟨siblings, hsiblings⟩ := Option.isSome_iff_exists.1 hfound
  refine ⟨Comment.above? f.text p.offset siblings, ?_⟩
  unfold comment SourceFile.comment
  simp only [hf, hsiblings]

end PartialDocs.Compilation
