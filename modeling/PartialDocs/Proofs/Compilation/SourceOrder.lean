import PartialDocs.Proofs.Compilation.Listing
import PartialDocs.Proofs.Compilation.PieceRoles
import PartialDocs.Proofs.Declaration.SourceOrder
import PartialDocs.Proofs.Index.Arrival
import PartialDocs.Proofs.Resolution.Emission

/-!
# The order of the index is the order of the sources

From files in whose trees siblings stand apart, declarations come to the builder by increasing
file and offset.  Symbols are therefore numbered by their first declarations, and a
documentation file has its members in that order (`sourceOrdered`).  From a tree in which a
sibling reaches into the next one they need not be (`overlapping_out_of_order`).
-/

set_option autoImplicit false

namespace PartialDocs

/-- Whether the first piece of a symbol is in an earlier file than that of another one, or in the
same file no further on. -/
def SymbolIndex.DeclaredFirst (index : SymbolIndex) (i j : SymbolId) : Prop :=
  ∃ p ps q qs, index.pieces i = .ok (p :: ps) ∧ index.pieces j = .ok (q :: qs) ∧
    (∀ x ∈ p :: ps, p.Precedes x) ∧ (∀ y ∈ q :: qs, q.Precedes y) ∧ p.Precedes q

namespace Compilation

/-- What the order of the sources means for a compilation. -/
structure SourceOrdered (files : List SourceFile) : Prop where
  /-- All declarations, and so those of one symbol, come to the builder by increasing place. -/
  arrival : ((handed files).map Prod.snd).Pairwise Piece.Precedes
  pieces : ∀ e ∈ (builderOf files).entries, e.pieces.Pairwise Piece.Precedes
  /-- Symbols are numbered in the order of their first declarations. -/
  symbols : ∀ i j : Nat, i < j → j < (ofFiles files).index.size →
    (ofFiles files).index.DeclaredFirst i j
  /-- A documentation file has its members in the order of their first declarations. -/
  members : ∀ (policy : UnimplementedPolicy) (assembly : Text), ∃ emitted : List Emitted,
    (ofFiles files).docFile policy assembly =
        .ok ⟨assembly, emitted.length, Xml.file assembly (emitted.map Emitted.element)⟩ ∧
      (∀ e ∈ emitted, e.Speaks (ofFiles files)) ∧
      emitted.Pairwise fun x y => (ofFiles files).index.DeclaredFirst x.id y.id

/-! ## Arrival -/

/-- The declarations of a file in order come by increasing place. -/
theorem sorted_handedAll (b : IndexBuilder) (f : SourceFile) (ordinal : Nat)
    (h : f.tree.InOrder) :
    ((b.handedAll none (f.outline ordinal)).map Prod.snd).Pairwise Piece.Precedes := by
  have hsub := IndexBuilder.pieces_handedAll_sublist (f.outline ordinal) b none []
  refine List.Pairwise.sublist hsub (List.pairwise_map.2 ?_)
  refine (f.listing_sorted ordinal h).imp_of_mem ?_
  intro x y hx hy hxy
  exact .inr ⟨(file_of_mem_listing hx).trans (file_of_mem_listing hy).symm, hxy⟩

/-- Whatever the builder, the pieces that a file hands over name this file. -/
theorem file_of_handedAll {b : IndexBuilder} {f : SourceFile} {ordinal : Nat} {p : Piece}
    (h : p ∈ (b.handedAll none (f.outline ordinal)).map Prod.snd) : p.file = ordinal := by
  have hsub := IndexBuilder.pieces_handedAll_sublist (f.outline ordinal) b none []
  obtain ⟨x, hx, rfl⟩ := List.mem_map.1 (hsub.subset h)
  exact file_of_mem_listing hx

/-- What files in order hand on is in order, each piece in its file. -/
theorem sorted_handedFrom (b : IndexBuilder) (fs : List (SourceFile × Nat))
    (inOrder : ∀ x ∈ fs, x.1.tree.InOrder) (ascending : fs.Pairwise fun x y => x.2 < y.2) :
    ((handedFrom b fs).map Prod.snd).Pairwise Piece.Precedes ∧
      ∀ p ∈ (handedFrom b fs).map Prod.snd, ∃ x ∈ fs, p.file = x.2 := by
  induction fs generalizing b with
  | nil =>
    unfold handedFrom
    exact ⟨List.Pairwise.nil, by simp⟩
  | cons f rest ih =>
    obtain ⟨f, ordinal⟩ := f
    obtain ⟨hfirst, hrest⟩ := List.pairwise_cons.1 ascending
    obtain ⟨hf, hfs⟩ := List.forall_mem_cons.1 inOrder
    obtain ⟨hsorted, hfiles⟩ := ih (b.enterFile ordinal f) hfs hrest
    rw [handedFrom, List.map_append]
    refine ⟨List.pairwise_append.2 ⟨sorted_handedAll b f ordinal hf, hsorted, ?_⟩, ?_⟩
    · intro p hp q hq
      obtain ⟨x, hx, hfile⟩ := hfiles q hq
      refine .inl ?_
      rw [file_of_handedAll hp, hfile]
      exact hfirst x hx
    · intro p hp
      rcases List.mem_append.1 hp with hp | hp
      · exact ⟨_, List.mem_cons_self, file_of_handedAll hp⟩
      · obtain ⟨x, hx, hfile⟩ := hfiles p hp
        exact ⟨x, List.mem_cons_of_mem _ hx, hfile⟩

/-- Ordinals ascend. -/
theorem pairwise_zipIdx (files : List SourceFile) :
    files.zipIdx.Pairwise fun x y => x.2 < y.2 := by
  have hsnd : (files.zipIdx.map Prod.snd).Pairwise (· < ·) := by
    rw [List.zipIdx_map_snd]
    exact List.pairwise_lt_range'
  exact List.pairwise_map.1 hsnd

/-- The declarations of files in order come by increasing place. -/
theorem sorted_handed {files : List SourceFile} (h : ∀ f ∈ files, f.tree.InOrder) :
    ((handed files).map Prod.snd).Pairwise Piece.Precedes := by
  refine (sorted_handedFrom .empty files.zipIdx ?_ (pairwise_zipIdx files)).1
  intro x hx
  exact h x.1 (List.mem_of_getElem? (getElem?_of_mem_zipIdx hx))

/-- The builder of files in order has been given its declarations in order. -/
theorem ordered_builderOf {files : List SourceFile} (h : ∀ f ∈ files, f.tree.InOrder) :
    (builderOf files).Ordered := by
  rw [builderOf_eq_addAll]
  refine IndexBuilder.ordered_empty.addAll (sorted_handed h) ?_
  intro d _ e he
  simp [IndexBuilder.empty] at he

/-! ## The index -/

/-- The first piece that a built index answers is before all others. -/
theorem exists_first {files : List SourceFile} {id : Nat} {e : IndexEntry}
    (he : (builderOf files).entries[id]? = some e) :
    ∃ p ps, (ofFiles files).index.pieces id = .ok (p :: ps) ∧ (p :: ps).Perm e.pieces ∧
      ∀ x ∈ p :: ps, p.Precedes x := by
  obtain ⟨ps, hps, hperm, hfit, hsorted⟩ := (sound_builderOf files).pieces_build he
  cases ps with
  | nil => exact absurd rfl hfit.nonempty
  | cons p ps =>
    refine ⟨p, ps, hps, hperm, List.forall_mem_cons.2 ⟨.refl p, ?_⟩⟩
    exact (List.pairwise_cons.1 hsorted).1

/-- Of two symbols the one with the lower number is declared first. -/
theorem declaredFirst_of_lt {files : List SourceFile} (h : ∀ f ∈ files, f.tree.InOrder) {i j : Nat}
    (hij : i < j) (hj : j < (ofFiles files).index.size) :
    (ofFiles files).index.DeclaredFirst i j := by
  obtain ⟨d, hd, -⟩ := exists_entry files (hij.trans hj)
  obtain ⟨e, he, -⟩ := exists_entry files hj
  obtain ⟨p, ps, hps, hpermP, hp⟩ := exists_first hd
  obtain ⟨q, qs, hqs, hpermQ, hq⟩ := exists_first he
  obtain ⟨x, hx, hfirst⟩ := (ordered_builderOf h).first i j d e hij hd he
  refine ⟨p, ps, q, qs, hps, hqs, hp, hq, ?_⟩
  -- the first piece is before the one that the builder knows to be before all others
  have hpx : p.Precedes x := hp x (hpermP.mem_iff.2 hx)
  exact hpx.trans (hfirst q (hpermQ.mem_iff.1 List.mem_cons_self))

/-- **Where siblings stand apart, symbols are numbered in the order of their first declarations, and
so are the members of a documentation file.** -/
theorem sourceOrdered (files : List SourceFile) (h : ∀ f ∈ files, f.tree.Apart) :
    SourceOrdered files where
  arrival := sorted_handed fun f hf => (h f hf).inOrder
  pieces := (ordered_builderOf fun f hf => (h f hf).inOrder).arrival
  symbols _ _ := declaredFirst_of_lt fun f hf => (h f hf).inOrder
  members := by
    intro policy assembly
    obtain ⟨emitted, hfile, hids, hspeaks⟩ := exists_documented files policy assembly
    refine ⟨emitted, hfile, hspeaks, List.pairwise_map.1 ?_⟩
    rw [hids]
    have hascending : (ofFiles files).index.ids.Pairwise (· < ·) := List.pairwise_lt_range
    refine (hascending.imp_of_mem ?_).filter _
    intro i j _ hj hij
    exact declaredFirst_of_lt (fun f hf => (h f hf).inOrder) hij (List.mem_range.1 hj)

/-- In two files with a part of a class each, siblings stand apart. -/
theorem sourceOrdered_bothParts : (∀ f ∈ bothParts, f.tree.Apart) ∧ SourceOrdered bothParts := by
  have hapart : ∀ f ∈ bothParts, f.tree.Apart := by decide +kernel
  exact ⟨hapart, sourceOrdered bothParts hapart⟩

/-! ## Siblings that overlap -/

/-- A tree in which a class reaches into the class after it, and holds a class that starts behind
the start of that one.  Siblings are listed by increasing start within their parents. -/
def overlapping : SourceFile where
  path := "file0.cs".toList
  text := "class O \x7b class B \x7b \x7d \x7d class C : B \x7b \x7d".toList
  tree :=
    .named "compilation_unit" 0 39 none
      [.named "class_declaration" 0 39 none
        [.named "identifier" 6 7 (some "name") [],
         .named "declaration_list" 8 39 (some "body")
          [.named "class_declaration" 26 39 none
            [.named "identifier" 34 35 (some "name") []]]],
       .named "class_declaration" 24 39 none [.named "identifier" 30 31 (some "name") []]]

/-- **It is not enough that siblings are listed by increasing start**: of two classes the one that
is declared later comes first. -/
theorem overlapping_out_of_order :
    overlapping.tree.ByStart ∧
    (ofFiles [overlapping]).findType? "O.B".toList = some 1 ∧
    (ofFiles [overlapping]).findType? "C".toList = some 2 ∧
    (handed [overlapping]).map (fun x => x.2.offset) = [0, 26, 24] ∧
    ¬ (ofFiles [overlapping]).index.DeclaredFirst 1 2 := by
  have hoffset : ∀ {id : Nat} {p : Piece} {ps : List Piece},
      (ofFiles [overlapping]).index.pieces id = .ok (p :: ps) →
      ((ofFiles [overlapping]).index.pieces id).toOption.bind
        (fun ps => ps.head?.map fun p => (p.file, p.offset)) = some (p.file, p.offset) := by
    intro id p ps h
    rw [h]
    rfl
  refine ⟨by decide +kernel, by decide +kernel, by decide +kernel, by decide +kernel, ?_⟩
  rintro ⟨p, ps, q, qs, hp, hq, -, -, hpq⟩
  have hfirst := (hoffset hp).symm.trans (show _ = some (0, 26) by decide +kernel)
  have hsecond := (hoffset hq).symm.trans (show _ = some (0, 24) by decide +kernel)
  rw [Option.some.injEq, Prod.mk.injEq] at hfirst hsecond
  obtain hlt | ⟨-, hle⟩ := hpq
  · omega
  · omega

end Compilation

end PartialDocs
