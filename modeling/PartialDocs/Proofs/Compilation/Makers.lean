import PartialDocs.Proofs.Compilation.SourceOrder
import PartialDocs.Proofs.Declaration.Makers

/-!
# The nodes behind a compilation

What a compilation hands to the builder comes from the listings of its files
(`exists_listed_of_handedFrom`), so that a node of one of the files has made it
(`exists_madeBy`).
-/

set_option autoImplicit false

namespace PartialDocs.Compilation

open Declaration (Makes)

variable {files : List SourceFile} {x : Symbol × Piece}

/-- What files hand on is listed by one of them, but for its container. -/
theorem exists_listed_of_handedFrom {b : IndexBuilder} {fs : List (SourceFile × Nat)}
    (hx : x ∈ handedFrom b fs) :
    ∃ f ∈ fs, ∃ y ∈ f.1.listing f.2, IndexBuilder.unplaced x =
      IndexBuilder.unplaced (y.symbol, y.piece) := by
  induction fs generalizing b with
  | nil => simp [handedFrom] at hx
  | cons f fs ih =>
    obtain ⟨f, ordinal⟩ := f
    rw [handedFrom, List.mem_append] at hx
    obtain hx | hx := hx
    · exact ⟨_, List.mem_cons_self, IndexBuilder.mem_listingAll_of_mem_handedAll hx []⟩
    · obtain ⟨g, hg, hlisted⟩ := ih hx
      exact ⟨g, List.mem_cons_of_mem _ hg, hlisted⟩

/-- Whether a node of a file has made a declaration, apart from the number of its container. -/
def MadeBy (files : List SourceFile) (x : Symbol × Piece) (f : SourceFile) (t : Tree) : Prop :=
  files[x.2.file]? = some f ∧ Tree.Within t f.tree ∧
    ∃ s, Makes x.2.file f.text t s x.2 ∧ x.1 = { s with container := x.1.container }

/-- **A node has made whatever is handed over.** -/
theorem exists_madeBy (hx : x ∈ handed files) : ∃ f t, MadeBy files x f t := by
  obtain ⟨f, hf, y, hy, hsame⟩ := exists_listed_of_handedFrom hx
  obtain ⟨hsymbol, hpiece⟩ := Prod.mk.inj hsame
  obtain ⟨t, ht, hmakes⟩ := Declaration.made_listing hy
  have hfile : x.2.file = f.2 := by
    rw [hpiece]
    exact file_of_mem_listing hy
  refine ⟨f.1, t, ?_, ht, y.symbol, ?_, ?_⟩
  · rw [hfile]
    exact getElem?_of_mem_zipIdx hf
  · rw [hfile, hpiece]
    exact hmakes
  · have hcontainer := congrArg (fun s : Symbol => { s with container := x.1.container }) hsymbol
    exact hcontainer

end PartialDocs.Compilation
