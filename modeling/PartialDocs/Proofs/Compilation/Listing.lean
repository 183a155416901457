import Mathlib.Logic.Equiv.Fin.Basic
import Mathlib.Logic.Equiv.Set
import PartialDocs.Proofs.Compilation.Handover
import PartialDocs.Proofs.Index.ListedRun

/-!
# Listing the declarations of all sources

The listing of a compilation goes through its files one after another.  A compilation
without conflicts tracks it (`tracks_of_orderly`), and whether there are conflicts can be
read off it, so that the order of the files does not matter for that.  Reordering the files
reorders the listing block by block (`filter_listing_reorder`).
-/

set_option autoImplicit false

namespace PartialDocs

namespace IndexBuilder

/-- What is handed over, each declared symbol with the number that it gets. -/
def numbered : IndexBuilder → List (Symbol × Piece) → List (Symbol × Option SymbolId)
  | _, [] => []
  | b, d :: ds => (d.1, (b.add d.1 d.2).2) :: numbered (b.add d.1 d.2).1 ds

/-- A run is smooth when every declaration gets a number, those of one type spell its type
parameters alike, and all are readable.  The declarations before the run are those that
founded the symbols so far, at least. -/
theorem smooth_of_numbered {ds : List (Symbol × Piece)} {b : IndexBuilder}
    {before : List (Symbol × Option SymbolId)}
    (founders : ∀ (id : Nat) (t : Symbol), b.symbols[id]? = some t → (t, some id) ∈ before)
    (accepted : ∀ x ∈ b.numbered ds, x.2 ≠ none)
    (alike : ∀ x ∈ before ++ b.numbered ds, ∀ y ∈ before ++ b.numbered ds, x.2 = y.2 →
      x.1.kind.isType = true → x.1.typeParameters = y.1.typeParameters)
    (readable : ∀ x ∈ b.numbered ds, x.1.Readable) : b.Smooth ds := by
  induction ds generalizing b before with
  | nil => trivial
  | cons d ds ih =>
    unfold numbered at accepted alike readable
    have hstep := add_step b d.1 d.2
    have hanswer := accepted _ List.mem_cons_self
    obtain ⟨id, hid⟩ := Option.ne_none_iff_exists'.1 hanswer
    rw [hid] at hstep alike
    -- the declaration founds its symbol, or the founder stands among those before
    have hfounders : ∀ (i : Nat) (t : Symbol), (b.add d.1 d.2).1.symbols[i]? = some t →
        (t, some i) ∈ before ++ [(d.1, some id)] := by
      intro i t ht
      rcases hstep.symbol_cases ht with hold | ⟨rfl, rfl⟩
      · exact List.mem_append_left _ (founders i t hold)
      · exact List.mem_append_right _ List.mem_cons_self
    rw [List.append_cons] at alike
    refine ⟨⟨readable _ List.mem_cons_self, ?_⟩, ?_⟩
    · obtain ⟨t, ht⟩ := hstep.exists_symbol
      refine ⟨id, t, hid, ht, ?_⟩
      intro htype
      have hown : (d.1, some id) ∈
          (before ++ [(d.1, some id)]) ++ numbered (b.add d.1 d.2).1 ds := by
        simp
      exact (alike _ hown _ (List.mem_append_left _ (hfounders id t ht)) rfl htype).symm
    · exact ih hfounders (fun x hx => accepted x (List.mem_cons_of_mem _ hx)) alike fun x hx =>
        readable x (List.mem_cons_of_mem _ hx)

end IndexBuilder

namespace Compilation

/-! ## The listing of some files -/

/-- The declarations of files that have the given ordinals. -/
def listingFrom (fs : List (SourceFile × Nat)) : List Listed :=
  fs.flatMap fun x => x.1.listing x.2

/-- The declarations of a compilation in the order of its files. -/
def listing (files : List SourceFile) : List Listed := listingFrom files.zipIdx

/-- What one file hands over goes along with its listing. -/
theorem mirrors_outline {b : IndexBuilder} {l : List Listed} (hl : b.Tracks l) (ordinal : Nat)
    (f : SourceFile) :
    b.Mirrors l (b.handedAll none (f.outline ordinal)) (f.listing ordinal) := by
  refine IndexBuilder.mirrors_handedAll ?_ b l hl (IndexBuilder.represents_none b)
  intro d hd b' l' hl' hnone
  have known : Declaration.KnowsNodes ordinal f.text (fun _ => True) f.tree := fun _ _ _ => trivial
  obtain ⟨hproper, htype⟩ := Declaration.proper_ofChildren f.tree .file known d hd
  have hsort : d.symbol.kind.isType = true ∨ (none : Option SymbolId).isSome = true := by
    simpa [Declaration.Scope.file] using htype
  exact IndexBuilder.mirrors_handed hproper b' l' none [] hl' hnone hsort

/-- What files hand on mirrors what they list. -/
theorem mirrors_handedFrom {b : IndexBuilder} {l : List Listed} (hl : b.Tracks l)
    (fs : List (SourceFile × Nat)) : b.Mirrors l (handedFrom b fs) (listingFrom fs) := by
  induction fs generalizing b l with
  | nil => exact IndexBuilder.mirrors_nil hl
  | cons f fs ih =>
    obtain ⟨f, ordinal⟩ := f
    have hrest : listingFrom ((f, ordinal) :: fs) = f.listing ordinal ++ listingFrom fs := rfl
    rw [handedFrom, hrest, enterFile_eq_addAll]
    refine (mirrors_outline hl ordinal f).append ?_
    intro _ htracks
    exact ih htracks

/-- A compilation with an orderly listing tracks it. -/
theorem tracks_of_orderly {files : List SourceFile} (h : Orderly (listing files)) :
    (builderOf files).Tracks (listing files) := by
  have hmirrors := mirrors_handedFrom IndexBuilder.tracks_empty files.zipIdx
  rw [builderOf_eq_addAll]
  exact hmirrors.tracks (hmirrors.smooth h)

/-! ## Compilations without conflicts -/

/-- No declaration is refused, all parts of a type spell its type parameters alike, and the type of
every parameter can be read. -/
structure FreeOfConflicts (files : List SourceFile) : Prop where
  accepted : ∀ x ∈ IndexBuilder.empty.numbered (handed files), x.2 ≠ none
  alike : ∀ x ∈ IndexBuilder.empty.numbered (handed files),
    ∀ y ∈ IndexBuilder.empty.numbered (handed files), x.2 = y.2 →
      x.1.kind.isType = true → x.1.typeParameters = y.1.typeParameters
  readable : ∀ x ∈ IndexBuilder.empty.numbered (handed files), x.1.Readable

/-- The declarations of a compilation without conflicts are orderly. -/
theorem FreeOfConflicts.orderly {files : List SourceFile} (h : FreeOfConflicts files) :
    Orderly (listing files) := by
  have hsmooth : IndexBuilder.empty.Smooth (handed files) := by
    have hnone : ∀ (id : Nat) (t : Symbol), IndexBuilder.empty.symbols[id]? = some t →
        (t, some id) ∈ ([] : List (Symbol × Option SymbolId)) := by
      intro id t ht
      simp [IndexBuilder.symbols, IndexBuilder.empty] at ht
    exact IndexBuilder.smooth_of_numbered hnone h.accepted h.alike h.readable
  exact ((mirrors_handedFrom IndexBuilder.tracks_empty files.zipIdx).tracks hsmooth).orderly

/-! ## Other orders of the files -/

variable {files : List SourceFile}

/-- The files in another order: each has its new place under a permutation. -/
def reorder (files : List SourceFile) (σ : Equiv.Perm (Fin files.length)) : List SourceFile :=
  List.ofFn fun k => files.get (σ.symm k)

/-- The new ordinal of each file under a permutation. -/
def placeUnder {n : Nat} (σ : Equiv.Perm (Fin n)) : Equiv.Perm Nat :=
  σ.extendDomain Fin.equivSubtype

/-- A file stands at its new place. -/
theorem getElem?_reorder (σ : Equiv.Perm (Fin files.length)) (i : Nat) :
    (reorder files σ)[placeUnder σ i]? = files[i]? := by
  unfold reorder placeUnder
  by_cases hi : i < files.length
  · have hplace : σ.extendDomain Fin.equivSubtype i = σ ⟨i, hi⟩ :=
      Equiv.Perm.extendDomain_apply_subtype σ Fin.equivSubtype hi
    rw [hplace, List.getElem?_ofFn]
    simp
  · have hplace : σ.extendDomain Fin.equivSubtype i = i :=
      Equiv.Perm.extendDomain_apply_not_subtype σ Fin.equivSubtype hi
    rw [hplace, List.getElem?_eq_none (by simpa using hi),
      List.getElem?_eq_none (by simpa using hi)]

/-- The pieces of a file name this file. -/
theorem file_of_mem_listing {f : SourceFile} {ordinal : Nat} {x : Listed}
    (hx : x ∈ f.listing ordinal) : x.piece.file = ordinal := by
  rw [f.listing_renumber (fun _ => ordinal) ordinal] at hx
  obtain ⟨y, -, rfl⟩ := List.mem_map.1 hx
  rfl

/-- What is listed for one file. -/
theorem filter_listingFrom (files : List SourceFile) (n k : Nat) :
    (listingFrom (files.zipIdx n)).filter (fun x => x.piece.file = k) =
      if n ≤ k then (files[k - n]?).elim [] fun f => f.listing k else [] := by
  induction files generalizing n with
  | nil => simp [listingFrom]
  | cons f files ih =>
    have hcons : listingFrom ((f :: files).zipIdx n) =
        f.listing n ++ listingFrom (files.zipIdx (n + 1)) := rfl
    rw [hcons, List.filter_append, ih]
    rcases Nat.lt_trichotomy n k with hlt | rfl | hgt
    · have hnone : (f.listing n).filter (fun x => x.piece.file = k) = [] := by
        rw [List.filter_eq_nil_iff]
        intro x hx
        have hfile := file_of_mem_listing hx
        simp only [decide_eq_true_eq]
        omega
      obtain ⟨i, hi⟩ : ∃ i, k - n = i + 1 := ⟨k - n - 1, by omega⟩
      rw [hnone, if_pos (by omega), if_pos (by omega), hi, show k - (n + 1) = i by omega,
        List.getElem?_cons_succ, List.nil_append]
    · have hall : (f.listing n).filter (fun x => x.piece.file = n) = f.listing n := by
        rw [List.filter_eq_self]
        intro x hx
        simpa using file_of_mem_listing hx
      rw [hall, if_neg (by omega), if_pos (by omega), Nat.sub_self]
      simp
    · have hnone : (f.listing n).filter (fun x => x.piece.file = k) = [] := by
        rw [List.filter_eq_nil_iff]
        intro x hx
        have hfile := file_of_mem_listing hx
        simp only [decide_eq_true_eq]
        omega
      rw [hnone, if_neg (by omega), if_neg (by omega)]
      rfl

/-- What files list of one file is what this file lists. -/
theorem filter_listing (files : List SourceFile) (k : Nat) :
    (listing files).filter (fun x => x.piece.file = k) =
      (files[k]?).elim [] fun f => f.listing k := by
  have hfrom := filter_listingFrom files 0 k
  rwa [if_pos (Nat.zero_le k), Nat.sub_zero] at hfrom

/-- **Reordering the files reorders the listing file by file.** -/
theorem filter_listing_reorder (σ : Equiv.Perm (Fin files.length)) (k : Nat) :
    (listing (reorder files σ)).filter (fun x => x.piece.file = k) =
      ((listing files).map (Listed.renumber (placeUnder σ))).filter fun x => x.piece.file = k := by
  obtain ⟨i, rfl⟩ := (placeUnder σ).surjective k
  have hfilter : ((listing files).map (Listed.renumber (placeUnder σ))).filter
      (fun x => x.piece.file = placeUnder σ i) =
      ((listing files).filter fun x => x.piece.file = i).map (Listed.renumber (placeUnder σ)) := by
    rw [List.filter_map]
    congr 1
    apply List.filter_congr
    intro x _
    simp [Listed.renumber, Piece.renumber]
  rw [hfilter, filter_listing, filter_listing, getElem?_reorder]
  cases files[i]? with
  | none => rfl
  | some f => exact f.listing_renumber (placeUnder σ) i

/-- Files in another order list the same, renumbered. -/
theorem perm_listing_reorder (σ : Equiv.Perm (Fin files.length)) :
    (listing (reorder files σ)).Perm ((listing files).map (Listed.renumber (placeUnder σ))) := by
  rw [List.perm_iff_count]
  intro x
  have hcount : ∀ l : List Listed,
      (l.filter fun y => y.piece.file = x.piece.file).count x = l.count x := fun l =>
    List.count_filter (by simp)
  rw [← hcount (listing (reorder files σ)), filter_listing_reorder, hcount]

/-- The order of the files does not matter for whether there are conflicts. -/
theorem FreeOfConflicts.orderly_reorder (h : FreeOfConflicts files)
    (σ : Equiv.Perm (Fin files.length)) : Orderly (listing (reorder files σ)) :=
  (h.orderly.renumber (placeUnder σ)).perm (perm_listing_reorder σ).symm

end Compilation

end PartialDocs
