import PartialDocs.Proofs.Declaration.Listing
import PartialDocs.Proofs.Index.Sorting

/-!
# Sorted pieces under other ordinals

When the files get other ordinals, the pieces of a symbol are sorted anew.  What comes out
is what was there before with the files in their new order: within a file nothing moves
(`mergeSort_renumber`).
-/

set_option autoImplicit false

namespace PartialDocs

section Order

variable {α : Type} (place : Nat → Nat) (piece : α → Piece)

/-- Whether the file of one thing does not come after that of another in a new order. -/
def byPlace (x y : α) : Bool := place (piece x).file ≤ place (piece y).file

/-- Things in the new order of their files, where each has a piece. -/
def inOrder (l : List α) : List α := l.mergeSort (byPlace place piece)

variable {place piece}

/-- What comes first by the places of its files. -/
theorem byPlace_iff {x y : α} :
    byPlace place piece x y = true ↔ place (piece x).file ≤ place (piece y).file :=
  decide_eq_true_iff

/-- Places are sorted transitively. -/
theorem byPlace_trans (x y z : α) (hxy : byPlace place piece x y = true)
    (hyz : byPlace place piece y z = true) : byPlace place piece x z = true := by
  rw [byPlace_iff] at *
  omega

/-- Of two places one comes first. -/
theorem byPlace_total (x y : α) : (byPlace place piece x y || byPlace place piece y x) = true := by
  rw [Bool.or_eq_true, byPlace_iff, byPlace_iff]
  omega

/-- Sorting by places leaves nothing out. -/
theorem perm_inOrder (l : List α) : (inOrder place piece l).Perm l := List.mergeSort_perm l _

/-- What is sorted by places ascends. -/
theorem pairwise_inOrder (l : List α) :
    (inOrder place piece l).Pairwise fun x y => place (piece x).file ≤ place (piece y).file :=
  (List.pairwise_mergeSort byPlace_trans byPlace_total l).imp byPlace_iff.1

/-- Within one file nothing moves. -/
theorem filter_inOrder (k : Nat) (l : List α) :
    (inOrder place piece l).filter (fun x => place (piece x).file = k) =
      l.filter fun x => place (piece x).file = k := by
  unfold inOrder
  rw [filter_mergeSort byPlace_trans byPlace_total]
  apply List.mergeSort_of_pairwise
  apply List.pairwise_of_forall_mem_list
  intro x hx y hy
  have hxk := (List.mem_filter.1 hx).2
  have hyk := (List.mem_filter.1 hy).2
  rw [decide_eq_true_eq] at hxk hyk
  rw [byPlace_iff]
  omega

end Order

namespace Piece

/-- Lists of pieces that are sorted by files and have the same pieces of each file, in the same
order, are the same. -/
theorem eq_of_files_eq {ps qs : List Piece} (hps : ps.Pairwise fun p q => p.file ≤ q.file)
    (hqs : qs.Pairwise fun p q => p.file ≤ q.file)
    (files : ∀ k, ps.filter (fun p => p.file = k) = qs.filter fun p => p.file = k) : ps = qs := by
  have hclass : ∀ (a : Piece) (l : List Piece),
      classOf (byPlace id id) a l = l.filter fun p => p.file = a.file := by
    intro a l
    apply List.filter_congr
    intro p _
    unfold level
    rw [Bool.eq_iff_iff, Bool.and_eq_true, byPlace_iff, byPlace_iff, decide_eq_true_eq]
    simp only [id_eq]
    omega
  have hle : ∀ p q : Piece, p.file ≤ q.file → byPlace id id p q = true := fun p q h =>
    byPlace_iff.2 h
  refine eq_of_classes_eq byPlace_total (hps.imp (hle _ _)) (hqs.imp (hle _ _)) ?_
  intro a
  rw [hclass, hclass, files]

/-- Sorted pieces ascend by file. -/
theorem pairwise_file_mergeSort (ps : List Piece) :
    (ps.mergeSort startsBy).Pairwise fun p q => p.file ≤ q.file := by
  refine (List.pairwise_mergeSort startsBy_trans startsBy_total ps).imp ?_
  intro p q hpq
  have hfiles := file_offset_of_startsBy hpq
  omega

/-- Pieces of one file are ordered in the same way under another ordinal. -/
theorem startsBy_renumber (place : Nat → Nat) {p q : Piece} (h : p.file = q.file) :
    (p.renumber place).startsBy (q.renumber place) = p.startsBy q := by
  unfold startsBy key renumber
  simp [List.lex, h]

/-- The pieces of a file under its new number. -/
theorem filter_map_renumber (place : Nat → Nat) (k : Nat) (ps : List Piece) :
    (ps.map (renumber place)).filter (fun p => p.file = k) =
      (ps.filter fun p => place p.file = k).map (renumber place) := by
  rw [List.filter_map]
  rfl

/-- **Sorting pieces whose files have got other ordinals.** -/
theorem mergeSort_renumber {place : Nat → Nat} (inj : Function.Injective place)
    {ps qs : List Piece}
    (files : ∀ k, qs.filter (fun p => p.file = k) =
      (ps.map (renumber place)).filter fun p => p.file = k) :
    qs.mergeSort startsBy =
      (inOrder place id (ps.mergeSort startsBy)).map (renumber place) := by
  refine eq_of_files_eq (pairwise_file_mergeSort qs) ?_ ?_
  · rw [List.pairwise_map]
    exact pairwise_inOrder _
  · intro k
    have hsame : ∀ p ∈ ps.filter (fun p => place p.file = k),
        ∀ q ∈ ps.filter (fun p => place p.file = k),
          p.startsBy q = (p.renumber place).startsBy (q.renumber place) := by
      intro p hp q hq
      have hpk := (List.mem_filter.1 hp).2
      have hqk := (List.mem_filter.1 hq).2
      rw [decide_eq_true_eq] at hpk hqk
      rw [startsBy_renumber place (inj (hpk.trans hqk.symm))]
    have hinOrder : (inOrder place id (ps.mergeSort startsBy)).filter
        (fun p => place p.file = k) = (ps.mergeSort startsBy).filter fun p => place p.file = k :=
      filter_inOrder k _
    rw [filter_mergeSort startsBy_trans startsBy_total, files, filter_map_renumber,
      filter_map_renumber, hinOrder, filter_mergeSort startsBy_trans startsBy_total,
      List.map_mergeSort hsame]

end Piece

end PartialDocs
