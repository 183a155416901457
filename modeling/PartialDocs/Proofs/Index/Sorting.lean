import PartialDocs.Proofs.Index.Answers

/-!
# Sorting keeps the order of equals

A list that is sorted by a total preorder is determined by its classes: the elements of
each class, in their order (`eq_of_classes_eq`).  Sorting a list keeps its classes
(`class_mergeSort`).  From these two facts follow the ways in which sorting goes together
with appending and with leaving elements out.
-/

set_option autoImplicit false

namespace PartialDocs

section Preorder

variable {α : Type} {le : α → α → Bool}
  (trans : ∀ a b c : α, le a b = true → le b c = true → le a c = true)
  (total : ∀ a b : α, (le a b || le b a) = true)

/-- Whether two elements may stand in either order. -/
def level (le : α → α → Bool) (a b : α) : Bool := le a b && le b a

/-- The elements that are level with a given one. -/
def classOf (le : α → α → Bool) (a : α) (l : List α) : List α := l.filter (level le a)

include total in
/-- Everything is level with itself. -/
theorem level_self (a : α) : level le a a = true := by
  have h := total a a
  rw [Bool.or_self] at h
  unfold level
  rw [h]
  rfl

include total in
/-- Everything belongs to its own class. -/
theorem mem_classOf_self {a : α} {l : List α} : a ∈ classOf le a l ↔ a ∈ l := by
  unfold classOf
  rw [List.mem_filter]
  exact and_iff_left (level_self total a)

/-- The first element of a sorted list stands before every element. -/
theorem le_of_mem_sorted (refl : ∀ a : α, le a a = true) {a b : α} {l : List α}
    (sorted : (a :: l).Pairwise fun x y => le x y = true) (h : b ∈ a :: l) : le a b = true := by
  rcases List.mem_cons.1 h with rfl | h
  · exact refl b
  · exact List.rel_of_pairwise_cons sorted h

include total in
/-- **Sorted lists with the same classes are the same.** -/
theorem eq_of_classes_eq {l m : List α} (hl : l.Pairwise fun x y => le x y = true)
    (hm : m.Pairwise fun x y => le x y = true) (classes : ∀ a, classOf le a l = classOf le a m) :
    l = m := by
  have refl : ∀ a : α, le a a = true := by
    intro a
    simpa using total a a
  have mem : ∀ a, a ∈ l ↔ a ∈ m := by
    intro a
    rw [← mem_classOf_self total, classes a, mem_classOf_self total]
  induction l generalizing m with
  | nil =>
    cases m with
    | nil => rfl
    | cons b m => simpa using (mem b).2 List.mem_cons_self
  | cons a l ih =>
    cases m with
    | nil => simpa using (mem a).1 List.mem_cons_self
    | cons b m =>
      -- either first element stands before the other one, so both begin the same class
      have hab : le a b = true := le_of_mem_sorted refl hl ((mem b).2 List.mem_cons_self)
      have hba : le b a = true := le_of_mem_sorted refl hm ((mem a).1 List.mem_cons_self)
      have hclass := classes a
      unfold classOf at hclass
      rw [List.filter_cons_of_pos (level_self total a),
        List.filter_cons_of_pos (by simp [level, hab, hba]), List.cons.injEq] at hclass
      obtain ⟨rfl, -⟩ := hclass
      have hrest : ∀ c, classOf le c l = classOf le c m := by
        intro c
        have hc := classes c
        unfold classOf at hc ⊢
        rw [List.filter_cons, List.filter_cons] at hc
        split at hc
        · exact (List.cons.inj hc).2
        · exact hc
      have hmem : ∀ c, c ∈ l ↔ c ∈ m := by
        intro c
        rw [← mem_classOf_self total, hrest c, mem_classOf_self total]
      rw [ih hl.of_cons hm.of_cons hrest hmem]

include trans in
/-- Elements that are level with one element are level with each other. -/
theorem pairwise_classOf (a : α) (l : List α) :
    (classOf le a l).Pairwise fun x y => le x y = true := by
  refine List.pairwise_of_forall_mem_list ?_
  intro x hx y hy
  have hax := (List.mem_filter.1 hx).2
  have hay := (List.mem_filter.1 hy).2
  unfold level at hax hay
  rw [Bool.and_eq_true] at hax hay
  exact trans x a y hax.2 hay.1

include trans total in
/-- Sorting keeps the order of elements that are level. -/
theorem class_mergeSort (a : α) (l : List α) :
    classOf le a (l.mergeSort le) = classOf le a l := by
  have hsub : (classOf le a l).Sublist (l.mergeSort le) :=
    List.sublist_mergeSort trans total (pairwise_classOf trans a l) List.filter_sublist
  have hclass : (classOf le a l).Sublist (classOf le a (l.mergeSort le)) := by
    have h := hsub.filter (level le a)
    unfold classOf at h ⊢
    rwa [List.filter_filter, List.filter_congr fun x _ => Bool.and_self _] at h
  have hlength : (classOf le a l).length = (classOf le a (l.mergeSort le)).length :=
    ((List.mergeSort_perm l le).filter (level le a)).length_eq.symm
  exact (hclass.eq_of_length hlength).symm

include trans total in
/-- A list in two parts of which the first one belongs before the second one is sorted part by
part. -/
theorem mergeSort_append {l m : List α} (h : ∀ a ∈ l, ∀ b ∈ m, le a b = true) :
    (l ++ m).mergeSort le = l.mergeSort le ++ m.mergeSort le := by
  refine eq_of_classes_eq total (List.pairwise_mergeSort trans total _) ?_ ?_
  · rw [List.pairwise_append]
    refine ⟨List.pairwise_mergeSort trans total l, List.pairwise_mergeSort trans total m, ?_⟩
    intro a ha b hb
    exact h a (List.mem_mergeSort.1 ha) b (List.mem_mergeSort.1 hb)
  · intro a
    have happend : ∀ x y : List α, classOf le a (x ++ y) = classOf le a x ++ classOf le a y :=
      fun x y => List.filter_append (p := level le a) x y
    rw [happend, class_mergeSort trans total, class_mergeSort trans total,
      class_mergeSort trans total, happend]

include trans total in
/-- Leaving elements out and sorting may be done in either order. -/
theorem filter_mergeSort (p : α → Bool) (l : List α) :
    (l.mergeSort le).filter p = (l.filter p).mergeSort le := by
  refine eq_of_classes_eq total ((List.pairwise_mergeSort trans total l).filter p)
    (List.pairwise_mergeSort trans total _) ?_
  intro a
  have hcomm : ∀ m : List α, classOf le a (m.filter p) = (classOf le a m).filter p := by
    intro m
    unfold classOf
    rw [List.filter_filter, List.filter_filter]
    exact List.filter_congr fun x _ => Bool.and_comm _ _
  rw [class_mergeSort trans total, hcomm, hcomm, class_mergeSort trans total]

end Preorder

/-! ## Pieces of different files -/

namespace Piece

/-- A piece of an earlier file stands before one of a later file. -/
theorem startsBy_of_file_lt {p q : Piece} (h : p.file < q.file) : p.startsBy q = true := by
  unfold startsBy key
  rw [Bool.not_eq_true', List.lex_eq_false_iff_ge, List.cons_le_cons_iff]
  exact .inl h

/-- Further pieces from later files come after all others. -/
theorem mergeSort_append_of_file_lt {ps qs : List Piece}
    (h : ∀ p ∈ ps, ∀ q ∈ qs, p.file < q.file) :
    (ps ++ qs).mergeSort startsBy = ps.mergeSort startsBy ++ qs.mergeSort startsBy :=
  mergeSort_append startsBy_trans startsBy_total fun p hp q hq => startsBy_of_file_lt (h p hp q hq)

end Piece

end PartialDocs
