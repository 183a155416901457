import PartialDocs.Proofs.Syntax.Nodes

/-!
# Trees in source order

The children of a node in a syntax tree stand apart: each ends before the next one begins
(`Apart`).  Then what lies below a child starts no later than the next child (`InOrder`,
`Apart.inOrder`), so that the order of the nodes in the tree is their order in the source.  It is
not enough that children are listed by increasing start within their parent (`ByStart`): were a
child to reach into the one after it, then a node of the overlap would come first in the tree
and later in the source.
-/

set_option autoImplicit false

namespace PartialDocs.Tree

/-- Whether the children of every node lie within its extent, and what lies below one of them starts
no later than the next one. -/
inductive InOrder : Tree → Prop where
  | node {l : Label} {cs : List Tree} (within : ∀ c ∈ cs, l.start ≤ c.start ∧ c.stop ≤ l.stop)
      (listed : cs.Pairwise fun c d => ∀ t : Tree, Within t c → t.start ≤ d.start)
      (below : ∀ c ∈ cs, InOrder c) : InOrder (.node l cs)

/-- Nothing within a tree starts before it. -/
theorem InOrder.start_le {t u : Tree} (h : InOrder t) (hu : Within u t) : t.start ≤ u.start := by
  induction hu with
  | self => exact Nat.le_refl _
  | @under l cs c child _ ih =>
    cases h with
    | node within _ below =>
      have hc : l.start ≤ c.start := (within c child).1
      exact Nat.le_trans hc (ih (below c child))

/-- Nothing within a tree ends after it. -/
theorem InOrder.stop_le {t u : Tree} (h : InOrder t) (hu : Within u t) : u.stop ≤ t.stop := by
  induction hu with
  | self => exact Nat.le_refl _
  | @under l cs c child _ ih =>
    cases h with
    | node within _ below =>
      have hc : c.stop ≤ l.stop := (within c child).2
      exact Nat.le_trans (ih (below c child)) hc

/-! ## Children that stand apart -/

mutual

/-- Whether the children of every node stand one after another within it. -/
def Apart : Tree → Prop
  | .node l cs => ApartIn l.start l.stop cs

/-- Whether neighbours stand one after another between two bytes. -/
def ApartIn (first last : Nat) : List Tree → Prop
  | [] => first ≤ last
  | t :: ts => first ≤ t.start ∧ Apart t ∧ ApartIn t.stop last ts

end

mutual

instance decidableApart : (t : Tree) → Decidable (Apart t)
  | .node l cs => decidableApartIn l.start l.stop cs

instance decidableApartIn (first last : Nat) : (ts : List Tree) → Decidable (ApartIn first last ts)
  | [] => inferInstanceAs (Decidable (first ≤ last))
  | t :: ts =>
    have := decidableApart t
    have := decidableApartIn t.stop last ts
    inferInstanceAs (Decidable (first ≤ t.start ∧ Apart t ∧ ApartIn t.stop last ts))

end

/-! ## Children by their starts alone -/

mutual

/-- Whether the children of every node lie within its extent and are listed by increasing start. -/
def ByStart : Tree → Prop
  | .node l cs =>
    (∀ c ∈ cs, l.start ≤ c.start ∧ c.stop ≤ l.stop) ∧ cs.Pairwise (·.start < ·.start) ∧
      AllByStart cs

/-- Whether this holds of the children of every node below neighbours. -/
def AllByStart : List Tree → Prop
  | [] => True
  | t :: ts => ByStart t ∧ AllByStart ts

end

mutual

instance decidableByStart : (t : Tree) → Decidable (ByStart t)
  | .node l cs =>
    have := decidableAllByStart cs
    inferInstanceAs (Decidable ((∀ c ∈ cs, l.start ≤ c.start ∧ c.stop ≤ l.stop) ∧
      cs.Pairwise (·.start < ·.start) ∧ AllByStart cs))

instance decidableAllByStart : (ts : List Tree) → Decidable (AllByStart ts)
  | [] => inferInstanceAs (Decidable True)
  | t :: ts =>
    have := decidableByStart t
    have := decidableAllByStart ts
    inferInstanceAs (Decidable (ByStart t ∧ AllByStart ts))

end

/-! ## What standing apart means -/

/-- What standing apart says of neighbours between two bytes. -/
structure Neighbours (first last : Nat) (ts : List Tree) : Prop where
  span : first ≤ last
  within : ∀ t ∈ ts, first ≤ t.start ∧ t.stop ≤ last
  listed : ts.Pairwise fun t u => t.stop ≤ u.start
  inOrder : ∀ t ∈ ts, InOrder t
  reach : ∀ t ∈ ts, ∀ u : Tree, Within u t → u.start ≤ t.stop

mutual

/-- Nothing within a tree starts after its end. -/
theorem neighbours_of_apart : ∀ t : Tree, Apart t →
    t.start ≤ t.stop ∧ InOrder t ∧ ∀ u : Tree, Within u t → u.start ≤ t.stop
  | .node l cs, h => by
    unfold Apart at h
    obtain ⟨hspan, hwithin, hlisted, hinOrder, hreach⟩ := neighbours_of_apartIn cs l.start l.stop h
    refine ⟨hspan, .node hwithin ?_ hinOrder, ?_⟩
    · -- what lies below a child starts within it, and so before the next child
      refine hlisted.imp_of_mem ?_
      intro c d hc _ hcd t ht
      exact Nat.le_trans (hreach c hc t ht) hcd
    · intro u hu
      cases hu with
      | self => exact hspan
      | under child within => exact Nat.le_trans (hreach _ child u within) (hwithin _ child).2

/-- Trees that stand apart between two bytes are neighbours there. -/
theorem neighbours_of_apartIn : ∀ (ts : List Tree) (first last : Nat), ApartIn first last ts →
    Neighbours first last ts
  | [], first, last, h => by
    unfold ApartIn at h
    exact ⟨h, by simp, List.Pairwise.nil, by simp, by simp⟩
  | t :: ts, first, last, h => by
    unfold ApartIn at h
    obtain ⟨hstart, ht, hts⟩ := h
    obtain ⟨hspan, hinOrder, hreach⟩ := neighbours_of_apart t ht
    have hrest := neighbours_of_apartIn ts t.stop last hts
    have hstop : t.stop ≤ last := hrest.span
    refine ⟨by omega, ?_, ?_, ?_, ?_⟩
    · intro u hu
      rcases List.mem_cons.1 hu with rfl | hu
      · exact ⟨hstart, hstop⟩
      · have hwithin := hrest.within u hu
        omega
    · exact List.pairwise_cons.2 ⟨fun u hu => (hrest.within u hu).1, hrest.listed⟩
    · exact List.forall_mem_cons.2 ⟨hinOrder, hrest.inOrder⟩
    · exact List.forall_mem_cons.2 ⟨hreach, hrest.reach⟩

end

/-- Children that stand apart are in order. -/
theorem Apart.inOrder {t : Tree} (h : Apart t) : InOrder t := (neighbours_of_apart t h).2.1

end PartialDocs.Tree
