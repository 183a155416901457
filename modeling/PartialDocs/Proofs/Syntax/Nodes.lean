import PartialDocs.Syntax.Tree

/-!
# The nodes of a tree

`Within t u` says that `t` is the tree `u` or lies below its root.  A search for the first
wanted node finds one exactly when such a node lies within the tree.
-/

set_option autoImplicit false

namespace PartialDocs.Tree

/-- A named node over the given bytes. -/
def named (kind : String) (start stop : Nat) (field : Option String) (cs : List Tree) : Tree :=
  .node ⟨kind, true, start, stop, field⟩ cs

/-- A bare token over the given bytes. -/
def token (word : String) (start stop : Nat) : Tree := .node ⟨word, false, start, stop, none⟩ []

/-- A tree that is the given one or lies below its root. -/
inductive Within (t : Tree) : Tree → Prop where
  | self : Within t t
  | under {l : Label} {cs : List Tree} {c : Tree} (child : c ∈ cs) (within : Within t c) :
      Within t (.node l cs)

/-- What lies within a part lies within the whole. -/
theorem Within.trans {t u v : Tree} (htu : Within t u) (huv : Within u v) : Within t v := by
  induction huv with
  | self => exact htu
  | under child _ ih => exact .under child ih

/-- A child lies within its parent. -/
theorem within_of_mem_children {t u : Tree} (h : t ∈ u.children) : Within t u := by
  cases u with
  | node l cs => exact .under h .self

/-- A search among neighbours succeeds when it does so within one of them. -/
theorem precedingAmong?_isSome {wanted : Label → Bool} {c : Tree} {cs : List Tree} (hc : c ∈ cs)
    (h : ∀ before : List Tree, (precedingIn? wanted before c).isSome) (before : List Tree) :
    (precedingAmong? wanted before cs).isSome := by
  induction cs generalizing before with
  | nil => simp at hc
  | cons t ts ih =>
    unfold precedingAmong?
    rw [Option.isSome_or]
    rcases List.mem_cons.1 hc with rfl | hc
    · rw [h before, Bool.true_or]
    · rw [ih hc, Bool.or_true]

/-- A wanted node within a tree is found. -/
theorem precedingIn?_isSome {wanted : Label → Bool} {t u : Tree} (h : Within t u)
    (ht : wanted t.label = true) (before : List Tree) : (precedingIn? wanted before u).isSome := by
  induction h generalizing before with
  | self =>
    cases t with
    | node l cs =>
      unfold precedingIn?
      rw [if_pos (show wanted l = true from ht), Option.isSome_or, Option.isSome_some, Bool.or_true]
  | @under l cs c child _ ih =>
    unfold precedingIn?
    rw [Option.isSome_or, precedingAmong?_isSome child ih [], Bool.true_or]

/-- A node is found again by its kind and span. -/
theorem precedingSiblings?_isSome {t u : Tree} (h : Within t u) :
    (u.precedingSiblings? t.kind t.start t.stop).isSome := by
  unfold precedingSiblings?
  exact precedingIn?_isSome h (by simp [kind, start, stop]) []

mutual

/-- Siblings that a search finds lie within the tree, but for those that the tree itself has before
it. -/
theorem within_of_mem_precedingIn? {wanted : Label → Bool} {u : Tree} :
    ∀ (t : Tree) {before siblings : List Tree}, precedingIn? wanted before t = some siblings →
    u ∈ siblings → u ∈ before ∨ Within u t
  | .node l cs, before, siblings, h, hu => by
    unfold precedingIn? at h
    rcases Option.or_eq_some_iff.1 h with h | ⟨-, h⟩
    · rcases within_of_mem_precedingAmong? cs h hu with hu | ⟨c, hc, hu⟩
      · cases hu
      · exact .inr (.under hc hu)
    · split at h
      · obtain rfl := Option.some.inj h
        exact .inl hu
      · cases h

/-- The siblings that are found stood before or lie within the trees. -/
theorem within_of_mem_precedingAmong? {wanted : Label → Bool} {u : Tree} :
    ∀ (ts : List Tree) {before siblings : List Tree},
    precedingAmong? wanted before ts = some siblings →
    u ∈ siblings → u ∈ before ∨ ∃ c ∈ ts, Within u c
  | [], _, _, h, _ => by cases h
  | t :: ts, before, siblings, h, hu => by
    unfold precedingAmong? at h
    rcases Option.or_eq_some_iff.1 h with h | ⟨-, h⟩
    · exact (within_of_mem_precedingIn? t h hu).imp_right fun hu => ⟨t, List.mem_cons_self, hu⟩
    · rcases within_of_mem_precedingAmong? ts h hu with hu | ⟨c, hc, hu⟩
      · rcases List.mem_cons.1 hu with rfl | hu
        · exact .inr ⟨u, List.mem_cons_self, .self⟩
        · exact .inl hu
      · exact .inr ⟨c, List.mem_cons_of_mem t hc, hu⟩

end

/-- The siblings before a node lie within the tree. -/
theorem within_of_mem_precedingSiblings? {t u : Tree} {kind : String} {start stop : Nat}
    {siblings : List Tree} (h : t.precedingSiblings? kind start stop = some siblings)
    (hu : u ∈ siblings) : Within u t := by
  unfold precedingSiblings? at h
  rcases within_of_mem_precedingIn? t h hu with hu | hu
  · cases hu
  · exact hu

/-! ## All nodes -/

mutual

/-- A tree and the trees below its root. -/
def nodes : Tree → List Tree
  | .node l cs => .node l cs :: nodesOfAll cs

/-- The nodes of some trees. -/
def nodesOfAll : List Tree → List Tree
  | [] => []
  | t :: ts => nodes t ++ nodesOfAll ts

end

/-- The nodes of a tree are among those of several. -/
theorem mem_nodes_of_mem {t c : Tree} {cs : List Tree} (ht : t ∈ nodes c) (hc : c ∈ cs) :
    t ∈ nodesOfAll cs := by
  induction cs with
  | nil => cases hc
  | cons d cs ih =>
    rw [nodesOfAll, List.mem_append]
    rcases List.mem_cons.1 hc with rfl | hc
    · exact .inl ht
    · exact .inr (ih hc)

/-- What lies within a tree is one of its nodes. -/
theorem Within.mem_nodes {t u : Tree} (h : Within t u) : t ∈ u.nodes := by
  induction h with
  | self =>
    cases t
    exact List.mem_cons_self
  | under child _ ih => exact List.mem_cons_of_mem _ (mem_nodes_of_mem ih child)

end PartialDocs.Tree
