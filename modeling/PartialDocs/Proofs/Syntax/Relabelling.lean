import Mathlib.Data.Option.Basic
import PartialDocs.Proofs.Syntax.Nodes

/-!
# Trees of one shape

`Relabelled R` says that two trees have the same shape and that the labels in each place are
related.  A search that wants the nodes in the same places finds siblings that are related again
(`exists_precedingIn?_relabelled`).
-/

set_option autoImplicit false

namespace PartialDocs.Tree

mutual

/-- Whether two trees have one shape and related labels. -/
def Relabelled (R : Label → Label → Prop) : Tree → Tree → Prop
  | .node l cs, .node l' cs' => R l l' ∧ RelabelledAll R cs cs'

/-- Whether as many trees are related, each to the one in its place. -/
def RelabelledAll (R : Label → Label → Prop) : List Tree → List Tree → Prop
  | [], [] => True
  | t :: ts, t' :: ts' => Relabelled R t t' ∧ RelabelledAll R ts ts'
  | [], _ :: _ => False
  | _ :: _, [] => False

end

variable {R : Label → Label → Prop} {wanted wanted' : Label → Bool}

/-- The labels of relabelled trees are related. -/
theorem Relabelled.label {t t' : Tree} (h : Relabelled R t t') : R t.label t'.label := by
  cases t
  cases t'
  exact h.1

/-- Of two options the first one that is there is related. -/
theorem rel_or {α β : Type} {r : α → β → Prop} {a b : Option α} {a' b' : Option β}
    (ha : Option.Rel r a a') (hb : Option.Rel r b b') : Option.Rel r (a.or b) (a'.or b') := by
  cases ha with
  | some h => exact .some h
  | none => exact hb

mutual

/-- The siblings before related nodes are related. -/
theorem precedingIn?_relabelled (same : ∀ l l', R l l' → wanted' l' = wanted l) :
    ∀ (t t' : Tree) (before before' : List Tree), Relabelled R t t' →
    RelabelledAll R before before' →
    Option.Rel (RelabelledAll R) (precedingIn? wanted before t) (precedingIn? wanted' before' t')
  | .node l cs, .node l' cs', before, before', h, hbefore => by
    unfold precedingIn?
    rw [same l l' h.1]
    refine rel_or (precedingAmong?_relabelled same cs cs' [] [] h.2 trivial) ?_
    split
    · exact .some hbefore
    · exact .none

/-- Among relabelled trees the same node is found, with relabelled siblings before it. -/
theorem precedingAmong?_relabelled (same : ∀ l l', R l l' → wanted' l' = wanted l) :
    ∀ (ts ts' : List Tree) (before before' : List Tree), RelabelledAll R ts ts' →
    RelabelledAll R before before' →
    Option.Rel (RelabelledAll R) (precedingAmong? wanted before ts)
      (precedingAmong? wanted' before' ts')
  | [], [], _, _, _, _ => .none
  | t :: ts, t' :: ts', before, before', h, hbefore => by
    unfold precedingAmong?
    exact rel_or (precedingIn?_relabelled same t t' before before' h.1 hbefore)
      (precedingAmong?_relabelled same ts ts' (t :: before) (t' :: before') h.2 ⟨h.1, hbefore⟩)
  | [], _ :: _, _, _, h, _ => h.elim
  | _ :: _, [], _, _, h, _ => h.elim

end

/-- **A node found in a tree is found in a related one**, behind siblings that are related. -/
theorem exists_precedingIn?_relabelled {t t' : Tree} {siblings : List Tree}
    (same : ∀ l l', R l l' → wanted' l' = wanted l) (h : Relabelled R t t')
    (found : precedingIn? wanted [] t = some siblings) :
    ∃ siblings', precedingIn? wanted' [] t' = some siblings' ∧
      RelabelledAll R siblings siblings' := by
  have hrel := precedingIn?_relabelled same t t' [] [] h trivial
  rw [found] at hrel
  cases hfound : precedingIn? wanted' [] t' with
  | none =>
    rw [hfound] at hrel
    cases hrel
  | some siblings' =>
    rw [hfound] at hrel
    cases hrel with
    | some h => exact ⟨siblings', rfl, h⟩

end PartialDocs.Tree
