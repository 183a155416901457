import PartialDocs.Proofs.Syntax.Moving

/-!
# Trees further down a text

A tree keeps its shape when something is put in front of its text: `shift` moves all its
bytes by the same number.  A node has the same siblings in front of it as before.
-/

set_option autoImplicit false

namespace PartialDocs

/-- A node whose bytes stand further down the text. -/
def Label.shift (n : Nat) (l : Label) : Label :=
  { l with start := l.start + n, stop := l.stop + n }

namespace Tree

mutual

/-- A tree whose bytes stand further down the text. -/
def shift (n : Nat) : Tree → Tree
  | .node l cs => .node (l.shift n) (shiftAll n cs)

/-- Trees further down. -/
def shiftAll (n : Nat) : List Tree → List Tree
  | [] => []
  | t :: ts => shift n t :: shiftAll n ts

end

variable (n : Nat) (t : Tree)

/-- A tree keeps its kind. -/
@[simp] theorem kind_shift : (t.shift n).kind = t.kind := by
  cases t
  rfl

/-- The first byte stands further down. -/
@[simp] theorem start_shift : (t.shift n).start = t.start + n := by
  cases t
  rfl

/-- The end stands further down. -/
@[simp] theorem stop_shift : (t.shift n).stop = t.stop + n := by
  cases t
  rfl

mutual

/-- A tree that is not moved is the same. -/
theorem shift_zero : ∀ t : Tree, t.shift 0 = t
  | .node l cs => by
    rw [shift, shiftAll_zero cs]
    rfl

/-- Trees that are not moved are the same. -/
theorem shiftAll_zero : ∀ ts : List Tree, shiftAll 0 ts = ts
  | [] => rfl
  | t :: ts => by rw [shiftAll, shift_zero t, shiftAll_zero ts]

end

mutual

/-- A tree further down is one whose bytes have all moved as far. -/
theorem shift_eq_move : ∀ t : Tree, t.shift n = t.move (· + n)
  | .node l cs => by
    rw [shift, move, shiftAll_eq_moveAll cs]
    rfl

/-- Trees further down are ones whose bytes have all moved as far. -/
theorem shiftAll_eq_moveAll : ∀ ts : List Tree, shiftAll n ts = moveAll (· + n) ts
  | [] => rfl
  | t :: ts => by rw [shiftAll, moveAll, shift_eq_move t, shiftAll_eq_moveAll ts]

end

/-! ## Siblings -/

variable {n} {wanted wanted' : Label → Bool}

mutual

/-- The same node is found within a tree, with the same siblings before it. -/
theorem precedingIn?_shift (same : ∀ l : Label, wanted' (l.shift n) = wanted l) :
    ∀ (t : Tree) (before : List Tree),
    precedingIn? wanted' (before.map (shift n)) (t.shift n) =
      (precedingIn? wanted before t).map (List.map (shift n))
  | .node l cs, before => by
    have hbelow := precedingAmong?_shift same cs []
    rw [List.map_nil] at hbelow
    unfold shift precedingIn?
    rw [same, hbelow, Option.map_or]
    split <;> rfl

/-- The same node is found among trees, with the same siblings before it. -/
theorem precedingAmong?_shift (same : ∀ l : Label, wanted' (l.shift n) = wanted l) :
    ∀ (ts before : List Tree),
    precedingAmong? wanted' (before.map (shift n)) (shiftAll n ts) =
      (precedingAmong? wanted before ts).map (List.map (shift n))
  | [], before => by
    unfold shiftAll precedingAmong?
    rfl
  | t :: ts, before => by
    have hrest := precedingAmong?_shift same ts (t :: before)
    rw [List.map_cons] at hrest
    unfold shiftAll precedingAmong?
    rw [precedingIn?_shift same t before, hrest, Option.map_or]

end

/-- A node has the siblings before it that it had. -/
theorem precedingSiblings?_shift (n : Nat) (t : Tree) (kind : String) (start stop : Nat) :
    (t.shift n).precedingSiblings? kind (start + n) (stop + n) =
      (t.precedingSiblings? kind start stop).map (List.map (shift n)) := by
  unfold precedingSiblings?
  refine precedingIn?_shift ?_ t []
  intro l
  rw [Bool.eq_iff_iff]
  simp [Label.shift]

end Tree

end PartialDocs
