import PartialDocs.Proofs.Syntax.Nodes

/-!
# Trees whose bytes have moved

A tree keeps its shape when the text that it spans changes between its nodes: `move` puts every
byte of its labels elsewhere.  Searches by field, kind or keyword find the same nodes as before.
-/

set_option autoImplicit false

namespace PartialDocs

/-- A node whose bytes stand elsewhere. -/
def Label.move (m : Nat → Nat) (l : Label) : Label :=
  { l with start := m l.start, stop := m l.stop }

/-- A node stays named or unnamed. -/
theorem Label.named_move (m : Nat → Nat) (l : Label) : (l.move m).named = l.named := rfl

/-- A node keeps its kind. -/
theorem Label.kind_move (m : Nat → Nat) (l : Label) : (l.move m).kind = l.kind := rfl

namespace Tree

mutual

/-- A tree whose bytes stand elsewhere. -/
def move (m : Nat → Nat) : Tree → Tree
  | .node l cs => .node (l.move m) (moveAll m cs)

/-- Trees whose bytes stand elsewhere. -/
def moveAll (m : Nat → Nat) : List Tree → List Tree
  | [] => []
  | t :: ts => move m t :: moveAll m ts

end

/-- A tree by its label and its children. -/
theorem move_node (m : Nat → Nat) (l : Label) (cs : List Tree) :
    (node l cs).move m = node (l.move m) (moveAll m cs) := rfl

/-- Trees move one by one. -/
theorem moveAll_eq_map (m : Nat → Nat) (ts : List Tree) : moveAll m ts = ts.map (move m) := by
  induction ts with
  | nil => rfl
  | cons t ts ih => rw [moveAll, ih, List.map_cons]

variable (m : Nat → Nat) (t : Tree)

/-- A tree keeps its kind. -/
@[simp] theorem kind_move : (t.move m).kind = t.kind := by
  cases t
  rfl

/-- The first byte has moved. -/
@[simp] theorem start_move : (t.move m).start = m t.start := by
  cases t
  rfl

/-- The end has moved. -/
@[simp] theorem stop_move : (t.move m).stop = m t.stop := by
  cases t
  rfl

/-- A tree stays named or unnamed. -/
@[simp] theorem named_move : (t.move m).label.named = t.label.named := by
  cases t
  rfl

/-- A tree fills the field that it filled. -/
@[simp] theorem field_move : (t.move m).label.field = t.label.field := by
  cases t
  rfl

/-- The children have moved. -/
@[simp] theorem children_move : (t.move m).children = t.children.map (move m) := by
  cases t
  exact moveAll_eq_map m _

/-! ## Searches -/

variable {p : Tree → Bool}

/-- What does not look at the bytes selects the same trees. -/
theorem filter_map_move (same : ∀ c, p (move m c) = p c) (ts : List Tree) :
    (ts.map (move m)).filter p = (ts.filter p).map (move m) := by
  rw [List.filter_map]
  apply congrArg (List.map (move m))
  apply List.filter_congr
  intro c _
  exact same c

/-- What does not look at the bytes finds the same tree first. -/
theorem find?_map_move (same : ∀ c, p (move m c) = p c) (ts : List Tree) :
    (ts.map (move m)).find? p = (ts.find? p).map (move m) := by
  have hsame : p ∘ move m = p := funext same
  rw [List.find?_map, hsame]

/-- The named children have moved. -/
theorem namedChildren_move : (t.move m).namedChildren = t.namedChildren.map (move m) := by
  unfold namedChildren
  rw [children_move]
  exact filter_map_move m (named_move m) _

/-- A field is filled by the same child. -/
theorem childByField?_move (field : String) :
    (t.move m).childByField? field = (t.childByField? field).map (move m) := by
  unfold childByField?
  rw [children_move]
  exact find?_map_move m (fun c => by rw [field_move]) _

/-- The first named child of a kind is the same. -/
theorem childOfKind?_move (kind : String) :
    (t.move m).childOfKind? kind = (t.childOfKind? kind).map (move m) := by
  unfold childOfKind?
  rw [namedChildren_move]
  exact find?_map_move m (fun c => by rw [kind_move]) _

/-- What is found by its field or kind is the same. -/
theorem childByFieldOrKind?_move (field kind : String) :
    (t.move m).childByFieldOrKind? field kind =
      (t.childByFieldOrKind? field kind).map (move m) := by
  unfold childByFieldOrKind?
  rw [childByField?_move, childOfKind?_move, Option.map_or]

/-- The named children of a kind. -/
theorem filter_namedChildren_move (kind : String) :
    (t.move m).namedChildren.filter (·.kind == kind) =
      (t.namedChildren.filter (·.kind == kind)).map (move m) := by
  rw [namedChildren_move]
  exact filter_map_move m (fun c => by rw [kind_move]) _

/-! ## Children within a tree -/

variable {m t} {u c : Tree}

/-- A child that fills a field is a child. -/
theorem mem_of_childByField? {field : String} (h : t.childByField? field = some c) :
    c ∈ t.children := List.mem_of_find?_eq_some h

/-- A named child is a child. -/
theorem mem_of_mem_namedChildren (h : c ∈ t.namedChildren) : c ∈ t.children :=
  (List.mem_filter.1 h).1

/-- A child that is found by its kind is a child. -/
theorem mem_of_childOfKind? {kind : String} (h : t.childOfKind? kind = some c) :
    c ∈ t.children := mem_of_mem_namedChildren (List.mem_of_find?_eq_some h)

/-- A child that is found by its field or kind is a child. -/
theorem mem_of_childByFieldOrKind? {field kind : String}
    (h : t.childByFieldOrKind? field kind = some c) : c ∈ t.children := by
  unfold childByFieldOrKind? at h
  rcases Option.or_eq_some_iff.1 h with h | ⟨-, h⟩
  · exact mem_of_childByField? h
  · exact mem_of_childOfKind? h

/-- A child that fills a field lies within what its parent lies within. -/
theorem within_of_childByField? {field : String} (h : t.childByField? field = some c)
    (ht : Within t u) : Within c u := (within_of_mem_children (mem_of_childByField? h)).trans ht

/-- A named child lies within what its parent lies within. -/
theorem within_of_mem_namedChildren (h : c ∈ t.namedChildren) (ht : Within t u) : Within c u :=
  (within_of_mem_children (mem_of_mem_namedChildren h)).trans ht

/-- A child that is found by its kind lies within what its parent lies within. -/
theorem within_of_childOfKind? {kind : String} (h : t.childOfKind? kind = some c)
    (ht : Within t u) : Within c u := (within_of_mem_children (mem_of_childOfKind? h)).trans ht

/-- A child that is found by its field or kind lies within what its parent lies within. -/
theorem within_of_childByFieldOrKind? {field kind : String}
    (h : t.childByFieldOrKind? field kind = some c) (ht : Within t u) : Within c u :=
  (within_of_mem_children (mem_of_childByFieldOrKind? h)).trans ht

end Tree

end PartialDocs
