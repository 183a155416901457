import PartialDocs.Text.Offset

/-!
# Concrete syntax trees

A tree over the bytes of a source: every node has a grammar kind, says whether it is
named or a bare token, spans the bytes from `start` to `stop`, and may fill a field of
its parent.  The module reads a tree from its nodes in pre-order, finds children by
field or kind, and finds a node together with the siblings before it.
-/

set_option autoImplicit false

namespace PartialDocs

/-- What a node says of itself. -/
structure Label where
  kind : String
  named : Bool
  start : Nat
  stop : Nat
  /-- The field of the parent that the node fills. -/
  field : Option String
  deriving DecidableEq, Repr

/-- A concrete syntax tree. -/
inductive Tree where
  | node (label : Label) (children : List Tree)

namespace Tree

/-- The label of the root. -/
def label : Tree → Label
  | node l _ => l

/-- The trees right below the root. -/
def children : Tree → List Tree
  | node _ cs => cs

/-- The grammar kind of the root. -/
def kind (t : Tree) : String := t.label.kind

/-- The first byte of the root. -/
def start (t : Tree) : Nat := t.label.start

/-- The byte after the root. -/
def stop (t : Tree) : Nat := t.label.stop

/-- The children that are no bare tokens. -/
def namedChildren (t : Tree) : List Tree := t.children.filter fun c => c.label.named

/-- The first child that fills a field. -/
def childByField? (t : Tree) (field : String) : Option Tree :=
  t.children.find? fun c => c.label.field == some field

/-- The first named child of a kind. -/
def childOfKind? (t : Tree) (kind : String) : Option Tree :=
  t.namedChildren.find? fun c => c.kind == kind

/-- The child that fills a field, else the first named child of a kind. -/
def childByFieldOrKind? (t : Tree) (field kind : String) : Option Tree :=
  (t.childByField? field).or (t.childOfKind? kind)

/-- The part of the source that a node spans. -/
def textIn (source : Text) (t : Tree) : Text := Text.slice source t.start t.stop

/-- Whether a child is the given keyword, or a modifier written as it. -/
def hasModifier (source : Text) (t : Tree) (keyword : String) : Bool :=
  t.children.any fun c =>
    (c.kind == "modifier" && Text.slice? source c.start c.stop == some keyword.toList)
      || c.kind == keyword

/-- One step of reading a pre-order from its end: the trees read so far that lie deeper become
the children of the new node. -/
def stack (depth : Nat) (label : Label) (trees : List (Nat × Tree)) : List (Nat × Tree) :=
  let deeper := trees.takeWhile fun t => depth < t.1
  (depth, node label (deeper.map Prod.snd)) :: trees.drop deeper.length

/-- The tree whose nodes in pre-order, each with its depth, are the given ones. -/
def ofPreorder? (nodes : List (Nat × Label)) : Option Tree :=
  ((nodes.foldr (fun (depth, label) trees => stack depth label trees) []).head?).map Prod.snd

mutual

/-- The nodes in pre-order, each with its depth. -/
def preorder (depth : Nat) : Tree → List (Nat × Label)
  | node l cs => (depth, l) :: preorderList (depth + 1) cs

/-- The nodes of neighbouring trees in pre-order. -/
def preorderList (depth : Nat) : List Tree → List (Nat × Label)
  | [] => []
  | t :: ts => preorder depth t ++ preorderList depth ts

end

mutual

/-- The siblings before the innermost node that is wanted, nearest first, where the tree itself has
the given ones before it.  Of several such nodes it is the first one. -/
def precedingIn? (wanted : Label → Bool) (before : List Tree) : Tree → Option (List Tree)
  | node l cs => (precedingAmong? wanted [] cs).or (if wanted l then some before else none)

/-- The siblings before the first innermost wanted node of neighbouring trees. -/
def precedingAmong? (wanted : Label → Bool) (before : List Tree) :
    List Tree → Option (List Tree)
  | [] => none
  | t :: ts =>
    (precedingIn? wanted before t).or (precedingAmong? wanted (t :: before) ts)

end

/-- The siblings before the innermost node of a given kind and span, nearest first. -/
def precedingSiblings? (t : Tree) (kind : String) (start stop : Nat) : Option (List Tree) :=
  precedingIn? (fun l => l.kind == kind && l.start == start && l.stop == stop) [] t

end Tree

/-- A source file: where it came from, its text and the syntax tree of that text. -/
structure SourceFile where
  path : Text
  text : Text
  tree : Tree

end PartialDocs
