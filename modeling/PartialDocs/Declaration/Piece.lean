import PartialDocs.Text.Basic

/-!
# Declaration pieces

One place in the sources where a symbol is declared.  A partial type has a piece for
each of its parts, a partial method at most one without and one with a body, and every
other symbol a single piece.  Pieces are ordered by file, offset, line and column.
-/

set_option autoImplicit false

namespace PartialDocs

/-- What a piece contributes to its symbol. -/
inductive Role where
  /-- The one declaration of a symbol that is not partial. -/
  | whole
  /-- A part of a partial type. -/
  | part
  /-- A partial method without a body. -/
  | defining
  /-- A partial method with a body. -/
  | implementing
  deriving DecidableEq, Repr

namespace Role

/-- The role in words. -/
def label : Role → Text
  | .whole => "whole".toList
  | .part => "part".toList
  | .defining => "defining".toList
  | .implementing => "implementing".toList

/-- The role with the given words. -/
def ofLabel? (words : Text) : Option Role :=
  [whole, part, defining, implementing].find? fun r => r.label == words

/-- A role is read back from its label. -/
theorem ofLabel?_label (r : Role) : ofLabel? r.label = some r := by cases r <;> decide

end Role

/-- One place where a symbol is declared. -/
structure Piece where
  /-- The ordinal of the source file. -/
  file : Nat
  /-- The first byte of the declaration. -/
  offset : Nat
  /-- The byte after the declaration. -/
  stop : Nat
  /-- The row of the first byte, from zero. -/
  line : Nat
  /-- The bytes between the start of that row and the first byte. -/
  column : Nat
  /-- The grammar kind of the declaring node. -/
  nodeKind : String
  role : Role
  deriving DecidableEq, Repr

namespace Piece

/-- The numbers by which pieces are ordered, most significant first. -/
def key (p : Piece) : List Nat := [p.file, p.offset, p.line, p.column]

/-- Whether a piece stands before another one or at the same place. -/
def startsBy (p q : Piece) : Bool := !List.lex q.key p.key

end Piece

end PartialDocs
