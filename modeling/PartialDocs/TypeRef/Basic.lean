import PartialDocs.Text.Basic

/-!
# Type references

A type as it is written in a declaration: a dotted name whose segments may have type
arguments, or a nullable, array, pointer or tuple type over other types.
-/

set_option autoImplicit false

namespace PartialDocs

mutual

/-- A type as written. -/
inductive TypeRef where
  /-- A dotted name. -/
  | named (segments : List TypeSegment)
  | nullable (inner : TypeRef)
  /-- An array with the given number of dimensions. -/
  | array (element : TypeRef) (rank : Nat)
  | pointer (target : TypeRef)
  /-- A tuple.  The names of its elements are not kept. -/
  | tuple (elements : List TypeRef)

/-- One segment of a dotted name, with its type arguments. -/
inductive TypeSegment where
  | mk (name : Text) (arguments : List TypeRef)

end

namespace TypeRef

/-- The type that a single word without arguments names. -/
def word (name : Text) : TypeRef := named [.mk name []]

end TypeRef

end PartialDocs
