import PartialDocs.Symbol.Kind

/-!
# Symbols

A declared type or member, by the facts that its declaration states: name, kind, where
it stands, type parameters and parameters.  Types, parameters and targets are texts as
written with the optional blanks left out.
-/

set_option autoImplicit false

namespace PartialDocs

/-- The number of a symbol in an index. -/
abbrev SymbolId := Nat

/-- A parameter by its type as written and whether it is passed by reference. -/
structure Parameter where
  type : Text
  byRef : Bool
  deriving DecidableEq, Repr

/-- A declared type or member. -/
structure Symbol where
  /-- The name in source.  A constructor carries the name of its type, an operator its
  token, a conversion its direction, an indexer the word this. -/
  name : Text
  kind : SymbolKind
  /-- The type around it. -/
  container : Option SymbolId := none
  /-- The namespace around a type that no type contains. -/
  nameSpace : Option Text := none
  typeParameters : List Text := []
  parameters : List Parameter := []
  /-- The target of a conversion. -/
  returnType : Option Text := none
  isPartial : Bool := false
  deriving DecidableEq, Repr

namespace Symbol

/-- The number of type parameters. -/
def arity (s : Symbol) : Nat := s.typeParameters.length

/-- A method that may be declared twice, once without and once with its body. -/
def isPartialMethod (s : Symbol) : Bool := s.kind == .method && s.isPartial

end Symbol

end PartialDocs
