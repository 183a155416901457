import PartialDocs.Text.Basic

/-!
# Kinds of symbols

What a declaration declares: one of six kinds of type or of eleven kinds of member.
The module also holds the two tables from grammar node kinds to kinds of symbols, and
the letter with which the documentation ID of a kind begins.
-/

set_option autoImplicit false

namespace PartialDocs

/-- The kind of a declared type or member. -/
inductive SymbolKind where
  | «class» | struct | interface | record | enum | delegate
  | method | constructor | staticConstructor | destructor | operator | conversion
  | property | indexer | field | event | enumMember
  deriving DecidableEq, Repr

namespace SymbolKind

/-- Every kind, types first. -/
def all : List SymbolKind :=
  [.class, .struct, .interface, .record, .enum, .delegate, .method, .constructor,
   .staticConstructor, .destructor, .operator, .conversion, .property, .indexer, .field,
   .event, .enumMember]

/-- The kinds that declare a type. -/
def isType : SymbolKind → Bool
  | .class | .struct | .interface | .record | .enum | .delegate => true
  | _ => false

/-- The beginning of the documentation ID, which groups kinds by T, M, P, F and E. -/
def idPrefix : SymbolKind → Text
  | .class | .struct | .interface | .record | .enum | .delegate => "T:".toList
  | .method | .constructor | .staticConstructor | .destructor | .operator | .conversion =>
    "M:".toList
  | .property | .indexer => "P:".toList
  | .field | .enumMember => "F:".toList
  | .event => "E:".toList

/-- The kind in words. -/
def label : SymbolKind → Text
  | .class => "class".toList
  | .struct => "struct".toList
  | .interface => "interface".toList
  | .record => "record".toList
  | .enum => "enum".toList
  | .delegate => "delegate".toList
  | .method => "method".toList
  | .constructor => "constructor".toList
  | .staticConstructor => "static_constructor".toList
  | .destructor => "destructor".toList
  | .operator => "operator".toList
  | .conversion => "conversion".toList
  | .property => "property".toList
  | .indexer => "indexer".toList
  | .field => "field".toList
  | .event => "event".toList
  | .enumMember => "enum_member".toList

/-- The kind with the given words. -/
def ofLabel? (words : Text) : Option SymbolKind := all.find? fun k => k.label == words

/-- The kind of type that a grammar node declares. -/
def ofTypeNode? : String → Option SymbolKind
  | "class_declaration" => some .class
  | "struct_declaration" => some .struct
  | "interface_declaration" => some .interface
  | "record_declaration" => some .record
  | "record_struct_declaration" => some .record
  | "enum_declaration" => some .enum
  | "delegate_declaration" => some .delegate
  | _ => none

/-- The kind of member that a grammar node declares. -/
def ofMemberNode? : String → Option SymbolKind
  | "method_declaration" => some .method
  | "constructor_declaration" => some .constructor
  | "destructor_declaration" => some .destructor
  | "operator_declaration" => some .operator
  | "conversion_operator_declaration" => some .conversion
  | "property_declaration" => some .property
  | "indexer_declaration" => some .indexer
  | "event_declaration" => some .event
  | "event_field_declaration" => some .event
  | "field_declaration" => some .field
  | _ => none

/-- A kind is found by its own words. -/
theorem ofLabel?_label (k : SymbolKind) : ofLabel? k.label = some k := by cases k <;> decide

/-- A kind is a type exactly when its documentation ID begins with a T. -/
theorem isType_iff_idPrefix (k : SymbolKind) : k.isType = true ↔ k.idPrefix = ['T', ':'] := by
  cases k <;> decide

end SymbolKind

end PartialDocs
