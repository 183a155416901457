import PartialDocs.Declaration.Piece
import PartialDocs.Symbol.Basic
import PartialDocs.Syntax.Tree
import PartialDocs.TypeRef.Spacing

/-!
# What the head of a declaration says

The name, type parameters and parameters of a declaration node, the token of an operator
and the direction of a conversion, and the names that a field declaration introduces.
`memberSymbol` puts them together into the symbol of a member that introduces one name.
-/

set_option autoImplicit false

namespace PartialDocs.Declaration

open PartialDocs.Tree (textIn hasModifier)

variable (source : Text)

/-- The text of a node, spaced as a type. -/
def spacedText (t : Tree) : Text := TypeText.respace (textIn source t)

/-- The name of a declaration, empty where it has none. -/
def nameOf (t : Tree) : Text :=
  ((t.childByFieldOrKind? "name" "identifier").map (spacedText source)).getD []

/-- The names of the type parameters in order. -/
def typeParametersOf (t : Tree) : List Text :=
  match t.childByFieldOrKind? "type_parameters" "type_parameter_list" with
  | none => []
  | some list => (list.namedChildren.filter (·.kind == "type_parameter")).map (nameOf source)

/-- The words that pass a parameter by reference. -/
def refWords : List Text := ["ref".toList, "out".toList, "in".toList]

/-- Take each word that passes by reference from the front of a type, in a fixed order. -/
def stripRefWords (p : Parameter) : Parameter :=
  refWords.foldl
    (fun p word =>
      match Text.stripPrefix? (word ++ [' ']) p.type with
      | some rest => ⟨rest, true⟩
      | none => p)
    p

/-- A parameter.  It is passed by reference when one of the words before its type or in front of it
says so. -/
def parameterOf (t : Tree) : Parameter :=
  match t.childByField? "type" with
  | none => ⟨[], false⟩
  | some type =>
    let before := Text.slice source t.start type.start
    stripRefWords ⟨spacedText source type, (Text.words before).any refWords.contains⟩

/-- The parameters in order. -/
def parametersOf (t : Tree) : List Parameter :=
  match t.childByField? "parameters" with
  | none => []
  | some list => (list.namedChildren.filter (·.kind == "parameter")).map (parameterOf source)

/-- The token of an operator: the one in its field, else the first after the word operator that is
not the word checked. -/
def operatorToken (t : Tree) : Text :=
  match t.childByField? "operator" with
  | some op => textIn source op
  | none =>
    let after := (t.children.dropWhile (·.kind != "operator")).drop 1
    ((after.find? (·.kind != "checked")).map (textIn source)).getD []

/-- The direction of a conversion: explicit where a modifier or a word before the first
occurrence of operator says so. -/
def conversionDirection (t : Tree) : Text :=
  let head := Text.beforeFirst "operator".toList (textIn source t)
  if hasModifier source t "explicit" || (Text.words head).contains "explicit".toList then
    "explicit".toList
  else "implicit".toList

/-- The name of a member, after its interface and a number sign where it implements one
explicitly.  Dots of the interface become number signs. -/
def memberNameOf (t : Tree) : Text :=
  match t.childOfKind? "explicit_interface_specifier" with
  | none => nameOf source t
  | some specifier =>
    let interface := ((spacedText source specifier).reverse.dropWhile (· == '.')).reverse
    Text.replace '.' ['#'] interface ++ '#' :: nameOf source t

/-- The names that the declarators of a field introduce. -/
def declaratorNames (t : Tree) : List Text :=
  match t.childOfKind? "variable_declaration" with
  | none => []
  | some list => (list.namedChildren.filter (·.kind == "variable_declarator")).map (nameOf source)

/-- The name of a member under the rule of its kind. -/
def memberSymbolName (kind : SymbolKind) (t : Tree) : Text :=
  match kind with
  | .staticConstructor => nameOf source t
  | .operator => operatorToken source t
  | .conversion => conversionDirection source t
  | .indexer => "this".toList
  | _ => memberNameOf source t

/-- The kind of a member, which a modifier decides for constructors. -/
def memberKind (kind : SymbolKind) (t : Tree) : SymbolKind :=
  if kind == .constructor && hasModifier source t "static" then .staticConstructor else kind

/-- The symbol of a member that introduces one name. -/
def memberSymbol (kind : SymbolKind) (t : Tree) : Symbol :=
  let kind := memberKind source kind t
  { name := memberSymbolName source kind t
    kind := kind
    typeParameters := typeParametersOf source t
    parameters := parametersOf source t
    returnType :=
      if kind == .conversion then (t.childByField? "type").map (spacedText source) else none
    isPartial := kind == .method && hasModifier source t "partial" }

/-- The symbol of a type, in the namespace around it. -/
def typeSymbol (kind : SymbolKind) (nameSpace : Option Text) (t : Tree) : Symbol :=
  { name := nameOf source t
    kind := kind
    nameSpace := nameSpace
    typeParameters := typeParametersOf source t
    parameters := if kind == .delegate then parametersOf source t else []
    isPartial := hasModifier source t "partial" }

/-- Whether a member declaration comes with its body. -/
def hasBody (t : Tree) : Bool :=
  (t.childByField? "body").isSome || (t.childOfKind? "block").isSome
    || (t.childOfKind? "arrow_expression_clause").isSome

/-- The role of the one piece that declares a member. -/
def memberRole (s : Symbol) (t : Tree) : Role :=
  if s.isPartialMethod then if hasBody t then .implementing else .defining else .whole

/-- The piece of a declaration node of the given file. -/
def pieceOf (file : Nat) (role : Role) (t : Tree) : Piece :=
  let place := Text.position source t.start
  { file := file
    offset := t.start
    stop := t.stop
    line := place.row
    column := place.column
    nodeKind := t.kind
    role := role }

end PartialDocs.Declaration
