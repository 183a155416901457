import PartialDocs.Index.Basic
import PartialDocs.TypeRef.Encoding

/-!
# Documentation IDs

The text by which a documentation file knows a symbol: a letter for its kind, the dotted
name with the arity of every generic type after a backtick, the arity of a generic
method after two, the parameters in parentheses, and the target of a conversion after a
tilde.
-/

set_option autoImplicit false

namespace PartialDocs

/-- The metadata names of the operators, by token. -/
def operatorNames : List (String × String) :=
  [("+", "op_Addition"), ("-", "op_Subtraction"), ("*", "op_Multiply"), ("/", "op_Division"),
   ("%", "op_Modulus"), ("&", "op_BitwiseAnd"), ("|", "op_BitwiseOr"), ("^", "op_ExclusiveOr"),
   ("<<", "op_LeftShift"), (">>", "op_RightShift"), (">>>", "op_UnsignedRightShift"),
   ("==", "op_Equality"), ("!=", "op_Inequality"), ("<", "op_LessThan"), (">", "op_GreaterThan"),
   ("<=", "op_LessThanOrEqual"), (">=", "op_GreaterThanOrEqual"), ("!", "op_LogicalNot"),
   ("~", "op_OnesComplement"), ("++", "op_Increment"), ("--", "op_Decrement"),
   ("true", "op_True"), ("false", "op_False")]

/-- The metadata name of an operator with the given number of parameters.  A sign with one is the
unary operator, and an unknown token stands for itself. -/
def operatorName (token : Text) (parameters : Nat) : Text :=
  if parameters = 1 && token = ['+'] then "op_UnaryPlus".toList
  else if parameters = 1 && token = ['-'] then "op_UnaryNegation".toList
  else
    match operatorNames.find? fun (t, _) => t.toList == token with
    | some (_, name) => name.toList
    | none => token

/-- The name of a symbol with its arity where it is generic. -/
def nameWithArity (s : Symbol) : Text :=
  if s.arity > 0 then s.name ++ '\x60' :: Text.ofNat s.arity else s.name

/-- The name of a member in its documentation ID. -/
def memberName (s : Symbol) : Text :=
  match s.kind with
  | .constructor => "#ctor".toList
  | .staticConstructor => "#cctor".toList
  | .destructor => "Finalize".toList
  | .indexer => "Item".toList
  | .operator => operatorName s.name s.parameters.length
  | .conversion => if s.name = "explicit".toList then "op_Explicit".toList else "op_Implicit".toList
  | _ => Text.replace '.' ['#'] (Text.replace '>' ['\x7d'] (Text.replace '<' ['\x7b'] s.name))

/-- Whether the documentation ID of a kind states the parameters. -/
def SymbolKind.showsParameters : SymbolKind → Bool
  | .method | .constructor | .operator | .conversion | .indexer => true
  | _ => false

/-- The dotted name of nested symbols, given innermost first, after the namespace of the
outermost. -/
def dottedName (chain : List Symbol) : Text :=
  let names := (chain.map nameWithArity).reverse
  match chain.getLast?.bind Symbol.nameSpace with
  | none => Text.joinWith ['.'] names
  | some nameSpace => Text.joinWith ['.'] (nameSpace :: names)

/-- What follows the name of a member in its documentation ID. -/
def memberTail (context : TypeContext) (s : Symbol) : Text :=
  let arity := if s.kind = .method ∧ s.arity > 0 then "``".toList ++ Text.ofNat s.arity else []
  let parameters :=
    if s.kind.showsParameters ∧ s.parameters ≠ [] then
      '(' :: encodeParameters context s.parameters ++ [')']
    else []
  let target :=
    match s.kind, s.returnType with
    | .conversion, some type => '~' :: encodeType context type
    | _, _ => []
  arity ++ parameters ++ target

/-- The documentation ID of a member of a type with the given dotted name, where the types around
the member have the given type parameters, outermost first. -/
def memberDocId (typeName : Text) (outer : List Text) (s : Symbol) : Text :=
  s.kind.idPrefix ++ typeName ++ '.' :: memberName s ++ memberTail ⟨outer, s.typeParameters⟩ s

namespace SymbolIndex

/-- The dotted name of a symbol with the namespace and the types around it. -/
def qualifiedName (index : SymbolIndex) (id : SymbolId) : Except ResolveError Text :=
  (index.containers id).map dottedName

/-- The type parameters of a type and of the types around it, outermost first. -/
def outerTypeParameters (index : SymbolIndex) (id : SymbolId) : Except ResolveError (List Text) :=
  (index.containers id).map nestedTypeParameters

/-- The documentation ID of a symbol.  A member must be in a type. -/
def docId (index : SymbolIndex) (id : SymbolId) : Except ResolveError Text :=
  (index.symbol id).bind fun s =>
    if s.kind.isType then (index.qualifiedName id).map ("T:".toList ++ ·)
    else
      match s.container with
      | none => .error (.unknownSymbol id)
      | some container =>
        (index.outerTypeParameters container).bind fun outer =>
          (index.qualifiedName container).map fun typeName => memberDocId typeName outer s

end SymbolIndex

end PartialDocs
