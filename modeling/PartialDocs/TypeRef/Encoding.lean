import PartialDocs.Symbol.Basic
import PartialDocs.TypeRef.Parser

/-!
# Types in documentation IDs

A documentation ID spells a parameter type by its own rules: the keyword for a built-in
type becomes the full name of that type, a type parameter becomes its number after one
backtick or, for those of the method, two, type arguments stand in braces, and an array
states the lower bound of every dimension once it has more than one.  No name is looked
up: any other name stays as written.
-/

set_option autoImplicit false

namespace PartialDocs

/-- The type parameters that a type may mention. -/
structure TypeContext where
  /-- Those of the types around the member, outermost first. -/
  outer : List Text
  /-- Those of the method. -/
  method : List Text
  deriving DecidableEq, Repr

/-- The keywords for built-in types, each with its full name and whether it is a value type. -/
def builtInTypes : List (String × String × Bool) :=
  [("bool", "System.Boolean", true), ("byte", "System.Byte", true),
   ("sbyte", "System.SByte", true), ("char", "System.Char", true),
   ("short", "System.Int16", true), ("ushort", "System.UInt16", true),
   ("int", "System.Int32", true), ("uint", "System.UInt32", true),
   ("long", "System.Int64", true), ("ulong", "System.UInt64", true),
   ("float", "System.Single", true), ("double", "System.Double", true),
   ("decimal", "System.Decimal", true), ("nint", "System.IntPtr", true),
   ("nuint", "System.UIntPtr", true), ("string", "System.String", false),
   ("object", "System.Object", false), ("dynamic", "System.Object", false),
   ("void", "System.Void", false)]

/-- The full name of the built-in type that a keyword names, and whether it is a value type. -/
def builtInType? (name : Text) : Option (Text × Bool) :=
  (builtInTypes.find? fun (keyword, _, _) => keyword.toList == name).map
    fun (_, fullName, isValue) => (fullName.toList, isValue)

/-- The place of the last occurrence. -/
def lastIdxOf? (names : List Text) (name : Text) : Option Nat :=
  (names.reverse.idxOf? name).map fun i => names.length - 1 - i

namespace TypeContext

/-- What a single word stands for where it is no plain name. -/
def meaning? (context : TypeContext) (name : Text) : Option Text :=
  ((builtInType? name).map Prod.fst).or <|
    ((context.method.idxOf? name).map fun i => "``".toList ++ Text.ofNat i).or <|
      (lastIdxOf? context.outer name).map fun i => '\x60' :: Text.ofNat i

end TypeContext

namespace TypeRef

/-- Whether a type is the keyword for a built-in value type. -/
def isBuiltInValue : TypeRef → Bool
  | named [.mk name []] => (builtInType? name).any Prod.snd
  | _ => false

/-- The mark of an array with the given number of dimensions. -/
def arrayMark (rank : Nat) : Text :=
  if rank = 1 then "[]".toList
  else '[' :: Text.joinWith [','] (List.replicate rank "0:".toList) ++ [']']

/-- Texts in braces, separated by commas. -/
def braced (texts : List Text) : Text := '\x7b' :: Text.joinWith [','] texts ++ ['\x7d']

mutual

/-- The spelling of a type in a documentation ID. -/
def encode (context : TypeContext) : TypeRef → Text
  | named segments =>
    match segments with
    | [.mk name []] => (context.meaning? name).getD name
    | _ => Text.joinWith ['.'] (encodeSegments context segments)
  | nullable inner =>
    if inner.isBuiltInValue then "System.Nullable".toList ++ braced [encode context inner]
    else encode context inner
  | array element rank => encode context element ++ arrayMark rank
  | pointer target => encode context target ++ ['*']
  | tuple elements => "System.ValueTuple".toList ++ braced (encodeAll context elements)

/-- The spellings of the segments of a dotted name. -/
def encodeSegments (context : TypeContext) : List TypeSegment → List Text
  | [] => []
  | s :: ss => encodeSegment context s :: encodeSegments context ss

/-- The spelling of one segment. -/
def encodeSegment (context : TypeContext) : TypeSegment → Text
  | .mk name arguments =>
    match arguments with
    | [] => name
    | _ :: _ => name ++ braced (encodeAll context arguments)

/-- The spellings of several types. -/
def encodeAll (context : TypeContext) : List TypeRef → List Text
  | [] => []
  | t :: ts => encode context t :: encodeAll context ts

end

end TypeRef

/-- The spelling of a text that is no type: angle brackets become braces and spaces are left out. -/
def encodeUnread (s : Text) : Text :=
  (Text.replace '<' ['\x7b'] (Text.replace '>' ['\x7d'] s)).filter (· != ' ')

/-- The spelling of a type as written. -/
def encodeType (context : TypeContext) (s : Text) : Text :=
  match TypeRef.ofText? s with
  | some t => t.encode context
  | none => encodeUnread s

/-- The spelling of a parameter, with an at sign where it is passed by reference. -/
def encodeParameter (context : TypeContext) (p : Parameter) : Text :=
  encodeType context p.type ++ if p.byRef then ['@'] else []

/-- The spellings of the parameters between commas. -/
def encodeParameters (context : TypeContext) (ps : List Parameter) : Text :=
  Text.joinWith [','] (ps.map (encodeParameter context))

end PartialDocs
