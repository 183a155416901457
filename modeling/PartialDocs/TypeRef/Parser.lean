import PartialDocs.TypeRef.Basic
import PartialDocs.TypeRef.Token

/-!
# Reading a type

`TypeRef.ofText?` reads a type as written.  The readers for types, tuple elements, type
arguments and dotted names call each other; each call passes on one unit less of fuel,
and three units for each token and three more are enough, since every round through the
readers takes a token.
-/

set_option autoImplicit false

namespace PartialDocs.TypeRef

open TypeToken (word escaped mark)

/-- What a reader finds, with the tokens after it. -/
abbrev Reading (α : Type) := Option (α × List TypeToken)

/-- Read a word, with or without an at sign. -/
def readWord : List TypeToken → Reading Text
  | .word w :: ts => some (w, ts)
  | .escaped w :: ts => some (w, ts)
  | _ => none

/-- Read a name, with the alias before a double colon where there is one.  The alias global is
left out and any other alias is joined by a dot. -/
def readName (ts : List TypeToken) : Reading Text :=
  match readWord ts with
  | none => none
  | some (name, .mark ':' :: ts) =>
    match ts with
    | .mark ':' :: ts =>
      (readWord ts).map fun (rest, ts) =>
        (if name = "global".toList then rest else name ++ '.' :: rest, ts)
    | _ => none
  | some (name, ts) => some (name, ts)

mutual

/-- Read the marks after a type: nullable, pointer and array. -/
def readSuffixes (t : TypeRef) : List TypeToken → Reading TypeRef
  | [] => some (t, [])
  | .mark '?' :: ts => readSuffixes (.nullable t) ts
  | .mark '*' :: ts => readSuffixes (.pointer t) ts
  | .mark '[' :: ts => readDimensions t 1 ts
  | token :: ts => some (t, token :: ts)

/-- Read the rest of an array mark with the given number of dimensions so far. -/
def readDimensions (t : TypeRef) (rank : Nat) : List TypeToken → Reading TypeRef
  | .mark ',' :: ts => readDimensions t (rank + 1) ts
  | .mark ']' :: ts => readSuffixes (.array t rank) ts
  | _ => none

end

/-- Leave out the name of a tuple element. -/
def dropElementName : List TypeToken → List TypeToken
  | .word _ :: ts => ts
  | ts => ts

mutual

/-- Read a type. -/
def readType : Nat → List TypeToken → Reading TypeRef
  | 0, _ => none
  | fuel + 1, .mark '(' :: ts =>
    (readElements fuel ts).bind fun (es, ts) => readSuffixes (.tuple es) ts
  | fuel + 1, ts => (readSegments fuel ts).bind fun (ss, ts) => readSuffixes (.named ss) ts

/-- Read the elements of a tuple up to its closing parenthesis. -/
def readElements : Nat → List TypeToken → Reading (List TypeRef)
  | 0, _ => none
  | fuel + 1, ts =>
    (readType fuel ts).bind fun (e, ts) =>
      match dropElementName ts with
      | .mark ')' :: ts => some ([e], ts)
      | .mark ',' :: ts => (readElements fuel ts).map fun (es, ts) => (e :: es, ts)
      | _ => none

/-- Read the type arguments up to the closing angle bracket. -/
def readArguments : Nat → List TypeToken → Reading (List TypeRef)
  | 0, _ => none
  | fuel + 1, ts =>
    (readType fuel ts).bind fun (a, ts) =>
      match ts with
      | .mark '>' :: ts => some ([a], ts)
      | .mark ',' :: ts => (readArguments fuel ts).map fun (as, ts) => (a :: as, ts)
      | _ => none

/-- Read a dotted name. -/
def readSegments : Nat → List TypeToken → Reading (List TypeSegment)
  | 0, _ => none
  | fuel + 1, ts =>
    (readName ts).bind fun (name, ts) =>
      let arguments : Reading (List TypeRef) :=
        match ts with
        | .mark '<' :: ts => readArguments fuel ts
        | ts => some ([], ts)
      arguments.bind fun (as, ts) =>
        match ts with
        | .mark '.' :: ts =>
          (readSegments fuel ts).map fun (ss, ts) => (.mk name as :: ss, ts)
        | ts => some ([.mk name as], ts)

end

/-- The type that a sequence of tokens spells. -/
def ofTokens? (ts : List TypeToken) : Option TypeRef :=
  match readType (3 * ts.length + 3) ts with
  | some (t, []) => some t
  | _ => none

/-- The type that a text spells. -/
def ofText? (s : Text) : Option TypeRef := ofTokens? (TypeToken.ofText s)

end PartialDocs.TypeRef
