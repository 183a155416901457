import PartialDocs.Declaration.Outline
import PartialDocs.Index.Basic
import PartialDocs.TypeRef.Encoding

/-!
# Building the index

Declarations are grouped into symbols by a key.  A type is known by what surrounds it,
its name and its arity; a member also by its kind and the spelling of its parameters.
`add` gives the first declaration of a key a new symbol, attaches further pieces to a
partial symbol, and refuses any other declaration of a key that is taken.
-/

set_option autoImplicit false

namespace PartialDocs

/-- What tells one symbol from another. -/
inductive SymbolKey where
  | type (container : Option SymbolId) (nameSpace : Option Text) (name : Text) (arity : Nat)
  | member (container : SymbolId) (kind : SymbolKind) (name : Text) (arity : Nat)
      (parameters : Text)
  deriving DecidableEq, Repr

/-- The symbols so far, and the number that each key stands for, latest first. -/
structure IndexBuilder where
  entries : List IndexEntry
  keys : List (SymbolKey × SymbolId)
  deriving DecidableEq, Repr

namespace IndexBuilder

/-- The builder before any declaration. -/
def empty : IndexBuilder := ⟨[], []⟩

/-- The type parameters of a type and of those around it, outermost first. -/
def outerTypeParameters (b : IndexBuilder) (id : SymbolId) : List Text :=
  nestedTypeParameters (containerWalk (b.entries.map IndexEntry.symbol) id).1

/-- The key of a symbol.  A member that nothing contains is known like a type. -/
def key (b : IndexBuilder) (s : Symbol) : SymbolKey :=
  match s.container with
  | some id =>
    if s.kind.isType then .type s.container s.nameSpace s.name s.arity
    else
      .member id s.kind s.name s.arity
        (encodeParameters ⟨b.outerTypeParameters id, s.typeParameters⟩ s.parameters)
  | none => .type s.container s.nameSpace s.name s.arity

/-- The number that a key stands for. -/
def find? (b : IndexBuilder) (k : SymbolKey) : Option SymbolId := b.keys.lookup k

/-- Give a symbol a new number, for which its key stands from now on. -/
def declareWith (b : IndexBuilder) (s : Symbol) (pieces : List Piece) :
    IndexBuilder × SymbolId :=
  (⟨b.entries ++ [⟨s, pieces⟩], (b.key s, b.entries.length) :: b.keys⟩, b.entries.length)

/-- Give a symbol without pieces a new number. -/
def declare (b : IndexBuilder) (s : Symbol) : IndexBuilder × SymbolId := b.declareWith s []

/-- Whether a symbol takes one more piece of the given declaration: both are partial, and no piece
has the same role where a role may occur once. -/
def takes (entry : IndexEntry) (s : Symbol) (p : Piece) : Bool :=
  entry.symbol.isPartial && s.isPartial &&
    !((p.role == .defining || p.role == .implementing) &&
      entry.pieces.any fun q => q.role == p.role)

/-- Add a declaration.  The answer is the number of its symbol, or none where it is refused. -/
def add (b : IndexBuilder) (s : Symbol) (p : Piece) : IndexBuilder × Option SymbolId :=
  match b.find? (b.key s) with
  | none =>
    let (b, id) := b.declareWith s [p]
    (b, some id)
  | some id =>
    match b.entries[id]? with
    | none => (b, none)
    | some entry =>
      if takes entry s p then
        (⟨b.entries.set id ⟨entry.symbol, entry.pieces ++ [p]⟩, b.keys⟩, some id)
      else (b, none)

/-- The finished index, in which the pieces of every symbol stand in order. -/
def build (b : IndexBuilder) : SymbolIndex :=
  ⟨b.entries.map fun e => ⟨e.symbol, e.pieces.mergeSort Piece.startsBy⟩⟩

/-- A symbol where it stands.  A type of a namespace is in no type. -/
def placeIn (container : Option SymbolId) (s : Symbol) : Symbol :=
  { s with container := if s.nameSpace.isSome then none else container }

mutual

/-- Add a declaration and, unless it is refused, those of its body. -/
def enter (b : IndexBuilder) (container : Option SymbolId) : Declaration → IndexBuilder
  | .mk s p ds =>
    match b.add (placeIn container s) p with
    | (b, none) => b
    | (b, some id) => enterAll b (some id) ds

/-- Add declarations one after another. -/
def enterAll (b : IndexBuilder) (container : Option SymbolId) : List Declaration → IndexBuilder
  | [] => b
  | d :: ds => enterAll (enter b container d) container ds

end

/-- Add the declarations of a source file with the given ordinal. -/
def enterFile (b : IndexBuilder) (ordinal : Nat) (f : SourceFile) : IndexBuilder :=
  b.enterAll none (f.outline ordinal)

end IndexBuilder

end PartialDocs
