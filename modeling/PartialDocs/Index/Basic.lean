import PartialDocs.Declaration.Piece
import PartialDocs.Error
import PartialDocs.Index.Containers

/-!
# The symbol index

All symbols of a compilation in the order of their numbers, each with its pieces.
-/

set_option autoImplicit false

namespace PartialDocs

/-- A symbol with the places where it is declared. -/
structure IndexEntry where
  symbol : Symbol
  pieces : List Piece
  deriving DecidableEq, Repr

/-- The symbols of a compilation.  The number of a symbol is its place in the list. -/
structure SymbolIndex where
  entries : List IndexEntry
  deriving DecidableEq, Repr

namespace SymbolIndex

/-- The symbols in the order of their numbers. -/
def symbols (index : SymbolIndex) : List Symbol := index.entries.map IndexEntry.symbol

/-- The number of symbols. -/
def size (index : SymbolIndex) : Nat := index.entries.length

/-- The numbers of all symbols. -/
def ids (index : SymbolIndex) : List SymbolId := List.range index.size

/-- The symbol with a number. -/
def symbol? (index : SymbolIndex) (id : SymbolId) : Option Symbol :=
  (index.entries[id]?).map IndexEntry.symbol

/-- The symbol with a number, which an error reports where there is none. -/
def symbol (index : SymbolIndex) (id : SymbolId) : Except ResolveError Symbol :=
  match index.symbol? id with
  | some s => .ok s
  | none => .error (.unknownSymbol id)

/-- The numbers of the symbols that fulfil a condition, in order. -/
def idsWhere (index : SymbolIndex) (p : Symbol → Bool) : List SymbolId :=
  index.ids.filter fun id => (index.symbol? id).any p

/-- The symbols right inside a type, in order. -/
def membersOf (index : SymbolIndex) (id : SymbolId) : List SymbolId :=
  index.idsWhere fun s => s.container == some id

/-- The pieces of a symbol in order.  A symbol without any is an error. -/
def pieces (index : SymbolIndex) (id : SymbolId) : Except ResolveError (List Piece) :=
  match index.entries[id]? with
  | none => .error (.unknownSymbol id)
  | some entry =>
    if entry.pieces.isEmpty then .error (.noDeclarations entry.symbol.name)
    else .ok entry.pieces

/-- The symbol with a number and those around it, innermost first.  A walk that would never stop has
no answer, and the error names the symbol at which it begins; in an index from files every walk from
a symbol stops. -/
def containers (index : SymbolIndex) (id : SymbolId) : Except ResolveError (List Symbol) :=
  match containerWalk index.symbols id with
  | (chain, .top) => .ok chain
  | (_, .missing id) => .error (.unknownSymbol id)
  | (_, .endless) => .error (.unknownSymbol id)

end SymbolIndex

end PartialDocs
