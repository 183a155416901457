import PartialDocs.Index.Basic

/-!
# The arena of pieces

An index can keep the pieces of all its symbols in one list.  The pieces of each symbol lie
behind those of the symbol before it, and a range says for every symbol where its own
pieces begin and end.
-/

set_option autoImplicit false

namespace PartialDocs

/-- The pieces of all symbols in one list, with the beginning and the end of the pieces of each
symbol. -/
structure PieceArena where
  pieces : List Piece
  ranges : List (Nat × Nat)
  deriving DecidableEq, Repr

namespace PieceArena

/-- The arena of no symbol. -/
def empty : PieceArena := ⟨[], []⟩

/-- Lay the pieces of one more symbol behind all others. -/
def push (a : PieceArena) (own : List Piece) : PieceArena :=
  ⟨a.pieces ++ own, a.ranges ++ [(a.pieces.length, a.pieces.length + own.length)]⟩

/-- The pieces in the range of a symbol. -/
def own (a : PieceArena) (id : SymbolId) : List Piece :=
  match a.ranges[id]? with
  | none => []
  | some (first, last) => (a.pieces.drop first).take (last - first)

end PieceArena

/-- The arena of an index, laid out symbol after symbol. -/
def SymbolIndex.arena (index : SymbolIndex) : PieceArena :=
  index.entries.foldl (fun a e => a.push e.pieces) .empty

end PartialDocs
