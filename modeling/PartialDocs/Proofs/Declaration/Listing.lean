import PartialDocs.Proofs.Declaration.Shift

/-!
# Listing declarations

The declarations of an outline in the order in which they are entered, each with the
declarations around it instead of numbers.  A listing says nothing about what the builder
makes of them.  It depends on the ordinal of the file in the pieces only, so that listing
a file under another ordinal renumbers its pieces (`SourceFile.listing_renumber`).
-/

set_option autoImplicit false

namespace PartialDocs

/-- A declaration with the symbols around it as they are declared, innermost first. -/
structure Listed where
  outer : List Symbol
  symbol : Symbol
  piece : Piece
  deriving DecidableEq, Repr

namespace Declaration

/-- What stands around a symbol in the body of the given ones.  A type of a namespace is in no
type. -/
def outerOf (outer : List Symbol) (s : Symbol) : List Symbol :=
  if s.nameSpace.isSome then [] else outer

mutual

/-- A declaration and those of its body. -/
def listing (outer : List Symbol) : Declaration → List Listed
  | .mk s p ds => ⟨outerOf outer s, s, p⟩ :: listingAll (s :: outerOf outer s) ds

/-- Declarations one after another, each with those of its body. -/
def listingAll (outer : List Symbol) : List Declaration → List Listed
  | [] => []
  | d :: ds => listing outer d ++ listingAll outer ds

end

end Declaration

/-! ## Other ordinals -/

/-- The piece of the file that gets another ordinal. -/
def Piece.renumber (place : Nat → Nat) (p : Piece) : Piece := { p with file := place p.file }

/-- The declaration in the file that gets another ordinal. -/
def Listed.renumber (place : Nat → Nat) (x : Listed) : Listed :=
  { x with piece := x.piece.renumber place }

namespace Declaration

mutual

/-- The declaration in the file that gets another ordinal. -/
def renumber (place : Nat → Nat) : Declaration → Declaration
  | .mk s p ds => .mk s (p.renumber place) (renumberAll place ds)

/-- The declarations in the file that gets another ordinal. -/
def renumberAll (place : Nat → Nat) : List Declaration → List Declaration
  | [] => []
  | d :: ds => renumber place d :: renumberAll place ds

end

variable (place : Nat → Nat)

mutual

/-- A declaration with renumbered files lists the same, renumbered. -/
theorem listing_renumber (outer : List Symbol) : ∀ d : Declaration,
    listing outer (renumber place d) = (listing outer d).map (Listed.renumber place)
  | .mk s p ds => by
    unfold renumber listing
    rw [listingAll_renumber _ ds, List.map_cons]
    rfl

/-- Declarations with renumbered files list the same, renumbered. -/
theorem listingAll_renumber (outer : List Symbol) : ∀ ds : List Declaration,
    listingAll outer (renumberAll place ds) = (listingAll outer ds).map (Listed.renumber place)
  | [] => by
    unfold renumberAll listingAll
    rfl
  | d :: ds => by
    unfold renumberAll listingAll
    rw [listing_renumber outer d, listingAll_renumber outer ds, List.map_append]

end

/-! ## Outlines under other ordinals -/

mutual

/-- Renumbering files is moving pieces. -/
theorem renumber_eq_mapPieces : ∀ d : Declaration,
    renumber place d = mapPieces (Piece.renumber place) d
  | .mk s p ds => by rw [renumber, mapPieces, renumberAll_eq_mapPiecesAll ds]

/-- Renumbering files is moving pieces, in all declarations. -/
theorem renumberAll_eq_mapPiecesAll : ∀ ds : List Declaration,
    renumberAll place ds = mapPiecesAll (Piece.renumber place) ds
  | [] => by rw [renumberAll, mapPiecesAll]
  | d :: ds => by
    rw [renumberAll, mapPiecesAll, renumber_eq_mapPieces d, renumberAll_eq_mapPiecesAll ds]

end

/-- The children of a node make the same declarations in a file of another number. -/
theorem ofChildren_renumber (file : Nat) (source : Text) (scope : Scope) (t : Tree) :
    ofChildren (place file) source scope t =
      renumberAll place (ofChildren file source scope t) := by
  have moves : Moves 0 file (place file) source source (Piece.renumber place) :=
    ⟨fun _ _ => rfl, fun role t => by rw [Tree.shift_zero]; rfl⟩
  have hshift := ofChildren_shift moves scope t
  rwa [Tree.shift_zero, ← renumberAll_eq_mapPiecesAll] at hshift

end Declaration

/-- The declarations of a file with the given ordinal. -/
def SourceFile.listing (f : SourceFile) (ordinal : Nat) : List Listed :=
  Declaration.listingAll [] (f.outline ordinal)

/-- A file under another ordinal has the same declarations with renumbered pieces. -/
theorem SourceFile.listing_renumber (f : SourceFile) (place : Nat → Nat) (ordinal : Nat) :
    f.listing (place ordinal) = (f.listing ordinal).map (Listed.renumber place) := by
  have houtline : f.outline (place ordinal) = Declaration.renumberAll place (f.outline ordinal) :=
    Declaration.ofChildren_renumber place ordinal f.text .file f.tree
  unfold listing
  rw [houtline, Declaration.listingAll_renumber]

end PartialDocs
