import PartialDocs.Proofs.Declaration.Wording
import PartialDocs.Proofs.Syntax.Shift

/-!
# Outlines further down a text

What a declaration says is read from slices of the text.  A tree further down another text
that has the same slices there makes the same declarations, with pieces that have moved
(`ofChildren_shift`).
-/

set_option autoImplicit false

namespace PartialDocs

/-- Whether a text has, further down, the slices of another one. -/
def SameSlices (n : Nat) (source source' : Text) : Prop :=
  ∀ start stop, Text.slice? source' (start + n) (stop + n) = Text.slice? source start stop

namespace Declaration

mutual

/-- The declaration with other pieces. -/
def mapPieces (g : Piece → Piece) : Declaration → Declaration
  | .mk s p ds => .mk s (g p) (mapPiecesAll g ds)

/-- The declarations with other pieces. -/
def mapPiecesAll (g : Piece → Piece) : List Declaration → List Declaration
  | [] => []
  | d :: ds => mapPieces g d :: mapPiecesAll g ds

end

mutual

/-- A declaration whose pieces stay is the same. -/
theorem mapPieces_id : ∀ d : Declaration, mapPieces id d = d
  | .mk s p ds => by
    rw [mapPieces, mapPiecesAll_id ds]
    rfl

/-- Declarations whose pieces stay are the same. -/
theorem mapPiecesAll_id : ∀ ds : List Declaration, mapPiecesAll id ds = ds
  | [] => rfl
  | d :: ds => by rw [mapPiecesAll, mapPieces_id d, mapPiecesAll_id ds]

end

mutual

/-- Declarations that are alike in no sense but equality differ in their pieces only. -/
theorem Like.eq_mapPieces {g : Piece → Piece} : ∀ {d d' : Declaration},
    Like .same g d d' → d' = mapPieces g d
  | _, _, .mk hsymbol hds => by rw [mapPieces, hsymbol.eq, hds.eq_mapPiecesAll]

/-- Where nothing is like anything else, declarations that are alike differ in their pieces only. -/
theorem LikeAll.eq_mapPiecesAll {g : Piece → Piece} : ∀ {ds ds' : List Declaration},
    LikeAll .same g ds ds' → ds' = mapPiecesAll g ds
  | _, _, .nil => by rw [mapPiecesAll]
  | _, _, .cons hd hds => by rw [mapPiecesAll, hd.eq_mapPieces, hds.eq_mapPiecesAll]

end

mutual

/-- A declaration is the same as itself with other pieces. -/
theorem like_mapPieces (g : Piece → Piece) : ∀ d : Declaration, Like .same g d (mapPieces g d)
  | .mk s p ds => by
    rw [mapPieces]
    exact .mk s.like_self (likeAll_mapPiecesAll g ds)

/-- Declarations are the same as themselves with other pieces. -/
theorem likeAll_mapPiecesAll (g : Piece → Piece) : ∀ ds : List Declaration,
    LikeAll .same g ds (mapPiecesAll g ds)
  | [] => by
    rw [mapPiecesAll]
    exact .nil
  | d :: ds => by
    rw [mapPiecesAll]
    exact .cons (like_mapPieces g d) (likeAll_mapPiecesAll g ds)

end

/-- Every node of a tree further down says what it said. -/
theorem rereads_further {n : Nat} {source source' : Text} (slices : SameSlices n source source')
    (t : Tree) : Rereads .same (· + n) source source' t := by
  have hkept : ∀ start stop, Kept (· + n) source source' start stop := slices
  exact (SameWording.of_kept (hkept _ _) (fun _ _ => hkept _ _) (fun _ _ => hkept _ _)).rereads

/-! ## Outlines -/

/-- Whether the declarations of a tree further down have the slices and, moved, the pieces that they
had. -/
structure Moves (n file file' : Nat) (source source' : Text) (g : Piece → Piece) : Prop where
  slices : SameSlices n source source'
  piece (role : Role) (t : Tree) :
    pieceOf source' file' role (t.shift n) = g (pieceOf source file role t)

variable {n file file' : Nat} {source source' : Text} {g : Piece → Piece}

/-- The children of a node make the same declarations further down. -/
theorem ofChildren_shift (moves : Moves n file file' source source' g) (scope : Scope) (t : Tree) :
    ofChildren file' source' scope (t.shift n) =
      mapPiecesAll g (ofChildren file source scope t) := by
  have hrelocates : Relocates .same (· + n) file file' source source' g t := by
    refine ⟨fun u _ => rereads_further moves.slices u, fun u _ role => ?_⟩
    rw [← Tree.shift_eq_move, moves.piece]
  rw [Tree.shift_eq_move]
  exact (ofChildren_like t scope hrelocates).eq_mapPiecesAll

end Declaration

end PartialDocs
