import PartialDocs.Declaration.Piece
import PartialDocs.Symbol.Basic

/-!
# Merging the comments of a symbol

The pieces of a symbol may each have a comment.  For a type all of them count, one below
the other.  For a partial method the piece with the body decides, and the one without
only where there is no body.  Any other symbol has one piece.
-/

set_option autoImplicit false

namespace PartialDocs

/-- How the comments of a symbol become one. -/
inductive MergePolicy where
  /-- All comments, in order. -/
  | concatenate
  /-- The comment of the implementing piece, else that of the defining one. -/
  | override
  /-- The comment of the only piece. -/
  | passThrough
  deriving DecidableEq, Repr

namespace MergePolicy

/-- The policy in words. -/
def label : MergePolicy → Text
  | .concatenate => "concatenate".toList
  | .override => "override".toList
  | .passThrough => "pass_through".toList

/-- The policy with the given words. -/
def ofLabel? (words : Text) : Option MergePolicy :=
  [concatenate, override, passThrough].find? fun p => p.label == words

/-- The policy for a symbol. -/
def ofSymbol (s : Symbol) : MergePolicy :=
  if s.kind.isType then .concatenate else if s.isPartialMethod then .override else .passThrough

/-- A policy is read back from its label. -/
theorem ofLabel?_label (p : MergePolicy) : ofLabel? p.label = some p := by cases p <;> decide

end MergePolicy

/-- The role of a piece with its comment, where it has one. -/
abbrev RoledComment := Role × Option Text

/-- All comments, one below the other. -/
def concatenateComments (comments : List RoledComment) : Option Text :=
  match comments.filterMap Prod.snd with
  | [] => none
  | texts => some (Text.unlines texts)

/-- The last piece of a role. -/
def lastOfRole? (role : Role) (comments : List RoledComment) : Option RoledComment :=
  comments.reverse.find? fun c => c.1 == role

/-- The comment of the implementing piece, else that of the defining one. -/
def overrideComments (comments : List RoledComment) : Option Text :=
  ((lastOfRole? .implementing comments).or (lastOfRole? .defining comments)).bind Prod.snd

/-- One body from the comments of a symbol, where any of them counts. -/
def mergeComments : MergePolicy → List RoledComment → Option Text
  | .concatenate, comments => concatenateComments comments
  | .override, comments => overrideComments comments
  | .passThrough, comments => comments.head?.bind Prod.snd

end PartialDocs
