import PartialDocs.Comment.Marker
import PartialDocs.Syntax.Tree

/-!
# The comment above a declaration

The documentation of a declaration is the run of documentation comments right above it.
`fromSiblings` reads the run from the comment nodes before the declaration; a comment
belongs to it when it stands first on its line and ends no further up than the row
above what follows.  Where there is none, `fromLines` reads documentation lines from the
text above.
-/

set_option autoImplicit false

namespace PartialDocs.Comment

/-- Whether nothing but blanks stands between the start of the line and a byte offset. -/
def startsLine (source : Text) (offset : Nat) : Bool :=
  (Text.before? source offset).any fun before => Text.isBlank (Text.lastLine before)

/-- The content of a node that is a documentation comment first on its line, ending at most one row
above the given one. -/
def adjacentContent? (source : Text) (row : Nat) (t : Tree) : Option Text :=
  if t.kind == "comment" && row ≤ (Text.position source t.stop).row + 1
      && startsLine source t.start then
    (Text.slice? source t.start t.stop).bind content?
  else none

/-- The documentation comments that reach the given row, from the siblings before it, nearest
first.  The answer is in the order of the source. -/
def fromSiblings (source : Text) (row : Nat) : List Tree → List Text
  | [] => []
  | t :: ts =>
    match adjacentContent? source row t with
    | none => []
    | some block => fromSiblings source (Text.position source t.start).row ts ++ [block]

/-- The contents of the first lines, all of which are documentation lines. -/
def docLines : List Text → List Text
  | [] => []
  | line :: rest =>
    match lineContent? (Text.trimStart (Text.dropSuffix ['\r'] line)) with
    | none => []
    | some content => content :: docLines rest

/-- The documentation lines right above the line of a byte offset, provided that the offset is the
first thing on its line. -/
def fromLines (source : Text) (offset : Nat) : List Text :=
  match Text.before? source offset with
  | none => []
  | some before =>
    if Text.isBlank (Text.lastLine before) then
      (docLines (Text.lines before).dropLast.reverse).reverse
    else []

/-- The documentation comments above a node that starts at a byte offset and follows the given
siblings. -/
def leading (source : Text) (offset : Nat) (siblings : List Tree) : List Text :=
  let blocks := fromSiblings source (Text.position source offset).row siblings
  if blocks.isEmpty then fromLines source offset else blocks

/-- The documentation above a node, where it has any. -/
def above? (source : Text) (offset : Nat) (siblings : List Tree) : Option Text :=
  let blocks := leading source offset siblings
  if blocks.isEmpty then none else some (Text.unlines blocks)

end PartialDocs.Comment
