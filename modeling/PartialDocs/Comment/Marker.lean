import PartialDocs.Text.Blank

/-!
# Documentation comment markers

A documentation comment is a line that begins with three slashes, or a block between
a slash with two stars and a star with a slash.  This module takes the markers away: the
slashes and one space of a line; the ends of a block and, on each of its lines but the
first, the blanks, a star and one space in front.  Anything else is an ordinary comment.
-/

set_option autoImplicit false

namespace PartialDocs.Comment

/-- The content of a documentation line, with one carriage return at its end left out. -/
def lineContent? (s : Text) : Option Text :=
  match Text.stripPrefix? "///".toList s with
  | none => none
  | some ('/' :: _) => none
  | some rest => some (Text.dropPrefix [' '] (Text.dropSuffix ['\r'] rest))

/-- The content of a line of a block other than its first line. -/
def blockLineContent (line : Text) : Text :=
  match Text.trimStart line with
  | '*' :: rest => Text.dropPrefix [' '] rest
  | rest => rest

/-- The contents of the lines of a block after the first one.  A blank last line is left out, and
the blanks at the end of the last line belong to the closing marker. -/
def laterLines : List Text → List Text
  | [] => []
  | [last] => if Text.isBlank last then [] else [Text.trimEnd (blockLineContent last)]
  | line :: next :: rest => blockLineContent line :: laterLines (next :: rest)

/-- The contents of the lines of a block.  A blank first line is left out. -/
def blockLines : List Text → List Text
  | [] => []
  | [only] => if Text.isBlank only then [] else [Text.trimEnd (Text.dropPrefix [' '] only)]
  | first :: next :: rest =>
    (if Text.isBlank first then [] else [Text.dropPrefix [' '] first]) ++ laterLines (next :: rest)

/-- What stands between the markers of a documentation block. -/
def blockInner? (s : Text) : Option Text :=
  match (Text.stripPrefix? "/**".toList s).bind (Text.stripSuffix? "*/".toList) with
  | none | some [] | some ('*' :: _) => none
  | some inner => some inner

/-- The content of a documentation block. -/
def blockContent? (s : Text) : Option Text :=
  (blockInner? s).map fun inner =>
    Text.unlines (blockLines ((Text.lines inner).map (Text.dropSuffix ['\r'])))

/-- The content of a documentation comment. -/
def content? (s : Text) : Option Text := (lineContent? s).or (blockContent? s)

end PartialDocs.Comment
