import PartialDocs.Files.IgnoreLibrary
import PartialDocs.StandIn.Glob
import PartialDocs.Text.Blank

/-!
# Ignore files

A part of the stand-in for the library for ignore files.  An ignore file holds one pattern a
line.  The last pattern that spells a path decides whether it is ignored, or kept when the
pattern begins with an exclamation mark.  A pattern without a slash before its end spells
names at any depth; one that ends in a slash spells directories only.  Comment lines, blank
lines and malformed patterns say nothing.
-/

set_option autoImplicit false

namespace PartialDocs

/-- One pattern of an ignore file. -/
structure IgnoreRule where
  glob : Glob
  /-- Whether the paths that the pattern spells are kept. -/
  keeps : Bool
  directoriesOnly : Bool

namespace IgnoreRule

/-- A line without the blanks at its end, unless a backslash and a space end it. -/
def trimLine (line : Text) : Text :=
  if (Text.stripSuffix? "\\ ".toList line).isSome then line else Text.trimEnd line

/-- A pattern without the mark that it keeps paths, and whether it had that mark. -/
def splitKeep (s : Text) : Bool × Text :=
  match s with
  | '!' :: rest => (true, rest)
  | _ => (false, s)

/-- A pattern without the slash at its beginning, and whether it had one. -/
def splitAnchor (s : Text) : Bool × Text :=
  match s with
  | '/' :: rest => (true, rest)
  | _ => (false, s)

/-- A pattern without the slash at its end, and whether it had one.  A backslash before that slash
goes with it. -/
def splitDirectory (s : Text) : Bool × Text :=
  match Text.stripSuffix? ['/'] s with
  | some rest => (true, Text.dropSuffix ['\\'] rest)
  | none => (false, s)

/-- Whether a pattern begins with two stars for directories. -/
def beginsWithStars (s : Text) : Bool :=
  (Text.stripPrefix? "**/".toList s).isSome || s == "**".toList

/-- The glob of a pattern.  Names are looked for at any depth unless the pattern is anchored or has
a slash, and two stars at the end do not spell the directory itself. -/
def fullPattern (anchored : Bool) (s : Text) : Text :=
  let deep := if !anchored && !s.contains '/' && !beginsWithStars s then "**/".toList ++ s else s
  if (Text.stripSuffix? "/**".toList deep).isSome then deep ++ "/*".toList else deep

/-- The rule of a pattern that is no comment and not empty. -/
def ofPattern? (line : Text) : Option IgnoreRule :=
  let escaped := (Text.stripPrefix? "\\!".toList line).isSome
    || (Text.stripPrefix? "\\#".toList line).isSome
  let (keeps, s) := if escaped then (false, line.drop 1) else splitKeep line
  let (anchored, s) := if escaped then (false, s) else splitAnchor s
  let (directoriesOnly, s) := splitDirectory s
  (Glob.ofText? (fullPattern anchored s)).map fun glob => ⟨glob, keeps, directoriesOnly⟩

/-- The rule of a line. -/
def ofLine? (line : Text) : Option IgnoreRule :=
  match line with
  | '#' :: _ => none
  | _ => if (trimLine line).isEmpty then none else ofPattern? (trimLine line)

/-- Whether a rule speaks of a path. -/
def mentions (rule : IgnoreRule) (path : Text) (isDirectory : Bool) : Bool :=
  (!rule.directoriesOnly || isDirectory) && rule.glob.accepts path

/-- What a rule says of the paths that it mentions. -/
def verdict (rule : IgnoreRule) : Verdict := if rule.keeps then .kept else .ignored

end IgnoreRule

/-- The rules of an ignore file in order. -/
abbrev IgnoreRules := List IgnoreRule

namespace IgnoreRules

/-- The bytes between line feeds. -/
def byteLines (bytes : Bytes) : List Bytes :=
  bytes.foldr
    (fun b ls =>
      if b == 10 then [] :: ls
      else
        match ls with
        | [] => [[b]]
        | l :: ls => (b :: l) :: ls)
    [[]]

/-- The texts of the first lines, all of which are UTF-8.  A carriage return before a line feed is
left out. -/
def textLines : List Bytes → List Text
  | [] => []
  | line :: rest =>
    match String.fromUTF8? ⟨line.toArray⟩ with
    | none => []
    | some s =>
      (if rest.isEmpty then s.toList else Text.dropSuffix ['\r'] s.toList) :: textLines rest

/-- The lines without a byte order mark at the beginning of the first one. -/
def dropMark : List Text → List Text
  | [] => []
  | first :: rest => first.dropWhile (· == '\ufeff') :: rest

/-- The rules of an ignore file. -/
def ofBytes (bytes : Bytes) : IgnoreRules :=
  (dropMark (textLines (byteLines bytes))).filterMap IgnoreRule.ofLine?

/-- What the rules say of a path itself. -/
def verdict? (rules : IgnoreRules) (path : Text) (isDirectory : Bool) : Option Verdict :=
  (rules.reverse.find? fun rule => rule.mentions path isDirectory).map IgnoreRule.verdict

/-- What the rules say of the nearest directory around a path that they speak of, going up at most
the given number of times. -/
def parentVerdict? (rules : IgnoreRules) : Nat → Text → Option Verdict
  | 0, _ => none
  | fuel + 1, path =>
    match Path.parent? path with
    | none => none
    | some parent => (rules.verdict? parent true).or (parentVerdict? rules fuel parent)

/-- What the rules say of a path, else of the nearest directory around it that they speak
of.  Every way up shortens the path. -/
def verdictOrParent? (rules : IgnoreRules) (path : Text) (isDirectory : Bool) : Option Verdict :=
  (rules.verdict? path isDirectory).or (rules.parentVerdict? (path.length + 1) path)

end IgnoreRules

end PartialDocs
