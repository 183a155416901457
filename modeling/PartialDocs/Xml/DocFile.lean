import PartialDocs.Xml.Indent

/-!
# Documentation files

A documentation file names an assembly and holds one element for each documented
member.  The body of an element is written as it is, four columns in; the element itself
stands eight columns in.
-/

set_option autoImplicit false

namespace PartialDocs.Xml

/-- The element of a member with the given documentation ID. -/
def member (docId body : Text) : Text :=
  "<member name=\"".toList ++ docId ++ "\">\n".toList ++ indent 4 body ++ "\n</member>\n".toList

/-- The element of a member, or nothing where it has no body. -/
def memberOrEmpty (docId : Text) : Option Text → Text
  | none => []
  | some body => member docId body

/-- A text with the markup characters escaped. -/
def escape (s : Text) : Text :=
  Text.replace '>' "&gt;".toList
    (Text.replace '<' "&lt;".toList (Text.replace '&' "&amp;".toList s))

/-- A text without the line feeds at its end. -/
def dropFinalNewlines (s : Text) : Text := (s.reverse.dropWhile (· == '\n')).reverse

/-- The lines before the members. -/
def header (assembly : Text) : Text :=
  "<?xml version=\"1.0\"?>\n<doc>\n    <assembly>\n        <name>".toList ++ escape assembly
    ++ "</name>\n    </assembly>\n    <members>\n".toList

/-- The lines after the members. -/
def footer : Text := "    </members>\n</doc>\n".toList

/-- The lines of one member. -/
def memberLines (element : Text) : Text := indent 8 (dropFinalNewlines element) ++ ['\n']

/-- A documentation file with the given elements. -/
def file (assembly : Text) (elements : List Text) : Text :=
  header assembly ++ elements.flatMap memberLines ++ footer

end PartialDocs.Xml
