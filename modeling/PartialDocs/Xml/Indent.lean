import PartialDocs.Text.Blank

/-!
# Indentation

Lines that are not blank are moved to the right; blank lines stay as they are.
-/

set_option autoImplicit false

namespace PartialDocs.Xml

/-- A line moved to the right, unless it is blank. -/
def indentLine (width : Nat) (line : Text) : Text :=
  if Text.isBlank line then line else List.replicate width ' ' ++ line

/-- A text with its lines moved to the right. -/
def indent (width : Nat) (s : Text) : Text := Text.unlines ((Text.lines s).map (indentLine width))

end PartialDocs.Xml
