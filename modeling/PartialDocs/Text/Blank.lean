import PartialDocs.Text.Basic

/-!
# Blank characters

Which characters are blank: those with the Unicode property White_Space.  The module
also holds what is defined through them: trimming a text at either end, asking whether
a line is blank, and cutting a text into words.
-/

set_option autoImplicit false

namespace PartialDocs

/-- A character is blank when it has the Unicode property White_Space. -/
def isBlankChar (c : Char) : Bool :=
  let n := c.toNat
  (0x9 ≤ n && n ≤ 0xD) || n == 0x20 || n == 0x85 || n == 0xA0 || n == 0x1680 ||
    (0x2000 ≤ n && n ≤ 0x200A) || n == 0x2028 || n == 0x2029 || n == 0x202F ||
    n == 0x205F || n == 0x3000

namespace Text

/-- The text without its leading blanks. -/
def trimStart (s : Text) : Text := s.dropWhile isBlankChar

/-- The text without its trailing blanks. -/
def trimEnd (s : Text) : Text := (s.reverse.dropWhile isBlankChar).reverse

/-- A text is blank when it holds nothing but blanks. -/
def isBlank (s : Text) : Bool := s.all isBlankChar

/-- The maximal runs of characters that are not blank. -/
def words : Text → List Text
  | [] => []
  | c :: rest =>
    if isBlankChar c then words rest
    else
      match rest with
      | [] => [[c]]
      | d :: _ => if isBlankChar d then [c] :: words rest else consFirst c (words rest)

end Text

end PartialDocs
