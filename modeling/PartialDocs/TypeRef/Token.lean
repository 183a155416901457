import PartialDocs.Text.Blank
import PartialDocs.Text.Letter

/-!
# Tokens of a type

A type as written is a sequence of words, of words after an at sign, and of other
characters.  Blanks end a word and carry no further meaning, except that an at sign
belongs to a word only right before it.
-/

set_option autoImplicit false

namespace PartialDocs

/-- A token of a type as written. -/
inductive TypeToken where
  /-- A longest run of identifier characters. -/
  | word (name : Text)
  /-- A word right after an at sign. -/
  | escaped (name : Text)
  /-- Any other character that is not blank. -/
  | mark (c : Char)
  deriving DecidableEq, Repr

namespace TypeToken

/-- Whether a text begins with a word. -/
def startsWord : Text → Bool
  | [] => false
  | c :: _ => isIdentifierChar c

/-- Put an identifier character in front of the first word. -/
def extendWord (c : Char) : List TypeToken → List TypeToken
  | word w :: ts => word (c :: w) :: ts
  | ts => word [c] :: ts

/-- Put an at sign in front of the first word. -/
def escapeWord : List TypeToken → List TypeToken
  | word w :: ts => escaped w :: ts
  | ts => mark '@' :: ts

/-- The tokens of a text. -/
def ofText : Text → List TypeToken
  | [] => []
  | c :: rest =>
    if isBlankChar c then ofText rest
    else if isIdentifierChar c then
      if startsWord rest then extendWord c (ofText rest) else word [c] :: ofText rest
    else if c == '@' && startsWord rest then escapeWord (ofText rest)
    else mark c :: ofText rest

end TypeToken

end PartialDocs
