import PartialDocs.Text.Blank

/-!
# Spacing in types as written

Blanks in a type carry no meaning except between two words.  `respace` leaves out every
blank that stands at an end or beside a punctuation mark and writes one space for any
other run of blanks.
-/

set_option autoImplicit false

namespace PartialDocs.TypeText

/-- The marks beside which a type needs no blank. -/
def isMark (c : Char) : Bool := "<>,[]()?*.:".toList.contains c

/-- Respace what follows, given the last character written and whether blanks came after it. -/
def respaceAfter (last : Option Char) (gap : Bool) : Text → Text
  | [] => []
  | c :: rest =>
    if isBlankChar c then respaceAfter last true rest
    else if gap && (last.any fun p => !isMark p) && !isMark c then
      ' ' :: c :: respaceAfter (some c) false rest
    else c :: respaceAfter (some c) false rest

/-- The type without the blanks that carry no meaning. -/
def respace (s : Text) : Text := respaceAfter none false s

end PartialDocs.TypeText
