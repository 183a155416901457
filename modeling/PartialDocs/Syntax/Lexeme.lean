import PartialDocs.Text.Blank
import PartialDocs.Text.Letter
import PartialDocs.Text.Offset

/-!
# Lexemes of a source

A source as a sequence of words, comments, directives, literals and marks, each with
the bytes that it spans.  Blanks between lexemes are left out.
-/

set_option autoImplicit false

namespace PartialDocs

/-- What a lexeme is. -/
inductive LexemeKind where
  | word
  | comment
  /-- A line for the preprocessor. -/
  | directive
  /-- A number, a character or a string. -/
  | literal
  | mark
  deriving DecidableEq, Repr

/-- A lexeme with its first byte and the byte after it. -/
structure Lexeme where
  kind : LexemeKind
  text : Text
  start : Nat
  stop : Nat
  deriving DecidableEq, Repr

namespace Lexeme

/-- The length of the line at hand. -/
def lineLength (s : Text) : Nat := (s.takeWhile fun c => c != '\n' && c != '\r').length

/-- The length of a block up to and with the first occurrence of its end after an opening. -/
def blockLength (opening : Nat) (ending s : Text) : Nat :=
  min s.length (opening + (Text.beforeFirst ending (s.drop opening)).length + ending.length)

/-- The length of what is left of a text between quotes that a backslash escapes. -/
def quotedLength (mark : Char) : Text → Nat
  | [] => 0
  | ['\\'] => 1
  | '\\' :: _ :: rest => 2 + quotedLength mark rest
  | c :: rest => if c == mark then 1 else if c == '\n' then 0 else 1 + quotedLength mark rest

/-- The length of what is left of a text in which a quote is doubled. -/
def doubledLength : Text → Nat
  | [] => 0
  | '"' :: '"' :: rest => 2 + doubledLength rest
  | c :: rest => if c == '"' then 1 else 1 + doubledLength rest

/-- The length of a string with the given sigils in front. -/
def stringLength (sigils s : Text) : Nat :=
  let quotes := (s.takeWhile (· == '"')).length
  if 3 ≤ quotes then blockLength quotes (List.replicate quotes '"') s
  else if sigils.contains '@' then 1 + doubledLength (s.drop 1)
  else 1 + quotedLength '"' (s.drop 1)

/-- The marks of two characters. -/
def doubleMarks : List Text :=
  ["=>".toList, "==".toList, "!=".toList, "<=".toList, ">=".toList, "::".toList]

/-- The kind and the length of the lexeme that a text begins with. -/
def measure (s : Text) : LexemeKind × Nat :=
  let sigils := s.takeWhile fun c => c == '$' || c == '@'
  let body := s.drop sigils.length
  let isWordAt := fun (s : Text) => s.head?.any isIdentifierChar
  if s.take 2 == "//".toList then (.comment, lineLength s)
  else if s.take 2 == "/*".toList then (.comment, blockLength 2 "*/".toList s)
  else if s.head? == some '#' then (.directive, lineLength s)
  else if body.head? == some '"' then (.literal, sigils.length + stringLength sigils body)
  else if s.head? == some '\'' then (.literal, 1 + quotedLength '\'' (s.drop 1))
  else if s.head?.any Char.isDigit then
    (.literal, (s.takeWhile fun c => isIdentifierChar c || c == '.').length)
  else if isWordAt s then (.word, (s.takeWhile isIdentifierChar).length)
  else if sigils == ['@'] && isWordAt body then
    (.word, 1 + (body.takeWhile isIdentifierChar).length)
  else if doubleMarks.contains (s.take 2) then (.mark, 2)
  else (.mark, 1)

/-- The lexemes from a byte offset on.  Every lexeme takes a character. -/
def scan : Nat → Nat → Text → List Lexeme
  | 0, _, _ => []
  | _ + 1, _, [] => []
  | fuel + 1, offset, c :: rest =>
    if isBlankChar c || c == '\ufeff' then scan fuel (offset + c.utf8Size) rest
    else
      let (kind, length) := measure (c :: rest)
      let text := (c :: rest).take length
      let stop := offset + Text.byteLength text
      ⟨kind, text, offset, stop⟩ :: scan fuel stop ((c :: rest).drop length)

/-- The lexemes of a text. -/
def ofText (s : Text) : List Lexeme := scan s.length 0 s

/-- Whether a lexeme is the given mark or word. -/
def is (l : Lexeme) (text : String) : Bool :=
  (l.kind == .mark || l.kind == .word) && l.text == text.toList

/-- Whether a lexeme is one of the given marks or words. -/
def isOneOf (l : Lexeme) (texts : List String) : Bool := texts.any l.is

/-- Whether lexemes begin with the given mark or word. -/
def startWith (ls : List Lexeme) (text : String) : Bool := ls.head?.any fun l => l.is text

/-! ## Brackets -/

/-- Whether a lexeme opens brackets. -/
def opens (angles : Bool) (l : Lexeme) : Bool :=
  l.isOneOf ["(", "[", "\x7b"] || (angles && l.is "<")

/-- Whether a lexeme closes brackets. -/
def closes (angles : Bool) (l : Lexeme) : Bool :=
  l.isOneOf [")", "]", "\x7d"] || (angles && l.is ">")

/-- How deep in brackets the lexeme after this one lies. -/
def depthAfter (angles : Bool) (depth : Nat) (l : Lexeme) : Nat :=
  if l.opens angles then depth + 1 else if l.closes angles then depth - 1 else depth

/-- Cut lexemes that begin with an opening bracket after the bracket that closes it. -/
def enclosed (angles : Bool) (depth : Nat) : List Lexeme → List Lexeme × List Lexeme
  | [] => ([], [])
  | l :: ls =>
    let next := l.depthAfter angles depth
    if next = 0 then ([l], ls)
    else
      let (inside, rest) := enclosed angles next ls
      (l :: inside, rest)

/-- What stands between the brackets of enclosed lexemes. -/
def between (ls : List Lexeme) : List Lexeme := (ls.drop 1).dropLast

/-- Cut lexemes before the first one outside of brackets that ends something. -/
def before (ends : Lexeme → Bool) (angles : Bool) (depth : Nat) :
    List Lexeme → List Lexeme × List Lexeme
  | [] => ([], [])
  | l :: ls =>
    if depth = 0 && ends l then ([], l :: ls)
    else
      let (taken, rest) := before ends angles (l.depthAfter angles depth) ls
      (l :: taken, rest)

/-- Put a lexeme in front of the first part. -/
def consPart (l : Lexeme) : List (List Lexeme) → List (List Lexeme)
  | [] => [[l]]
  | part :: parts => (l :: part) :: parts

/-- The parts between commas outside of brackets, none where there is nothing. -/
def commaParts (angles : Bool) (depth : Nat) : List Lexeme → List (List Lexeme)
  | [] => []
  | l :: ls =>
    if depth = 0 && l.is "," then [] :: commaParts angles depth ls
    else consPart l (commaParts angles (l.depthAfter angles depth) ls)

end Lexeme

end PartialDocs
