import PartialDocs.Text.Basic

/-!
# Quoted text in TOML

A part of the stand-in for the library for TOML.  Text is quoted in four styles: with double
quotes, which allow escapes, or with single quotes, which do not, and each either on one line
or over several lines between tripled quotes.  `readQuoted` reads all four.  `quoteText` writes
a text in the first style that holds it without a backslash, and with escapes where none does.
-/

set_option autoImplicit false

namespace PartialDocs.Toml

/-- What a reader finds, with the text after it. -/
abbrev Reading (α : Type) := Option (α × Text)

/-! ## Digits -/

/-- The value of a digit in a base of sixteen at most. -/
def digitValue? (base : Nat) (c : Char) : Option Nat :=
  let value :=
    if '0' ≤ c && c ≤ '9' then some (c.toNat - '0'.toNat)
    else if 'a' ≤ c && c ≤ 'f' then some (c.toNat - 'a'.toNat + 10)
    else if 'A' ≤ c && c ≤ 'F' then some (c.toNat - 'A'.toNat + 10)
    else none
  value.filter (· < base)

/-- Whether a character is a digit in a base. -/
def isDigitOf (base : Nat) (c : Char) : Bool := (digitValue? base c).isSome

/-- The number that digits spell. -/
def valueOf (base : Nat) (digits : Text) : Nat :=
  digits.foldl (fun n c => n * base + (digitValue? base c).getD 0) 0

/-- Read exactly the given number of digits. -/
def readDigitsOf (base count : Nat) (s : Text) : Reading Nat :=
  let digits := s.take count
  if digits.length = count && digits.all (isDigitOf base) then
    some (valueOf base digits, s.drop count)
  else none

/-! ## Reading -/

/-- The character with a code, unless the code is a surrogate or too great. -/
def charOfCode? (n : Nat) : Option Char := if n.isValidChar then some (Char.ofNat n) else none

/-- Read the code of a character in so many hexadecimal digits. -/
def readCode (count : Nat) (s : Text) : Reading Char :=
  (readDigitsOf 16 count s).bind fun (n, rest) => (charOfCode? n).map fun c => (c, rest)

/-- Read what follows the backslash of an escape. -/
def readEscape : Text → Reading Char
  | 'b' :: rest => some ('\x08', rest)
  | 't' :: rest => some ('\t', rest)
  | 'n' :: rest => some ('\n', rest)
  | 'f' :: rest => some ('\x0c', rest)
  | 'r' :: rest => some ('\r', rest)
  | '"' :: rest => some ('"', rest)
  | '\\' :: rest => some ('\\', rest)
  | 'u' :: rest => readCode 4 rest
  | 'U' :: rest => readCode 8 rest
  | _ => none

/-- A way to quote text. -/
structure QuoteStyle where
  /-- The quote, which also says whether a backslash escapes. -/
  mark : Char
  /-- Whether the quotes are tripled and may hold several lines. -/
  tripled : Bool
  deriving DecidableEq, Repr

/-- Whether a backslash escapes in a style. -/
def QuoteStyle.escapes (style : QuoteStyle) : Bool := style.mark == '"'

/-- What is before the next part of quoted text. -/
inductive QuotedPart where
  | more (content : Text)
  /-- The last part, after which the quotes close. -/
  | last (content : Text)

/-- Whether a character may stand for itself between quotes or in a comment. -/
def isPlain (c : Char) : Bool := c == '\t' || (' ' ≤ c && c != '\x7f')

/-- Whether a character is a space or a tab. -/
def isSpace (c : Char) : Bool := c == ' ' || c == '\t'

/-- What follows a line end, where one comes first. -/
def lineEnd? : Text → Option Text
  | '\n' :: rest => some rest
  | '\r' :: '\n' :: rest => some rest
  | _ => none

/-- Leave out spaces and line ends. -/
def skipBlank : Text → Text
  | [] => []
  | c :: rest =>
    if isSpace c || c == '\n' || (c == '\r' && rest.head? == some '\n') then skipBlank rest
    else c :: rest

/-- What follows a backslash at the end of a line, which joins the next text to it. -/
def joinedLine? (s : Text) : Option Text :=
  (lineEnd? (s.dropWhile isSpace)).map skipBlank

/-- Read a run of quotes.  Three of them close tripled quotes, and up to two more before these
belong to the text. -/
def readMarks (style : QuoteStyle) (s : Text) : QuotedPart × Text :=
  let run := (s.takeWhile (· == style.mark)).length
  if !style.tripled then (.last [], s.drop 1)
  else if run < 3 then (.more (s.take run), s.drop run)
  else
    let inside := min (run - 3) 2
    (.last (s.take inside), s.drop (3 + inside))

/-- Read one part of quoted text. -/
def readPart (style : QuoteStyle) : Text → Reading QuotedPart
  | [] => none
  | c :: rest =>
    if c == style.mark then some (readMarks style (c :: rest))
    else if c == '\\' && style.escapes then
      match if style.tripled then joinedLine? rest else none with
      | some after => some (.more [], after)
      | none => (readEscape rest).map fun (d, after) => (.more [d], after)
    else if isPlain c then some (.more [c], rest)
    else if style.tripled then (lineEnd? (c :: rest)).map fun after => (.more ['\n'], after)
    else none

/-- Read quoted text after its opening quotes, part by part. -/
def readParts (style : QuoteStyle) : Nat → Text → Reading Text
  | 0, _ => none
  | fuel + 1, s =>
    (readPart style s).bind fun (part, rest) =>
      match part with
      | .last content => some (content, rest)
      | .more content =>
        (readParts style fuel rest).map fun (more, rest) => (content ++ more, rest)

/-- Read quoted text on one line after its opening quote.  Every part takes a character of the
line. -/
def readLineText (mark : Char) (s : Text) : Reading Text :=
  readParts ⟨mark, false⟩ ((s.takeWhile (· != '\n')).length + 1) s

/-- Read quoted text.  A line end right after tripled quotes does not belong to it. -/
def readQuoted : Text → Reading Text
  | [] => none
  | mark :: rest =>
    if mark == '"' || mark == '\'' then
      match Text.stripPrefix? [mark, mark] rest with
      | some body => readParts ⟨mark, true⟩ (rest.length + 1) ((lineEnd? body).getD body)
      | none => readLineText mark rest
    else none

/-! ## Writing -/

/-- Whether a character has to be escaped wherever it stands. -/
def isControl (c : Char) : Bool := c < ' ' || c == '\x7f'

/-- A number below sixteen as a capital digit. -/
def hexDigit (n : Nat) : Char := (Nat.digitChar n).toUpper

/-- A character between double quotes other than such a quote, where a line feed may stand for
itself. -/
def escapeChar (keepLines : Bool) (c : Char) : Text :=
  match c with
  | '\x08' => ['\\', 'b']
  | '\t' => ['\\', 't']
  | '\n' => if keepLines then ['\n'] else ['\\', 'n']
  | '\x0c' => ['\\', 'f']
  | '\r' => ['\\', 'r']
  | '\\' => ['\\', '\\']
  | _ =>
    if isControl c then "\\u00".toList ++ [hexDigit (c.toNat / 16), hexDigit (c.toNat % 16)]
    else [c]

/-- The longest run of a character in a text that goes on a run of the given length. -/
def longestRunAfter (c : Char) (run : Nat) : Text → Nat
  | [] => run
  | d :: rest =>
    if d == c then longestRunAfter c (run + 1) rest else max run (longestRunAfter c 0 rest)

/-- The longest run of a character in a text. -/
def longestRun (c : Char) (s : Text) : Nat := longestRunAfter c 0 s

namespace QuoteStyle

/-- How many quotes in a row may stand for themselves. -/
def room (style : QuoteStyle) : Nat := if style.tripled then 2 else 0

/-- The quotes on either side. -/
def marks (style : QuoteStyle) : Text := List.replicate (if style.tripled then 3 else 1) style.mark

/-- Whether a style holds a text without a backslash, tabs left aside. -/
def suits (style : QuoteStyle) (s : Text) : Bool :=
  s.all (fun c => c == '\t' || c == '\n' || !isControl c)
    && (style.tripled || !s.contains '\n')
    && (!style.escapes || !s.contains '\\')
    && longestRun style.mark s ≤ style.room

/-- The styles, the most usual one first. -/
def all : List QuoteStyle := [⟨'"', false⟩, ⟨'\'', false⟩, ⟨'"', true⟩, ⟨'\'', true⟩]

/-- The style in which a text is written: the first that suits it, else one with escapes. -/
def of (s : Text) : QuoteStyle :=
  (all.find? fun style => style.suits s).getD ⟨'"', s.contains '\n'⟩

/-- A text between double quotes after so many of them in a row.  One more than there is room for
is escaped. -/
def escapeAfter (style : QuoteStyle) (run : Nat) : Text → Text
  | [] => []
  | '"' :: rest =>
    if run < style.room then '"' :: style.escapeAfter (run + 1) rest
    else '\\' :: '"' :: style.escapeAfter 0 rest
  | c :: rest => escapeChar style.tripled c ++ style.escapeAfter 0 rest

/-- A text in a style.  Several lines begin on a line of their own. -/
def write (style : QuoteStyle) (s : Text) : Text :=
  let body := if style.escapes then style.escapeAfter 0 s else s
  style.marks ++ (if style.tripled && s.contains '\n' then ['\n'] else []) ++ body ++ style.marks

end QuoteStyle

/-- A text as TOML. -/
def quoteText (s : Text) : Text := (QuoteStyle.of s).write s

end PartialDocs.Toml
