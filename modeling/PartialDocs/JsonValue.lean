import PartialDocs.Text.Basic

/-!
# JSON

The values that results are made of, and how they are written: two spaces a level, one
item a line, and the fields of an object in the order of their keys.
-/

set_option autoImplicit false

namespace PartialDocs

/-- A JSON value. -/
inductive JsonValue where
  | null
  | boolean (b : Bool)
  | number (n : Nat)
  | text (s : Text)
  | array (items : List JsonValue)
  | object (fields : List (Text × JsonValue))

namespace JsonValue

/-- An object of named fields. -/
def record (fields : List (String × JsonValue)) : JsonValue :=
  .object (fields.map fun (key, v) => (key.toList, v))

/-- A text or nothing. -/
def ofText? (s : Option Text) : JsonValue := (s.map text).getD null

/-- A list of texts. -/
def ofTexts (items : List Text) : JsonValue := .array (items.map text)

/-! ## Writing -/

/-- A character between quotes. -/
def escapeChar (c : Char) : Text :=
  match c with
  | '"' => ['\\', '"']
  | '\\' => ['\\', '\\']
  | '\x08' => ['\\', 'b']
  | '\t' => ['\\', 't']
  | '\n' => ['\\', 'n']
  | '\x0c' => ['\\', 'f']
  | '\r' => ['\\', 'r']
  | _ =>
    if c < ' ' then
      "\\u00".toList ++ [Nat.digitChar (c.toNat / 16), Nat.digitChar (c.toNat % 16)]
    else [c]

/-- A text between quotes. -/
def quote (s : Text) : Text := '"' :: s.flatMap escapeChar ++ ['"']

/-- The spaces before a line. -/
def margin (level : Nat) : Text := List.replicate (2 * level) ' '

/-- Parts between brackets, one a line.  Without parts the brackets stand on one line. -/
def enclose (opening closing : Char) (level : Nat) (parts : List Text) : Text :=
  if parts.isEmpty then [opening, closing]
  else
    opening :: '\n' :: Text.joinWith [',', '\n'] (parts.map fun part => margin (level + 1) ++ part)
      ++ '\n' :: margin level ++ [closing]

/-- Whether the key of a field sorts before another one or is the same. -/
def keyLe (a b : Text × Text) : Bool := Text.sortsBy a.1 b.1

/-- A field as written. -/
def field (f : Text × Text) : Text := quote f.1 ++ [':', ' '] ++ f.2

mutual

/-- A value as written at some level of nesting. -/
def renderAt (level : Nat) : JsonValue → Text
  | null => "null".toList
  | boolean b => if b then "true".toList else "false".toList
  | number n => Text.ofNat n
  | text s => quote s
  | array items => enclose '[' ']' level (renderItems (level + 1) items)
  | object fields =>
    enclose '\x7b' '\x7d' level (((renderFields (level + 1) fields).mergeSort keyLe).map field)

/-- Items as written. -/
def renderItems (level : Nat) : List JsonValue → List Text
  | [] => []
  | item :: items => renderAt level item :: renderItems level items

/-- The values of fields as written, each with its key. -/
def renderFields (level : Nat) : List (Text × JsonValue) → List (Text × Text)
  | [] => []
  | (key, v) :: fields => (key, renderAt level v) :: renderFields level fields

end

/-- A value as written, on lines of its own. -/
def render (v : JsonValue) : Text := renderAt 0 v ++ ['\n']

end JsonValue

end PartialDocs
