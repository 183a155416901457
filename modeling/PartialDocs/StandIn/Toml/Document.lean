import PartialDocs.StandIn.Toml.Numeral

/-!
# Reading TOML documents

A part of the stand-in for the library for TOML.  `Toml.ofText?` reads a document line by
line: a line sets a key or opens a table.  Only arrays and text between tripled quotes go on
over several lines.  Values hold values up to a fixed depth.
-/

set_option autoImplicit false

namespace PartialDocs.Toml

/-! ## Between the values -/

/-- Leave out spaces. -/
def skipSpaces (s : Text) : Text := s.dropWhile isSpace

/-- Leave out a comment. -/
def skipComment : Text → Text
  | '#' :: rest => rest.dropWhile isPlain
  | s => s

/-- What follows the line at hand, where only a comment is left of it. -/
def afterLine? (s : Text) : Option Text :=
  match skipComment (skipSpaces s) with
  | [] => some []
  | rest => lineEnd? rest

/-- Leave out spaces, line ends and comments, given whether a comment has begun. -/
def skipVoid (inComment : Bool) : Text → Text
  | [] => []
  | c :: rest =>
    if inComment && isPlain c then skipVoid true rest
    else if isSpace c || c == '\n' || (c == '\r' && rest.head? == some '\n') then
      skipVoid false rest
    else if c == '#' then skipVoid true rest
    else c :: rest

/-! ## Keys -/

/-- Whether a character may stand in a key without quotes. -/
def isBareKeyChar (c : Char) : Bool := c.isAlphanum || c == '-' || c == '_'

/-- Read a key without dots. -/
def readKey : Text → Reading Text
  | '"' :: rest => readLineText '"' rest
  | '\'' :: rest => readLineText '\'' rest
  | s =>
    let key := s.takeWhile isBareKeyChar
    if key.isEmpty then none else some (key, s.dropWhile isBareKeyChar)

/-- Read the keys between dots, at most the given number of them. -/
def readKeys : Nat → Text → Reading (List Text)
  | 0, _ => none
  | limit + 1, s =>
    (readKey (skipSpaces s)).bind fun (key, rest) =>
      match skipSpaces rest with
      | '.' :: rest => (readKeys limit rest).map fun (keys, rest) => (key :: keys, rest)
      | rest => some ([key], rest)

/-- How deep values may lie in values, and how many keys dots may join. -/
def depthLimit : Nat := 79

/-- Read a dotted key as the keys before the last one and that one. -/
def readDottedKey (s : Text) : Reading (List Text × Text) :=
  (readKeys depthLimit s).bind fun (keys, rest) =>
    keys.getLast?.map fun key => ((keys.dropLast, key), rest)

/-! ## Values -/

/-- Read a value that holds no other values. -/
def readFlat (s : Text) : Reading Toml :=
  match s with
  | '"' :: _ => (readQuoted s).map fun (t, rest) => (.string t, rest)
  | '\'' :: _ => (readQuoted s).map fun (t, rest) => (.string t, rest)
  | 't' :: _ => (Text.stripPrefix? "true".toList s).map fun rest => (.boolean true, rest)
  | 'f' :: _ => (Text.stripPrefix? "false".toList s).map fun rest => (.boolean false, rest)
  | _ => readPlain s

/-- Read the items of an array up to its closing bracket. -/
def readItems (readItem : Text → Reading Toml) : Nat → Text → Reading (List Toml)
  | 0, _ => none
  | fuel + 1, s =>
    match skipVoid false s with
    | ']' :: rest => some ([], rest)
    | s =>
      (readItem s).bind fun (item, rest) =>
        match skipVoid false rest with
        | ',' :: rest =>
          (readItems readItem fuel rest).map fun (items, rest) => (item :: items, rest)
        | ']' :: rest => some ([item], rest)
        | _ => none

/-- A dotted key with its value. -/
abbrev Assignment := (List Text × Text) × Toml

/-- Read a key, an equals sign and a value. -/
def readAssignment (readItem : Text → Reading Toml) (s : Text) : Reading Assignment :=
  (readDottedKey s).bind fun (key, rest) =>
    (afterMark? '=' rest).bind fun rest =>
      (readItem (skipSpaces rest)).map fun (v, rest) => ((key, v), rest)

/-- Read the assignments of a table between braces, of which there is one at least. -/
def readAssignments (readItem : Text → Reading Toml) : Nat → Text → Reading (List Assignment)
  | 0, _ => none
  | fuel + 1, s =>
    (readAssignment readItem s).bind fun (a, rest) =>
      match skipSpaces rest with
      | ',' :: rest =>
        (readAssignments readItem fuel rest).map fun (more, rest) => (a :: more, rest)
      | '\x7d' :: rest => some ([a], rest)
      | _ => none

/-- The table that assignments between braces make. -/
def inlineTable? (assignments : List Assignment) : Option Toml :=
  (assignments.foldlM (fun entries a =>
    insert? (!a.1.1.isEmpty) a.1.2 a.2 a.1.1 .inlined entries) []).map (Toml.table .inlined)

/-- Read a table after its opening brace. -/
def readInlineTable (readItem : Text → Reading Toml) (s : Text) : Reading Toml :=
  match skipSpaces s with
  | '\x7d' :: rest => some (.table .inlined [], rest)
  | _ =>
    (readAssignments readItem (s.length + 1) s).bind fun (assignments, rest) =>
      (inlineTable? assignments).map fun v => (v, rest)

/-- Read a value that holds values down to the given depth. -/
def readValue : Nat → Text → Reading Toml
  | 0, s => readFlat s
  | depth + 1, s =>
    match s with
    | '[' :: rest =>
      (readItems (readValue depth) (rest.length + 1) rest).map fun (items, rest) =>
        (.array items, rest)
    | '\x7b' :: rest => readInlineTable (readValue depth) rest
    | _ => readFlat s

/-! ## Documents -/

/-- The keys that lead to the table at hand, and everything read so far. -/
abbrev Draft := List Text × Entries

/-- Read a header after its opening brackets and open its table. -/
def readHeader (closing : Text) (opened : List Text → Text → Entries → Option Entries)
    (draft : Draft) (s : Text) : Option (Draft × Text) := do
  let ((path, key), rest) ← readDottedKey s
  let rest ← (Text.stripPrefix? closing rest).bind afterLine?
  let root ← opened path key draft.2
  return ((path ++ [key], root), rest)

/-- Read a line that sets a key. -/
def readSetting (draft : Draft) (s : Text) : Option (Draft × Text) := do
  let (((path, key), v), rest) ← readAssignment (readValue depthLimit) s
  let rest ← afterLine? rest
  let root ← assign? draft.1 path key v draft.2
  return ((draft.1, root), rest)

/-- Read one line, or as many as its value takes. -/
def readLine (draft : Draft) (s : Text) : Reading Draft :=
  match skipSpaces s with
  | '[' :: '[' :: rest => readHeader "]]".toList openElement? draft rest
  | '[' :: rest => readHeader "]".toList openTable? draft rest
  | s =>
    match afterLine? s with
    | some rest => some (draft, rest)
    | none => readSetting draft s

/-- Read lines to the end of the text. -/
def readLines : Nat → Draft → Text → Option Draft
  | _, draft, [] => some draft
  | 0, _, _ :: _ => none
  | fuel + 1, draft, s => (readLine draft s).bind fun (draft, rest) => readLines fuel draft rest

/-- The table that a document spells.  A byte order mark may stand first.  Every line takes a
character. -/
def ofText? (s : Text) : Option Entries :=
  (readLines s.length ([], []) (Text.dropPrefix ['\ufeff'] s)).map Prod.snd

end PartialDocs.Toml
