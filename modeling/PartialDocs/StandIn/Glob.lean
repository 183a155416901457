import PartialDocs.Text.Basic

/-!
# Globs

A part of the stand-in for the library for ignore files.  A glob is a pattern for paths.
Question marks, stars, classes and two stars between slashes have their usual meaning, braces
hold alternatives, and a backslash takes the meaning away from the character after it.  A star
never crosses a slash.  Patterns are matched against the bytes of a path, so a question mark
stands for one byte.

`Glob.ofText?` reads a pattern and refuses one that is malformed; `Glob.accepts` says
whether a pattern speaks of a path.
-/

set_option autoImplicit false

namespace PartialDocs

/-- The UTF-8 form of a text. -/
abbrev Bytes := List UInt8

/-- The bytes of the UTF-8 form. -/
def Text.toBytes (s : Text) : Bytes := s.flatMap String.utf8EncodeChar

/-- One piece of a pattern. -/
inductive GlobToken where
  | literal (c : Char)
  /-- One byte other than a slash. -/
  | any
  /-- Bytes other than a slash. -/
  | star
  /-- Two stars at the beginning: nothing, or directories. -/
  | leadingStars
  /-- Two stars at the end: a slash and anything. -/
  | trailingStars
  /-- Two stars between slashes: a slash, or a slash, anything and a slash. -/
  | innerStars
  /-- One byte in, or when negated outside, ranges of characters. -/
  | charClass (negated : Bool) (ranges : List (Char × Char))
  | alternatives (branches : List (List GlobToken))

/-- A pattern for paths. -/
abbrev Glob := List GlobToken

namespace Glob

/-! ## Reading a pattern -/

/-- The state of reading a pattern.  Branches are latest first, and so are the tokens of each; the
groups that are open are given by the number of branches below them. -/
structure Reader where
  branches : List Glob := [[]]
  groups : List Nat := []
  /-- Whether a bracket without its end was met, after which brackets stand for themselves. -/
  plainBrackets : Bool := false
  /-- The last character read. -/
  previous : Option Char := none

namespace Reader

/-- Go on after a character. -/
def after (r : Reader) (c : Char) : Reader := { r with previous := some c }

/-- Whether the branch at hand has no token yet. -/
def atBranchStart (r : Reader) : Bool := (r.branches.head?.map List.isEmpty).getD true

/-- Add a token to the branch at hand. -/
def push (r : Reader) (t : GlobToken) : Reader :=
  match r.branches with
  | [] => r
  | b :: bs => { r with branches := (t :: b) :: bs }

/-- Open a group with its first branch. -/
def openGroup (r : Reader) : Reader :=
  { r with branches := [] :: r.branches, groups := r.branches.length :: r.groups }

/-- Close a group, which becomes one token of the branch around it. -/
def closeGroup? (r : Reader) : Option Reader :=
  match r.groups with
  | [] => none
  | below :: groups =>
    let count := r.branches.length - below
    let group := (r.branches.take count).reverse.map List.reverse
    some ({ r with branches := r.branches.drop count, groups := groups }.push (.alternatives group))

/-- A comma: the next branch of a group, or itself outside of any. -/
def comma (r : Reader) : Reader :=
  if r.groups.isEmpty then r.push (.literal ',') else { r with branches := [] :: r.branches }

/-- Two stars that mean no more than one. -/
def twoStars (r : Reader) : Reader := (r.push .star).push .star

/-- Put two stars in the place of the token before them, unless that is two stars at an end. -/
def replaceLast (r : Reader) (t : GlobToken) : Reader :=
  match r.branches with
  | (.leadingStars :: _) :: _ => r
  | (.trailingStars :: _) :: _ => r
  | (_ :: b) :: bs => { r with branches := (t :: b) :: bs }
  | _ => r

/-- The finished pattern, unless a group is still open. -/
def finish? (r : Reader) : Option Glob :=
  match r.branches with
  | [b] => some b.reverse
  | _ => none

end Reader

/-- What the text after an opening bracket and its negation is. -/
inductive ClassReading where
  /-- No bracket closes the class. -/
  | unclosed
  /-- A range ends before it begins. -/
  | invalid
  | closed (ranges : List (Char × Char)) (rest : Text)

/-- Read a class, given whether nothing of it was read, whether a hyphen asks for the end of a
range, and the ranges so far, latest first. -/
def readClass (first inRange : Bool) (ranges : List (Char × Char)) : Text → ClassReading
  | [] => .unclosed
  | c :: rest =>
    if c == ']' && !first then
      .closed (if inRange then ('-', '-') :: ranges else ranges).reverse rest
    else if c == '-' && !first && !inRange then readClass false true ranges rest
    else
      match inRange, ranges with
      | true, (low, _) :: ranges =>
        if c < low then .invalid else readClass false false ((low, c) :: ranges) rest
      | _, _ => readClass false false ((c, c) :: ranges) rest

/-- The negation at the beginning of a class and what follows. -/
def splitNegation : Text → Bool × Text
  | '!' :: rest => (true, rest)
  | '^' :: rest => (true, rest)
  | rest => (false, rest)

/-- Read a class after its bracket.  A bracket that is never closed stands for itself, and so do all
brackets after it. -/
def readBracket? (r : Reader) (rest : Text) : Option (Reader × Text) :=
  let (negated, body) := splitNegation rest
  match readClass true false [] body with
  | .unclosed => some ({ r.push (.literal '[') with plainBrackets := true }.after '[', rest)
  | .invalid => none
  | .closed ranges rest => some ((r.push (.charClass negated ranges)).after ']', rest)

/-- Read what two stars mean between the character before them and the text after them.  They cross
slashes only where slashes, ends of the pattern or ends of a branch stand on both sides. -/
def readStars (r : Reader) (rest : Text) : Reader × Text :=
  let inGroup := decide (2 ≤ r.branches.length)
  if r.atBranchStart then
    match rest with
    | [] => (r.push .leadingStars, [])
    | '/' :: rest => ((r.push .leadingStars).after '/', rest)
    | _ => (r.twoStars.after '*', rest)
  else if r.previous == some '/'
      || (inGroup && (r.previous == some ',' || r.previous == some '\x7b')) then
    match rest with
    | [] => (r.replaceLast .trailingStars, [])
    | '/' :: rest => ((r.replaceLast .innerStars).after '/', rest)
    | c :: _ =>
      if inGroup && (c == ',' || c == '\x7d') then
        ((r.replaceLast .trailingStars).after '*', rest)
      else (r.twoStars.after '*', rest)
  else (r.twoStars.after '*', rest)

/-- Read one piece of a pattern: its first character and the text after that. -/
def readPiece? (r : Reader) (c : Char) (rest : Text) : Option (Reader × Text) :=
  if c == '*' then
    match rest with
    | '*' :: rest => some (readStars r rest)
    | _ => some ((r.push .star).after c, rest)
  else if c == '[' && !r.plainBrackets then readBracket? r rest
  else if c == '\\' then
    match rest with
    | [] => none
    | d :: rest => some ((r.push (.literal d)).after d, rest)
  else
    let read :=
      if c == '?' then some (r.push .any)
      else if c == '\x7b' then some r.openGroup
      else if c == '\x7d' then r.closeGroup?
      else if c == ',' then some r.comma
      else some (r.push (.literal c))
    read.map fun r => (r.after c, rest)

/-- Read a pattern from some point on, piece by piece. -/
def readAll? : Nat → Reader → Text → Option Reader
  | _, r, [] => some r
  | 0, _, _ :: _ => none
  | fuel + 1, r, c :: rest => (readPiece? r c rest).bind fun (r, rest) => readAll? fuel r rest

/-- The pattern that a text spells.  Every piece takes a character, so there are no more pieces than
characters. -/
def ofText? (s : Text) : Option Glob := (readAll? s.length {} s).bind Reader.finish?

/-! ## Matching a path

The places in a path are its beginning and the ends of its bytes.  A set of places is the list of
their marks, one more than there are bytes.  Each token takes the places that the tokens before it
reach to the places that it reaches from there, in one pass over the path. -/

/-- The byte of a slash. -/
def slash : UInt8 := 47

/-- A set of places in a path, as the mark of each. -/
abbrev Places := List Bool

/-- The places in either of two sets. -/
def either (a b : Places) : Places := List.zipWith (· || ·) a b

/-- The beginning of a path. -/
def beginning (path : Bytes) : Places := true :: path.map fun _ => false

/-- The places one byte further, over bytes of a kind. -/
def step (kind : UInt8 → Bool) (path : Bytes) (places : Places) : Places :=
  false :: List.zipWith (fun mark b => mark && kind b) places path

/-- The places any number of bytes of a kind further, none included.  The flag says whether such a
way leads to the first place from before. -/
def spread (kind : UInt8 → Bool) (reached : Bool) : Bytes → Places → Places
  | _, [] => []
  | [], mark :: _ => [mark || reached]
  | b :: path, mark :: places =>
    (mark || reached) :: spread kind ((mark || reached) && kind b) path places

/-- The places any number of bytes further. -/
def anything (path : Bytes) (places : Places) : Places := spread (fun _ => true) false path places

/-- The places after a slash. -/
def afterSlash (path : Bytes) (places : Places) : Places := step (· == slash) path places

/-- Whether a byte belongs to a range of characters.  A range lies between the last byte of its
first and the first byte of its last character, and the other bytes of both belong to it. -/
def inRange (b : UInt8) (range : Char × Char) : Bool :=
  let low := Text.toBytes [range.1]
  let high := Text.toBytes [range.2]
  if range.1 == range.2 then low.contains b
  else
    low.dropLast.contains b || high.tail.contains b
      || match low.getLast?, high.head? with
        | some l, some h => l ≤ b && b ≤ h
        | _, _ => false

mutual

/-- Whether a token spells nothing at all. -/
def isVoidToken : GlobToken → Bool
  | .alternatives branches => areVoid branches
  | _ => false

/-- Whether a pattern spells nothing at all. -/
def isVoid : List GlobToken → Bool
  | [] => true
  | t :: ts => isVoidToken t && isVoid ts

/-- Whether none of several patterns spells anything. -/
def areVoid : List (List GlobToken) → Bool
  | [] => true
  | b :: bs => isVoid b && areVoid bs

end

mutual

/-- The places that a token reaches. -/
def reachToken (path : Bytes) : GlobToken → Places → Places
  | .literal c, places =>
    (Text.toBytes [c]).foldl (fun reached b => step (· == b) path reached) places
  | .any, places => step (· != slash) path places
  | .star, places => spread (· != slash) false path places
  | .leadingStars, places => either places (afterSlash path (anything path places))
  | .trailingStars, places => anything path (afterSlash path places)
  | .innerStars, places =>
    let after := afterSlash path places
    either after (afterSlash path (anything path after))
  | .charClass negated ranges, places =>
    step (fun b => ranges.any (inRange b) != negated) path places
  | .alternatives branches, places =>
    if areVoid branches then places else reachBranches path branches places

/-- The places that a pattern reaches.  From no place it reaches none. -/
def reach (path : Bytes) : List GlobToken → Places → Places
  | [], places => places
  | t :: ts, places =>
    if places.contains true then reach path ts (reachToken path t places) else places

/-- The places that one of several patterns reaches, void ones left aside. -/
def reachBranches (path : Bytes) : List (List GlobToken) → Places → Places
  | [], places => places.map fun _ => false
  | b :: bs, places =>
    let others := reachBranches path bs places
    if isVoid b then others else either (reach path b places) others

end

/-- Whether a pattern spells a whole path.  Two stars alone spell every path. -/
def spells (g : Glob) (path : Bytes) : Bool :=
  match g with
  | [.leadingStars] => true
  | _ => (reach path g (beginning path)).getLast? == some true

/-! ## Paths without a name -/

/-- The character that a token stands for. -/
def literal? : GlobToken → Option Char
  | .literal c => some c
  | _ => none

/-- Whether a pattern spells a single text from its beginning or below any directory. -/
def isLiteralPath (g : Glob) : Bool :=
  match g with
  | .leadingStars :: ts => ts.all (fun t => (literal? t).isSome) && ts.any (literal? · == some '/')
  | ts => ts.all fun t => (literal? t).isSome

/-- The characters at the end of a pattern after its last slash, latest first. -/
def endingReversed (g : Glob) : Text :=
  ((g.reverse.map literal?).takeWhile fun c => c.isSome && c != some '/').reduceOption

/-- Whether a pattern asks for a name or for the extension of one: the characters at its end hold a
dot.  One that spells out a path does not. -/
def asksForName (g : Glob) : Bool := !isLiteralPath g && (endingReversed g).contains '.'

/-- Whether a path has no name at its end but the step to the directory around it. -/
def lacksName (path : Text) : Bool := path.reverse.takeWhile (· != '/') == "..".toList

/-- Whether a pattern speaks of a path.  One that asks for a name speaks of no path without one. -/
def accepts (g : Glob) (path : Text) : Bool :=
  !(lacksName path && asksForName g) && spells g path.toBytes

end Glob

end PartialDocs
