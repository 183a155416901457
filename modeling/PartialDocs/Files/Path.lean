import PartialDocs.Text.Basic

/-!
# Paths as written

A path is a text of names between slashes.  Two paths are the same when their
components are: repeated and trailing slashes do not count, and a dot counts only at the
very beginning of a path that is not absolute.  What the functions here leave of a path
stays as it was written.
-/

set_option autoImplicit false

namespace PartialDocs

/-- One step of a path, in the order in which steps sort. -/
inductive PathStep where
  | root
  | here
  | up
  | name (n : Text)
  deriving DecidableEq, Repr

namespace PathStep

/-- The place of a kind of step in the order. -/
def rank : PathStep → Nat
  | root => 0
  | here => 1
  | up => 2
  | name _ => 3

/-- The name of a step. -/
def nameOf : PathStep → Text
  | name n => n
  | _ => []

/-- Whether a step sorts before another one or is the same. -/
def le (a b : PathStep) : Bool :=
  if a.rank = b.rank then Text.sortsBy a.nameOf b.nameOf else decide (a.rank ≤ b.rank)

end PathStep

namespace Path

/-- Whether a path starts at the root. -/
def isAbsolute : Text → Bool
  | '/' :: _ => true
  | _ => false

/-- The part of a path that says where it starts, which is a slash or a leading dot or nothing, and
the rest. -/
def splitStart : Text → Text × Text
  | '/' :: rest => (['/'], rest)
  | ['.'] => (['.'], [])
  | '.' :: '/' :: rest => (['.'], '/' :: rest)
  | s => ([], s)

/-- Whether the text between two slashes is no step. -/
def isVoid (part : Text) : Bool := part == [] || part == ['.']

/-- The step that the text between two slashes makes. -/
def stepOf (part : Text) : PathStep := if part == ['.', '.'] then .up else .name part

/-- The texts between slashes. -/
def parts (body : Text) : List Text := Text.splitOn '/' body

/-- The texts between slashes without the void ones at the end. -/
def trimParts (ps : List Text) : List Text := (ps.reverse.dropWhile isVoid).reverse

/-- A path of the given start and texts between slashes. -/
def ofParts (start : Text) (ps : List Text) : Text := start ++ Text.joinWith ['/'] ps

/-- The step that the start of a path makes. -/
def startStep : Text → List PathStep
  | '/' :: _ => [.root]
  | '.' :: _ => [.here]
  | _ => []

/-- The steps of a path. -/
def steps (s : Text) : List PathStep :=
  let (start, body) := splitStart s
  startStep start ++ ((parts body).filter fun p => !isVoid p).map stepOf

/-- Whether two paths have the same steps. -/
def same (s t : Text) : Bool := steps s == steps t

/-- Whether one list of steps sorts before another one or is the same. -/
def stepsLe : List PathStep → List PathStep → Bool
  | [], _ => true
  | _ :: _, [] => false
  | a :: as, b :: bs => if a = b then stepsLe as bs else a.le b

/-- Whether a path sorts before another one or is the same. -/
def le (s t : Text) : Bool := stepsLe (steps s) (steps t)

/-- A path seen from another one, which it replaces where it is absolute. -/
def join (base s : Text) : Text :=
  if isAbsolute s then s
  else
    match base.getLast? with
    | none | some '/' => base ++ s
    | some _ => base ++ '/' :: s

/-- The texts between slashes after the given number of steps. -/
def dropSteps : Nat → List Text → List Text
  | 0, ps => ps.dropWhile isVoid
  | n + 1, ps => dropSteps n ((ps.dropWhile isVoid).drop 1)

/-- What a path adds to one whose steps it begins with. -/
def stripPrefix? (root s : Text) : Option Text :=
  let (start, body) := splitStart s
  let taken := steps root
  if taken.isPrefixOf (steps s) then
    if taken.isEmpty then some (ofParts start (trimParts (parts body)))
    else
      let count := taken.length - (startStep start).length
      some (ofParts [] (trimParts (dropSteps count (parts body))))
  else none

/-- A path as seen from a root, or as it is where it is not below the root. -/
def relativeTo (root s : Text) : Text := (stripPrefix? root s).getD s

/-- The path without its last step. -/
def parent? (s : Text) : Option Text :=
  let (start, body) := splitStart s
  match (trimParts (parts body)).reverse with
  | _ :: before => some (ofParts start (trimParts before.reverse))
  | [] => if start == ['.'] then some [] else none

/-- The last step, where it is a name. -/
def fileName? (s : Text) : Option Text :=
  match (steps s).getLast? with
  | some (.name n) => some n
  | _ => none

/-- What follows the last dot of a name, unless the name begins with that dot or has none. -/
def extensionOf? (name : Text) : Option Text :=
  match (Text.splitOn '.' name).reverse with
  | _ :: [[]] | [_] | [] => none
  | last :: _ :: _ => some last

/-- The extension of the last step. -/
def extension? (s : Text) : Option Text := (fileName? s).bind extensionOf?

/-- Names below each other as a path. -/
def ofNames (names : List Text) : Text := Text.joinWith ['/'] names

end Path

end PartialDocs
