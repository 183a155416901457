import PartialDocs.Files.Disk

/-!
# A library for ignore files

The program does not read ignore files by itself.  A library turns the lines of an ignore
file into rules, says what the rules make of a path, and walks over a directory with an eye
to the ignore files on the way.  `IgnoreLibrary` is what the program asks of it; which
library it is, is left open.
-/

set_option autoImplicit false

namespace PartialDocs

/-- What rules say of a path that they mention. -/
inductive Verdict where
  | ignored
  | kept
  deriving DecidableEq, Repr

/-- Whether a walk passes over a path, given what rules say of it and whether it is hidden. -/
def Verdict.passesOver : Option Verdict → Bool → Bool
  | some .ignored, _ => true
  | some .kept, _ => false
  | none, hidden => hidden

/-- What a walk over a directory is asked to heed. -/
structure WalkOptions where
  /-- Whether hidden entries are passed over. -/
  skipHidden : Bool
  /-- Whether the files of git count inside a repository only. -/
  requireRepository : Bool
  /-- Whether gitignore files count. -/
  gitIgnore : Bool
  /-- Whether the ignore file counts that is for every repository of the machine. -/
  gitGlobal : Bool
  /-- Whether the excludes of a repository count. -/
  gitExclude : Bool
  deriving DecidableEq, Repr

/-- What a library for ignore files offers. -/
class IgnoreLibrary where
  /-- The rules of one ignore file. -/
  Rules : Type
  /-- The rules that an ignore file holds for paths seen from a root, unless they cannot be put
  together.  The bytes are missing where the file cannot be read. -/
  rules? (root : Text) (contents : Option ByteArray) : Option Rules
  /-- What rules say of a path, given whether a directory is there. -/
  verdict? (rules : Rules) (path : Text) (isDirectory : Bool) : Option Verdict
  /-- What rules say of a path or of the directories around it. -/
  verdictOrParent? (rules : Rules) (path : Text) (isDirectory : Bool) : Option Verdict
  /-- The path of the ignore file that is for every repository, where the machine has one. -/
  globalIgnore? : Option Text
  /-- The paths that a walk from a root comes by. -/
  walk (d : Disk) (options : WalkOptions) (root : Text) : List Text

end PartialDocs
