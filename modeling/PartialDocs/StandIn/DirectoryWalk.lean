import PartialDocs.Files.SourceFilter
import PartialDocs.StandIn.IgnoreRules

/-!
# A walk over a directory

A stand-in for the library for ignore files.  The walk comes by the files below a directory.
Whether it enters a directory or comes by a file is up to the ignore files of every directory on
the way, those above the root among them: the innermost file that speaks of an entry decides, and
an entry that no file speaks of is passed over if it is hidden.
-/

set_option autoImplicit false

namespace PartialDocs

/-- The rules of the ignore files of one name, each with the directory that it is for. -/
abbrev RulesByDirectory := List (Place × IgnoreRules)

namespace DirectoryWalk

/-- The directories around a place, innermost first, each with the names from it to the place. -/
def levels (place : Place) : List (Place × List Text) :=
  ((List.range place.length).map fun n => (place.take n, place.drop n)).reverse

/-- The rules of all files that end in the given names. -/
def rulesNamed (d : Disk) (names : List Text) : RulesByDirectory :=
  d.files.filterMap fun (place, bytes) =>
    if names.isSuffixOf place then
      some (place.take (place.length - names.length), .ofBytes bytes.toList)
    else none

/-- The rules of the ignore file that is for every repository, for the paths below a directory. -/
def globalRules (d : Disk) (globalIgnore? : Option Text) (base : Place) : RulesByDirectory :=
  ((globalIgnore?.bind d.resolve?).bind d.bytes?).toList.map fun bytes =>
    (base, .ofBytes bytes.toList)

/-- The rules that count below a directory, in the order in which they are asked. -/
def rulesOnTheWay (d : Disk) (globalIgnore? : Option Text) (options : WalkOptions) (base : Place) :
    List RulesByDirectory :=
  rulesNamed d [".ignore".toList]
    :: ((if options.gitIgnore then [rulesNamed d [".gitignore".toList]] else [])
    ++ (if options.gitExclude then
        [rulesNamed d [".git".toList, "info".toList, "exclude".toList]]
      else [])
    ++ (if options.gitGlobal then [globalRules d globalIgnore? base] else []))

/-- What the files of one name say of a place, the innermost that speaks of it first. -/
def levelVerdict? (rules : RulesByDirectory) (place : Place) (isDirectory : Bool) :
    Option Verdict :=
  (levels place).findSome? fun (directory, below) =>
    (rules.lookup directory).bind fun r => r.verdict? (Path.ofNames below) isDirectory

/-- What the ignore files on the way say of a place. -/
def verdict? (rules : List RulesByDirectory) (place : Place) (isDirectory : Bool) :
    Option Verdict :=
  rules.findSome? fun r => levelVerdict? r place isDirectory

/-- Whether the walk passes over a place.  A hidden one is passed over unless a rule keeps it. -/
def passesOver (options : WalkOptions) (rules : List RulesByDirectory) (place : Place)
    (isDirectory : Bool) : Bool :=
  Verdict.passesOver (verdict? rules place isDirectory)
    (options.skipHidden && place.getLast?.any SourceFilter.isHidden)

/-- Whether the walk from a directory comes by a file below it. -/
def reaches (options : WalkOptions) (rules : List RulesByDirectory) (base : Place)
    (below : List Text) : Bool :=
  ((List.range below.length).all fun n =>
    !passesOver options rules (base ++ below.take (n + 1)) (n + 1 < below.length))

/-- The paths of the files that a walk comes by.  The directories that it enters are left out. -/
def walk (globalIgnore? : Option Text) (d : Disk) (options : WalkOptions) (root : Text) :
    List Text :=
  match d.resolve? root with
  | none => []
  | some base =>
    let rules := rulesOnTheWay d globalIgnore? options base
    ((d.filesBelow base).filter (reaches options rules base)).map fun names =>
      Path.join root (Path.ofNames names)

end DirectoryWalk

/-- Ignore files as a library, on a machine with the given ignore file for every repository. -/
@[reducible]
def IgnoreRules.library (globalIgnore? : Option Text) : IgnoreLibrary where
  Rules := IgnoreRules
  rules? _ contents := some ((contents.map fun bytes => .ofBytes bytes.toList).getD [])
  verdict? := IgnoreRules.verdict?
  verdictOrParent? := IgnoreRules.verdictOrParent?
  globalIgnore? := globalIgnore?
  walk := DirectoryWalk.walk globalIgnore?

/-- The program runs as on a machine without an ignore file for every repository. -/
instance : IgnoreLibrary := IgnoreRules.library none

end PartialDocs
