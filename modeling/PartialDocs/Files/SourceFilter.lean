import PartialDocs.Files.IgnoreLibrary

/-!
# Which files are sources

A filter leaves out files by name, by being hidden and by the ignore files of its root.
`shouldInclude` asks it about a path; `discover` gathers the files below its root.  The
walk that comes by those files heeds ignore files of its own accord, and the filter is
asked only about what the walk has left.
-/

set_option autoImplicit false

namespace PartialDocs

/-- The names of directories that hold build output and tools. -/
def defaultIgnoredPaths : List Text :=
  ["bin".toList, "obj".toList, "packages".toList, ".vs".toList, ".git".toList, ".csdoc".toList]

/-- A rule for what counts as a source below a root. -/
structure SourceFilter where
  /-- The directory whose ignore files count, as a path. -/
  root : Text
  /-- Whether gitignore files count. -/
  useGitignore : Bool := true
  /-- Whether the ignore file of the settings directory counts. -/
  useOwnIgnore : Bool := true
  /-- Names that are left out at any depth. -/
  ignoredPaths : List Text := defaultIgnoredPaths
  includeHidden : Bool := false

namespace SourceFilter

/-- Whether a name begins with a dot. -/
def isHidden (name : Text) : Bool := name.head? == some '.'

/-- Whether a name leaves a path out wherever it stands in it. -/
def refusesName (filter : SourceFilter) (name : Text) : Bool :=
  filter.ignoredPaths.contains name || (!filter.includeHidden && isHidden name)

/-- The names among the steps of a path. -/
def namesOf (path : Text) : List Text :=
  (Path.steps path).filterMap fun s =>
    match s with
    | .name n => some n
    | _ => none

/-- Whether a path has one of the extensions.  No extensions stand for all. -/
def hasExtension (extensions : List Text) (path : Text) : Bool :=
  extensions.isEmpty || (Path.extension? path).any extensions.contains

/-- What the filter asks of a walk.  The files of git count in a repository and outside of any. -/
def walkOptions (filter : SourceFilter) : WalkOptions where
  skipHidden := !filter.includeHidden
  requireRepository := false
  gitIgnore := filter.useGitignore
  gitGlobal := filter.useGitignore
  gitExclude := filter.useGitignore

variable [IgnoreLibrary]

open IgnoreLibrary (Rules rules? verdictOrParent? walk)

/-- The rules of the ignore file that names lead to from a root, where something is there. -/
def rulesAt (d : Disk) (root : Text) (names : List Text) : Option Rules :=
  (d.resolve? (Path.join root (Path.ofNames names))).bind fun place => rules? root (d.bytes? place)

/-- The rules of the settings directory. -/
def ownRules (filter : SourceFilter) (d : Disk) : Option Rules :=
  if filter.useOwnIgnore then rulesAt d filter.root [".csdoc".toList, "ignore".toList] else none

/-- The rules of the gitignore file of the root. -/
def gitRules (filter : SourceFilter) (d : Disk) : Option Rules :=
  if filter.useGitignore then rulesAt d filter.root [".gitignore".toList] else none

/-- The rules of the root, those of the settings directory first. -/
def rootRules (filter : SourceFilter) (d : Disk) : List Rules :=
  [filter.ownRules d, filter.gitRules d].reduceOption

/-- Whether a path is left out under the rules of the root, of which the first that speak of it
decide. -/
def isIgnoredUnder (filter : SourceFilter) (rules : List Rules) (d : Disk) (path : Text) : Bool :=
  let relative := Path.relativeTo filter.root path
  (namesOf relative).any filter.refusesName
    || (rules.findSome? fun r => verdictOrParent? r relative (d.pathIsDirectory path))
        == some .ignored

/-- Whether a path is left out. -/
def isIgnored (filter : SourceFilter) (d : Disk) (path : Text) : Bool :=
  filter.isIgnoredUnder (filter.rootRules d) d path

/-- Whether a path is not left out. -/
def shouldInclude (filter : SourceFilter) (d : Disk) (path : Text) : Bool :=
  !filter.isIgnored d path

/-- Whether each of some paths is not left out.  The ignore files are read once. -/
def shouldIncludeEach (filter : SourceFilter) (d : Disk) (paths : List Text) : List Bool :=
  let rules := filter.rootRules d
  paths.map fun path => !filter.isIgnoredUnder rules d path

/-- The sources below the root in order. -/
def discover (filter : SourceFilter) (d : Disk) (extensions : List Text) : List Text :=
  let rules := filter.rootRules d
  let found := walk d filter.walkOptions filter.root
  (found.filter fun path =>
    d.pathIsFile path && hasExtension extensions path
      && !filter.isIgnoredUnder rules d path).mergeSort Path.le

end SourceFilter

end PartialDocs
