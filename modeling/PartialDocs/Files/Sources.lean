import PartialDocs.Files.Disk
import PartialDocs.Settings.Basic

/-!
# Gathering sources

The sources that paths name: a directory stands for the sources below it, a file for
itself.  Paths are sorted, and of paths with the same steps only the first is kept.
Files that are too large or no text are passed over.
-/

set_option autoImplicit false

namespace PartialDocs

/-- A source as it was read. -/
structure SourceText where
  path : Text
  text : Text
  deriving DecidableEq, Repr

namespace SourceText

variable [IgnoreLibrary]

/-- The sources that one path names. -/
def pathsAt (d : Disk) (s : SourceSettings) (path : Text) : Except SourceError (List Text) :=
  if d.pathIsDirectory path then .ok ((s.filter path).discover d s.extensions)
  else if d.pathIsFile path then .ok [path]
  else .error (.notFound path)

/-- Leave out every path that has the same steps as the one kept before it. -/
def dropRepeats : List Text → List Text
  | [] => []
  | path :: rest =>
    path :: match dropRepeats rest with
      | [] => []
      | next :: more => if Path.same path next then more else next :: more

/-- The paths where the search begins. -/
def startingPaths (root : Text) (paths : List Text) : List Text :=
  if paths.isEmpty then [root] else paths.map (Path.join root)

/-- The sources that paths name, in order. -/
def pathsOf (d : Disk) (root : Text) (s : SourceSettings) (paths : List Text) :
    Except SourceError (List Text) :=
  ((startingPaths root paths).mapM (pathsAt d s)).map fun found =>
    dropRepeats (found.flatten.mergeSort Path.le)

/-- Read a source, unless it is larger than the limit or no text. -/
def read? (d : Disk) (limit : Nat) (path : Text) : Option SourceText := do
  let place ← d.resolve? path
  let bytes ← d.bytes? place
  let text ← if bytes.size ≤ limit then d.text? place else none
  return ⟨path, text⟩

/-- The sources that paths name below a root, of which there must be one. -/
def load (d : Disk) (root : Text) (s : SourceSettings) (limit : Nat) (paths : List Text) :
    Except SourceError (List SourceText) :=
  (pathsOf d root s paths).bind fun found =>
    let sources := found.filterMap (read? d limit)
    if sources.isEmpty then .error (.empty root) else .ok sources

end SourceText

end PartialDocs
