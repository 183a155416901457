import PartialDocs.Error
import PartialDocs.Files.Path

/-!
# A disk in memory

The files and directories that a run sees, each at a place: the names from the root
inward.  A directory is there when it was made or when something is below it.  Paths as
written are resolved step by step, and every step needs a directory to start from.
-/

set_option autoImplicit false

namespace PartialDocs

/-- The names from the root to a file or directory. -/
abbrev Place := List Text

/-- The files and the made directories. -/
structure Disk where
  files : List (Place × ByteArray)
  directories : List Place

namespace Disk

/-- The disk that holds nothing. -/
def empty : Disk := ⟨[], []⟩

/-- The bytes of the file at a place. -/
def bytes? (d : Disk) (place : Place) : Option ByteArray := d.files.lookup place

/-- Whether a file is at a place. -/
def isFile (d : Disk) (place : Place) : Bool := (d.bytes? place).isSome

/-- Whether a directory is at a place. -/
def isDirectory (d : Disk) (place : Place) : Bool :=
  place.isEmpty || d.directories.any place.isPrefixOf
    || d.files.any fun (p, _) => place.isPrefixOf p && place.length < p.length

/-- Whether anything is at a place. -/
def holds (d : Disk) (place : Place) : Bool := d.isFile place || d.isDirectory place

/-- The text of the file at a place, where its bytes are UTF-8. -/
def text? (d : Disk) (place : Place) : Option Text :=
  (d.bytes? place).bind fun bytes => (String.fromUTF8? bytes).map String.toList

/-- The refusal to start from a place where no directory is. -/
def requireDirectory (d : Disk) (place : Place) : Except FileError Unit :=
  if d.isDirectory place then .ok ()
  else .error (if d.isFile place then .notADirectory else .noSuchFile)

/-- Go one step on from a directory. -/
def step (d : Disk) (place : Place) (part : Text) : Except FileError Place :=
  (d.requireDirectory place).map fun _ =>
    if Path.isVoid part then place
    else if part == ['.', '.'] then place.dropLast
    else place ++ [part]

/-- The place that parts of a path lead to, whether or not the last step finds anything. -/
def walk (d : Disk) (parts : List Text) : Except FileError Place := parts.foldlM d.step []

/-- The place of what an absolute path leads to. -/
def resolve? (d : Disk) (path : Text) : Option Place :=
  (d.walk (Path.parts path)).toOption.filter d.holds

/-- Whether a path leads to anything. -/
def pathExists (d : Disk) (path : Text) : Bool := (d.resolve? path).isSome

/-- Whether a path leads to a file. -/
def pathIsFile (d : Disk) (path : Text) : Bool := (d.resolve? path).any d.isFile

/-- Whether a path leads to a directory. -/
def pathIsDirectory (d : Disk) (path : Text) : Bool := (d.resolve? path).any d.isDirectory

/-- Put a file at a place, instead of the one that is there. -/
def put (d : Disk) (place : Place) (bytes : ByteArray) : Disk :=
  if d.isFile place then
    { d with files := d.files.map fun (p, b) => if p == place then (p, bytes) else (p, b) }
  else { d with files := d.files ++ [(place, bytes)] }

/-- Read a file as text. -/
def readText (d : Disk) (path : Text) : Except FileError Text :=
  match d.resolve? path with
  | none => .error .noSuchFile
  | some place =>
    match d.bytes? place with
    | none => .error .isADirectory
    | some bytes =>
      match String.fromUTF8? bytes with
      | some s => .ok s.toList
      | none => .error .notText

/-- Make the directory at the end of a path whose other steps lead to directories. -/
def makeStep (d : Disk) (place : Place) (part : Text) (isLast : Bool) :
    Except FileError (Disk × Place) :=
  (d.step place part).bind fun next =>
    if d.isDirectory next then .ok (d, next)
    else if d.isFile next then .error (if isLast then .alreadyExists else .notADirectory)
    else .ok ({ d with directories := d.directories ++ [next] }, next)

/-- Make the directories of a path that are not there, from a place on. -/
def makeParts (d : Disk) (place : Place) : List Text → Except FileError Disk
  | [] => .ok d
  | part :: rest =>
    (d.makeStep place part rest.isEmpty).bind fun (d, next) => d.makeParts next rest

/-- Make the directories of an absolute path that are not there. -/
def makeDirectories (d : Disk) (path : Text) : Except FileError Disk :=
  d.makeParts [] (Path.trimParts (Path.parts path))

/-- Write a file at the end of an absolute path whose other steps lead to directories.  A path that
ends in a slash or in dots names no file. -/
def write (d : Disk) (path : Text) (bytes : ByteArray) : Except FileError Disk :=
  let parts := Path.parts path
  match (parts.reverse.dropWhile List.isEmpty) with
  | [] => .error .isADirectory
  | last :: before =>
    (d.walk before.reverse).bind fun parent =>
      (d.requireDirectory parent).bind fun _ =>
        if parts.getLast? == some [] || Path.isVoid last || last == ['.', '.']
            || d.isDirectory (parent ++ [last]) then
          .error .isADirectory
        else .ok (d.put (parent ++ [last]) bytes)

/-- The files below a directory, each by the names that lead to it from there. -/
def filesBelow (d : Disk) (place : Place) : List Place :=
  (d.files.filter fun (p, _) => place.isPrefixOf p && place.length < p.length).map
    fun (p, _) => p.drop place.length

end Disk

end PartialDocs
