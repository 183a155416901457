import PartialDocs.Command.Run
import PartialDocs.Syntax.Reader

/-!
# The program

Takes the files that a run may need from the file system, runs the command line on them,
and writes back what the run has written.
-/

set_option autoImplicit false

namespace PartialDocs

/-- The place of an absolute path. -/
def placeOf (path : String) : Place :=
  (Path.parts path.toList).filter fun part => !Path.isVoid part

/-- The path of a place. -/
def pathOf (place : Place) : String := String.ofList ('/' :: Path.ofNames place)

/-- Take a file. -/
def takeFile (d : Disk) (path : String) : IO Disk := do
  return d.put (placeOf path) (← IO.FS.readBinFile path)

/-- Take a file, or everything below a directory.  Links are passed over. -/
partial def takeAll (d : Disk) (path : String) : IO Disk := do
  let base ← IO.currentDir
  let here := base / path
  match (← here.symlinkMetadata).type with
  | .file => takeFile d here.toString
  | .dir =>
    let mut d := { d with directories := d.directories ++ [placeOf here.toString] }
    for entry in ← here.readDir do
      d ← takeAll d entry.path.toString
    return d
  | _ => return d

/-- Take what is at a path, where anything is there. -/
def takeAny (d : Disk) (path : String) : IO Disk := do
  let base ← IO.currentDir
  if ← (base / path).pathExists then takeAll d path else return d

/-- The ignore files that count in a directory and in those around it. -/
def ignoreFilesAbove (place : Place) : List String :=
  ((List.range (place.length + 1)).map fun n => pathOf (place.take n)).flatMap fun path =>
    ["/.ignore", "/.gitignore", "/.git/info/exclude"].map (path ++ ·)

/-- The files that a run at a place of work may need. -/
def gather (w : Workplace) (arguments : List String) : IO Disk := do
  let root := String.ofList w.root
  let outside := arguments.filter fun a => !a.startsWith "-"
  let settings := String.ofList (w.absolute (w.settingsPath .everywhere))
  (root :: settings :: ignoreFilesAbove (placeOf root) ++ outside).foldlM takeAny .empty

/-- Write the files that a run has written. -/
def writeBack (old new : Disk) : IO Unit := do
  for (place, bytes) in new.files do
    if old.bytes? place != some bytes then
      IO.FS.createDirAll (pathOf place.dropLast)
      IO.FS.writeBinFile (pathOf place) bytes

/-- Where the program runs. -/
def currentWorkplace : IO Workplace := do
  let setting := fun name => do return (← IO.getEnv name).map String.toList
  return {
    root := (← IO.currentDir).toString.toList
    home := ← setting "HOME"
    settingsHome := ← setting "XDG_CONFIG_HOME"
    overrides := {
      format := ← setting "CSDOC_OUTPUT_FORMAT"
      unimplemented := ← setting "CSDOC_UNIMPLEMENTED_PARTIAL_METHODS"
      maxFileSizeMb := ← setting "CSDOC_MAX_FILE_SIZE_MB" } }

/-- Run a command line on the files at hand, and answer with the exit code. -/
def runHere (arguments : List String) : IO UInt32 := do
  let w ← currentWorkplace
  let disk ← gather w arguments
  let (after, outcome) := w.run Tree.ofText disk (arguments.map String.toList)
  writeBack disk after
  IO.print (String.ofList outcome.output)
  IO.eprint (String.ofList outcome.complaint)
  return outcome.exitCode.toUInt32

end PartialDocs

/-- The program. -/
def main (arguments : List String) : IO UInt32 := PartialDocs.runHere arguments
