import PartialDocs.Command.Arguments
import PartialDocs.Command.Session
import PartialDocs.StandIn.DirectoryWalk
import PartialDocs.StandIn.SettingsLibrary

/-!
# Running a command line

`Workplace.run` takes a disk and a command line to the disk afterwards and what is
printed.  It is imported together with the stand-ins for the libraries, with which it runs.
-/

set_option autoImplicit false

namespace PartialDocs

/-- The commands in short. -/
def usage : Text :=
  Text.unlines ([
    "Usage: csdoc [--format FORMAT] [-v] COMMAND",
    "  symbols [-d | --documented] [PATH]...",
    "  xml DOC_ID [PATH]...",
    "  emit [-a | --assembly NAME] [-o | --output FILE] [PATH]...",
    "  config init [--global] [-f | --force]",
    "  config show [--global]",
    "  config path [--global]",
    ""].map String.toList)

/-- The name and the version of the program. -/
def versionLine : Text := "csdoc 1.0.0\n".toList

/-- Run a command line. -/
def Workplace.run [IgnoreLibrary] [TomlLibrary] (w : Workplace) (grammar : Text → Tree)
    (d : Disk) (arguments : List Text) : Disk × Outcome :=
  match readArguments arguments with
  | .refused => (d, { exitCode := 2, complaint := usage })
  | .help => (d, .printed usage)
  | .version => (d, .printed versionLine)
  | .run invocation => (w.session grammar d invocation.format).perform d invocation.command

end PartialDocs
