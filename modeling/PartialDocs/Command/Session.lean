import PartialDocs.Command.Basic
import PartialDocs.Command.Report
import PartialDocs.Files.Sources
import PartialDocs.Settings.Store

/-!
# Carrying out a command

`Session.perform` takes a disk and a command to the disk afterwards and what is printed.  How a
source becomes a syntax tree is left to the caller, and so are the libraries for ignore files
and for TOML.  Settings that cannot be read count as the defaults, except for the command that
shows them.
-/

set_option autoImplicit false

namespace PartialDocs

/-- What a run leaves besides the disk: the exit code, what it prints and its complaints. -/
structure Outcome where
  exitCode : Nat := 0
  output : Text := []
  complaint : Text := []
  deriving DecidableEq, Repr

namespace Outcome

/-- The outcome of a run that prints. -/
def printed (output : Text) : Outcome := { output }

/-- The outcome of a run that failed, which is reported as JSON in any format. -/
def failed (message : Text) : Outcome := { exitCode := 2, output := Report.failure message }

/-- The outcome of a command about settings that failed, which is no failure of the run. -/
def complained (format : OutputFormat) (message : Text) : Outcome :=
  match format with
  | .json => .printed (Report.failure message)
  | .text => { complaint := "error: ".toList ++ message ++ ['\n'] }

end Outcome

/-- Everything that a command has at hand. -/
structure Session where
  workplace : Workplace
  settings : Settings
  format : OutputFormat
  /-- The syntax tree of a text. -/
  grammar : Text → Tree

variable [IgnoreLibrary] [TomlLibrary]

namespace Session

/-- The directory of the project. -/
def root (s : Session) : Text := s.workplace.root

/-- The policy for partial methods that no piece implements. -/
def policy (s : Session) : UnimplementedPolicy := s.settings.resolver.unimplemented

/-- The compilation of the sources that paths name. -/
def compile (s : Session) (d : Disk) (paths : List Text) : Except Text Compilation :=
  match SourceText.load d s.root s.settings.sources s.settings.sources.maxFileSize paths with
  | .error e => .error e.message
  | .ok sources => .ok (.ofFiles (sources.map fun t => ⟨t.path, t.text, s.grammar t.text⟩))

/-- Print what a computation comes to, or that it failed. -/
def print (report : Except Text Text) : Outcome :=
  match report with
  | .ok text => .printed text
  | .error message => .failed message

/-- List the symbols. -/
def listSymbols (s : Session) (d : Disk) (paths : List Text) (documentedOnly : Bool) : Outcome :=
  print do
    let c ← s.compile d paths
    let listed := SymbolEntry.list c s.policy s.root documentedOnly
    let entries ← listed.mapError ResolveError.message
    return Report.symbols entries s.format

/-- Print the documentation of a symbol. -/
def printElement (s : Session) (d : Disk) (docId : Text) (paths : List Text) : Outcome :=
  print do
    let c ← s.compile d paths
    match c.findByDocId? docId with
    | none => throw ("Symbol not found: ".toList ++ docId)
    | some id =>
      let xml ← (c.xml s.policy id).mapError ResolveError.message
      return Report.element docId xml s.format

/-- The name of the assembly: as given, else as set, else that of the root. -/
def assemblyName (s : Session) (given : Option Text) : Text :=
  (given.or (s.settings.output.assemblyName.or (Path.fileName? s.root))).getD "Assembly".toList

/-- The documentation file of the sources that paths name. -/
def docFile (s : Session) (d : Disk) (paths : List Text) (assembly : Option Text) :
    Except Text DocFile := do
  let c ← s.compile d paths
  (c.docFile s.policy (s.assemblyName assembly)).mapError ResolveError.message

/-- Print the documentation file, or write it to a path. -/
def emit (s : Session) (d : Disk) (paths : List Text) (assembly output : Option Text) :
    Disk × Outcome :=
  match s.docFile d paths assembly, output with
  | .error message, _ => (d, .failed message)
  | .ok f, none => (d, .printed (Report.docFile f s.format))
  | .ok f, some path =>
    match d.save (s.workplace.absolute path) f.xml with
    | (d, .error e) => (d, .failed e.message)
    | (d, .ok ()) => (d, .printed (Report.savedDocFile f s.root path s.format))

/-- The path of a file of settings as it is shown. -/
def shownPath (s : Session) (level : SettingsLevel) : Text :=
  let path := s.workplace.settingsPath level
  match level with
  | .everywhere => path
  | .project => Path.relativeTo s.root path

/-- Write a file with the default settings. -/
def initSettings (s : Session) (d : Disk) (level : SettingsLevel) (force : Bool) :
    Disk × Outcome :=
  match s.workplace.writeDefaults d level force with
  | (d, .error e) => (d, .complained s.format e.message)
  | (d, .ok _) =>
    (d, .printed (Report.success [("status", .text "created".toList),
      ("path", .text (s.shownPath level)), ("level", .text level.label)]))

/-- Show the settings. -/
def showSettings (s : Session) (d : Disk) (globalOnly : Bool) : Outcome :=
  let level := if globalOnly then "global".toList else "merged".toList
  match if globalOnly then s.workplace.globalSettings d else s.workplace.settings d, s.format with
  | .error e, format => .complained format e.message
  | .ok settings, .text =>
    match TomlLibrary.write settings with
    | .error reason => .failed reason
    | .ok document => .printed ("# ".toList ++ level ++ '\n' :: document ++ ['\n'])
  | .ok settings, .json =>
    .printed (Report.success [("level", .text level), ("config", settings.toJson)])

/-- Tell where a file of settings is. -/
def tellPath (s : Session) (d : Disk) (level : SettingsLevel) : Outcome :=
  .printed (Report.success [("level", .text level.label), ("path", .text (s.shownPath level)),
    ("exists", .boolean (s.workplace.hasSettings d level))])

/-- Carry out a command. -/
def perform (s : Session) (d : Disk) : Command → Disk × Outcome
  | .symbols paths documentedOnly => (d, s.listSymbols d paths documentedOnly)
  | .xml docId paths => (d, s.printElement d docId paths)
  | .emit paths assembly output => s.emit d paths assembly output
  | .config (.init level force) => s.initSettings d level force
  | .config (.display globalOnly) => (d, s.showSettings d globalOnly)
  | .config (.path level) => (d, s.tellPath d level)

end Session

/-- What an invocation has at hand. -/
def Workplace.session (w : Workplace) (grammar : Text → Tree) (d : Disk)
    (format : Option Text) : Session :=
  let settings :=
    match w.settings d with
    | .ok settings => settings
    | .error _ => {}
  { workplace := w, settings, format := .ofName (format.getD settings.output.format), grammar }

end PartialDocs
