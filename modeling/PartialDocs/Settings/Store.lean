import PartialDocs.Files.Disk
import PartialDocs.Settings.TomlLibrary

/-!
# Where settings are kept

Global settings are in a file below the settings directory of the home, those of a
project in a file below its root.  `Workplace.settings` reads both and lays them over
each other, and `Workplace.writeDefaults` writes a file with the defaults.
-/

set_option autoImplicit false

namespace PartialDocs

/-- Where a run takes place. -/
structure Workplace where
  /-- The directory of the project, as an absolute path. -/
  root : Text
  home : Option Text := none
  /-- The directory for settings, where it is not below the home. -/
  settingsHome : Option Text := none
  overrides : Overrides := {}
  deriving DecidableEq, Repr

/-- Which of the two files of settings. -/
inductive SettingsLevel where
  | everywhere
  | project
  deriving DecidableEq, Repr

/-- The level in words. -/
def SettingsLevel.label : SettingsLevel → Text
  | .everywhere => "global".toList
  | .project => "project".toList

/-- The path below another one that names lead to. -/
def Path.below (base : Text) (names : List String) : Text :=
  names.foldl (fun path name => Path.join path name.toList) base

/-- Make the directories around a file. -/
def Disk.makeAround (d : Disk) (path : Text) : Except FileError Disk :=
  d.makeDirectories (((Path.parent? path).filter (!·.isEmpty)).getD ['/'])

/-- Write a text to a file after making the directories around it.  Those stay where the text cannot
be written. -/
def Disk.save (d : Disk) (path text : Text) : Disk × Except FileError Unit :=
  match d.makeAround path with
  | .error e => (d, .error e)
  | .ok d =>
    match d.write path (String.ofList text).toUTF8 with
    | .error e => (d, .error e)
    | .ok d => (d, .ok ())

namespace Workplace

/-- The directory for settings: as set, else below the home, else the one at hand. -/
def settingsDirectory (w : Workplace) : Text :=
  w.settingsHome.getD ((w.home.map fun home => Path.below home [".config"]).getD ['.'])

/-- The path of a file of settings. -/
def settingsPath (w : Workplace) : SettingsLevel → Text
  | .everywhere => Path.below w.settingsDirectory ["csdoc", "config.toml"]
  | .project => Path.below w.root [".csdoc", "config.toml"]

/-- A path as seen from the root of the project. -/
def absolute (w : Workplace) (path : Text) : Text := Path.join w.root path

/-- Whether a file of settings is there. -/
def hasSettings (w : Workplace) (d : Disk) (level : SettingsLevel) : Bool :=
  d.pathExists (w.absolute (w.settingsPath level))

section

variable [TomlLibrary]

/-- The settings in a file, where it is there. -/
def settingsAt (w : Workplace) (d : Disk) (level : SettingsLevel) :
    Except ConfigError (Option Settings) :=
  let path := w.settingsPath level
  if w.hasSettings d level then
    match d.readText (w.absolute path) with
    | .error e => .error (.file e)
    | .ok text =>
      match TomlLibrary.read text with
      | .error reason => .error (.parse (path ++ ": ".toList ++ reason))
      | .ok s => .ok (some s)
  else .ok none

/-- The global settings, which the environment does not change. -/
def globalSettings (w : Workplace) (d : Disk) : Except ConfigError Settings :=
  (w.settingsAt d .everywhere).map fun s => s.getD {}

/-- The settings of the project over the global ones, with what the environment sets. -/
def settings (w : Workplace) (d : Disk) : Except ConfigError Settings := do
  let base ← w.globalSettings d
  let project ← w.settingsAt d .project
  w.overrides.apply ((project.map fun s => s.over base).getD base)

/-- The refusal to write a file of settings that is there. -/
def refusal (path : Text) : ConfigError :=
  .invalidValue "config".toList
    ("Config already exists: ".toList ++ path ++ ". Use --force to overwrite.".toList)

/-- Write a file with the default settings after making the directories around it. -/
def saveDefaults (d : Disk) (path : Text) : Disk × Except ConfigError Unit :=
  match d.makeAround path with
  | .error e => (d, .error (.file e))
  | .ok d =>
    match TomlLibrary.write {} with
    | .error reason => (d, .error (.parse reason))
    | .ok text =>
      match d.write path (String.ofList text).toUTF8 with
      | .error e => (d, .error (.file e))
      | .ok d => (d, .ok ())

/-- Write a file with the default settings, whose path is the answer.  One that is there is only
written by force. -/
def writeDefaults (w : Workplace) (d : Disk) (level : SettingsLevel) (force : Bool) :
    Disk × Except ConfigError Text :=
  let path := w.settingsPath level
  if w.hasSettings d level && !force then (d, .error (refusal path))
  else
    let (d, saved) := saveDefaults d (w.absolute path)
    (d, saved.map fun _ => path)

end

end Workplace

end PartialDocs
