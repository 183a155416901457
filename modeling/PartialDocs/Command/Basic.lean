import PartialDocs.Settings.Store

/-!
# Commands

What a command line asks for.
-/

set_option autoImplicit false

namespace PartialDocs

/-- What to do with the files of settings. -/
inductive SettingsAction where
  /-- Write a file with the defaults, over one that is there only by force. -/
  | init (level : SettingsLevel) (force : Bool)
  /-- Show the settings: the global ones alone, or all layers. -/
  | display (globalOnly : Bool)
  /-- Tell where a file is. -/
  | path (level : SettingsLevel)
  deriving DecidableEq, Repr

/-- What a run does.  Paths name the sources. -/
inductive Command where
  /-- List the symbols with their pieces, all or only those that are documented. -/
  | symbols (paths : List Text) (documentedOnly : Bool)
  /-- Print the documentation of one symbol. -/
  | xml (docId : Text) (paths : List Text)
  /-- Write the documentation file. -/
  | emit (paths : List Text) (assembly output : Option Text)
  | config (action : SettingsAction)
  deriving DecidableEq, Repr

/-- A command with the name of the format for its result, where one is asked for. -/
structure Invocation where
  command : Command
  format : Option Text
  deriving DecidableEq, Repr

end PartialDocs
