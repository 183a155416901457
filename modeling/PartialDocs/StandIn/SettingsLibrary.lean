import PartialDocs.Settings.TomlLibrary
import PartialDocs.StandIn.SettingsDecoding
import PartialDocs.StandIn.SettingsRendering

/-!
# Settings as TOML

A stand-in for the library for TOML, put together from its parts.  It says of a malformed document
only that it is malformed.
-/

set_option autoImplicit false

namespace PartialDocs

/-- Whether a document can be read and has a key at its top level. -/
def Toml.hasKey (document key : Text) : Bool :=
  (Toml.ofText? document).any fun entries => (Toml.get? entries key).isSome

/-- The settings that a document spells. -/
def Settings.read (document : Text) : Except Text Settings :=
  match Settings.ofText? document with
  | none => .error "malformed settings".toList
  | some s => .ok s

/-- The stand-in for the library for TOML. -/
instance : TomlLibrary where
  read := Settings.read
  hasKey := Toml.hasKey
  write s := .ok s.toToml

end PartialDocs
