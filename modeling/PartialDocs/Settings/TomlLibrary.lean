import PartialDocs.Settings.Basic

/-!
# A library for TOML

Settings are kept as TOML documents, which a library reads and writes.  `TomlLibrary` is what the
program asks of it; which library it is, is left open.
-/

set_option autoImplicit false

namespace PartialDocs

/-- What a library for TOML offers. -/
class TomlLibrary where
  /-- The settings that a document spells, or what is wrong with it. -/
  read (document : Text) : Except Text Settings
  /-- Whether a document has a key at its top level, as a value or as a table. -/
  hasKey (document key : Text) : Bool
  /-- The document that spells settings, or why there is none. -/
  write (settings : Settings) : Except Text Text

end PartialDocs
