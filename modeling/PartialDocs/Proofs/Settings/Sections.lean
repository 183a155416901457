import PartialDocs.Settings.TomlLibrary

/-!
# What is relied upon of a library for TOML

Everything that is proved about settings in layers holds of any library that reads a section which
a document does not have as the defaults.
-/

set_option autoImplicit false

namespace PartialDocs.TomlLibrary

variable [TomlLibrary]

/-- Whether a document has a section. -/
def HasSection (document : Text) (key : String) : Prop := hasKey document key.toList = true

instance (document : Text) (key : String) : Decidable (HasSection document key) :=
  inferInstanceAs (Decidable (_ = true))

/-- What is known of reading: sections that a document does not have are the defaults. -/
structure FillsIn : Prop where
  resolver : ∀ {document : Text} {s : Settings}, read document = .ok s →
    ¬ HasSection document "resolver" → s.resolver = {}
  sources : ∀ {document : Text} {s : Settings}, read document = .ok s →
    ¬ HasSection document "sources" → s.sources = {}
  output : ∀ {document : Text} {s : Settings}, read document = .ok s →
    ¬ HasSection document "output" → s.output = {}

end PartialDocs.TomlLibrary
