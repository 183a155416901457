import PartialDocs.Settings.Basic
import PartialDocs.StandIn.Toml.Document

/-!
# Reading settings

A part of the stand-in for the library for TOML: `Settings.ofText?` reads settings.  Keys that
mean nothing are passed over, and keys that are missing have their defaults.  A section may also
be an array, whose items are then the values of its keys in their order.
-/

set_option autoImplicit false

namespace PartialDocs

namespace Toml

/-- The text that a value is. -/
def text? : Toml → Option Text
  | .string s => some s
  | _ => none

/-- The yes or no that a value is. -/
def boolean? : Toml → Option Bool
  | .boolean b => some b
  | _ => none

/-- The number below `2 ^ 32` that a value is. -/
def word? : Toml → Option Nat
  | .integer i => if 0 ≤ i && i < Int.pow 2 32 then some i.toNat else none
  | _ => none

/-- The items of an array. -/
def items? : Toml → Option (List Toml)
  | .array items => some items
  | .tables items => some items
  | _ => none

/-- The texts in an array. -/
def texts? (v : Toml) : Option (List Text) := v.items?.bind fun items => items.mapM text?

/-- Whether a value is empty between its brackets or braces. -/
def isVacant : Toml → Bool
  | .array items => items.isEmpty
  | .tables items => items.isEmpty
  | .table _ entries => entries.isEmpty
  | _ => false

/-- The values of the keys of a section.  A time stands for a section without keys. -/
def section? (keys : List Text) : Toml → Option Entries
  | .table _ entries => some entries
  | .array items => some (keys.zip items)
  | .tables items => some (keys.zip items)
  | .time => some []
  | _ => none

/-- The value of a key, read where it is there. -/
def read? {α : Type} (entries : Entries) (key : String) (default : α) (read : Toml → Option α) :
    Option α :=
  match get? entries key.toList with
  | none => some default
  | some v => read v

end Toml

/-- The policy that a value names: as text, or as the only key of a table, whose value is vacant. -/
def UnimplementedPolicy.ofToml? : Toml → Option UnimplementedPolicy
  | .string s => ofLabel? s
  | .table _ [(key, v)] => if v.isVacant then ofLabel? key else none
  | _ => none

/-- The resolver settings of a section. -/
def ResolverSettings.ofToml? (v : Toml) : Option ResolverSettings := do
  let entries ← v.section? ["unimplemented_partial_methods".toList]
  return {
    unimplemented := ←
      Toml.read? entries "unimplemented_partial_methods" .omitted UnimplementedPolicy.ofToml? }

/-- The source settings of a section. -/
def SourceSettings.ofToml? (v : Toml) : Option SourceSettings := do
  let defaults : SourceSettings := {}
  let entries ← v.section? ["extensions".toList, "ignored_paths".toList,
    "max_file_size_mb".toList, "include_hidden".toList]
  return {
    extensions := ← Toml.read? entries "extensions" defaults.extensions Toml.texts?
    ignoredPaths := ← Toml.read? entries "ignored_paths" defaults.ignoredPaths Toml.texts?
    maxFileSizeMb := ← Toml.read? entries "max_file_size_mb" defaults.maxFileSizeMb Toml.word?
    includeHidden := ← Toml.read? entries "include_hidden" defaults.includeHidden Toml.boolean? }

/-- The output settings of a section. -/
def OutputSettings.ofToml? (v : Toml) : Option OutputSettings := do
  let defaults : OutputSettings := {}
  let entries ← v.section? ["format".toList, "assembly_name".toList]
  return {
    format := ← Toml.read? entries "format" defaults.format Toml.text?
    assemblyName := ←
      Toml.read? entries "assembly_name" none fun v => v.text?.map some }

/-- The settings of a document. -/
def Settings.ofEntries? (entries : Toml.Entries) : Option Settings := do
  return {
    resolver := ← Toml.read? entries "resolver" {} ResolverSettings.ofToml?
    sources := ← Toml.read? entries "sources" {} SourceSettings.ofToml?
    output := ← Toml.read? entries "output" {} OutputSettings.ofToml? }

/-- The settings that a text spells. -/
def Settings.ofText? (s : Text) : Option Settings := (Toml.ofText? s).bind Settings.ofEntries?

end PartialDocs
