import PartialDocs.Settings.Basic
import PartialDocs.StandIn.Toml.Quoted

/-!
# Writing settings

A part of the stand-in for the library for TOML: `Settings.toToml` writes settings, every
section below its header, with an empty line between sections, and a list of several texts
with one text a line.
-/

set_option autoImplicit false

namespace PartialDocs

namespace Toml

/-- A list of texts.  Several texts stand below each other. -/
def quoteTexts : List Text → Text
  | [] => "[]".toList
  | [item] => '[' :: quoteText item ++ [']']
  | items =>
    "[\n".toList ++ items.flatMap (fun item => "    ".toList ++ quoteText item ++ ",\n".toList)
      ++ [']']

/-- Yes or no. -/
def ofBool (b : Bool) : Text := if b then "true".toList else "false".toList

/-- A line that sets a key. -/
def line (key : String) (v : Text) : Text := key.toList ++ " = ".toList ++ v ++ ['\n']

/-- A section: its header and its lines. -/
def sectionOf (name : String) (lines : List Text) : Text :=
  '[' :: name.toList ++ "]\n".toList ++ lines.flatten

end Toml

open Toml

/-- The resolver settings as a section. -/
def ResolverSettings.toToml (s : ResolverSettings) : Text :=
  sectionOf "resolver" [line "unimplemented_partial_methods" (quoteText s.unimplemented.label)]

/-- The source settings as a section. -/
def SourceSettings.toToml (s : SourceSettings) : Text :=
  sectionOf "sources"
    [line "extensions" (quoteTexts s.extensions),
      line "ignored_paths" (quoteTexts s.ignoredPaths),
      line "max_file_size_mb" (Text.ofNat s.maxFileSizeMb),
      line "include_hidden" (ofBool s.includeHidden)]

/-- The output settings as a section.  An assembly without a name has no line. -/
def OutputSettings.toToml (s : OutputSettings) : Text :=
  sectionOf "output"
    (line "format" (quoteText s.format)
      :: (s.assemblyName.map fun name => line "assembly_name" (quoteText name)).toList)

/-- The settings as a document. -/
def Settings.toToml (s : Settings) : Text :=
  Text.unlines [s.resolver.toToml, s.sources.toToml, s.output.toToml]

end PartialDocs
