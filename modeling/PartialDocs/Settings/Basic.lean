import PartialDocs.Files.SourceFilter
import PartialDocs.Resolution

/-!
# Settings

What can be set: how documentation is resolved, which files are sources, and how results
are written.  `Settings.over` lays the settings of a project over global ones section by
section, and `Overrides.apply` lets the environment replace single values.
-/

set_option autoImplicit false

namespace PartialDocs

/-- How documentation is resolved. -/
structure ResolverSettings where
  unimplemented : UnimplementedPolicy := .omitted
  deriving DecidableEq, Repr

/-- Which files are sources. -/
structure SourceSettings where
  extensions : List Text := ["cs".toList]
  ignoredPaths : List Text := defaultIgnoredPaths
  /-- The greatest size of a source in megabytes, where zero stands for any size. -/
  maxFileSizeMb : Nat := 5
  includeHidden : Bool := false
  deriving DecidableEq, Repr

/-- How results are written. -/
structure OutputSettings where
  format : Text := "json".toList
  assemblyName : Option Text := none
  deriving DecidableEq, Repr

/-- All settings. -/
structure Settings where
  resolver : ResolverSettings := {}
  sources : SourceSettings := {}
  output : OutputSettings := {}
  deriving DecidableEq, Repr

/-- The form in which results are written. -/
inductive OutputFormat where
  | json
  | text
  deriving DecidableEq, Repr

/-- The format of a name in any case.  Unknown names stand for JSON. -/
def OutputFormat.ofName (name : Text) : OutputFormat :=
  if ["text".toList, "plain".toList].contains (name.map Char.toLower) then .text else .json

/-- The greatest size of a source in bytes. -/
def SourceSettings.maxFileSize (s : SourceSettings) : Nat :=
  if s.maxFileSizeMb = 0 then Nat.pow 2 64 - 1 else s.maxFileSizeMb * 1024 * 1024

/-- The filter for the sources below a root. -/
def SourceSettings.filter (s : SourceSettings) (root : Text) : SourceFilter :=
  { root, ignoredPaths := s.ignoredPaths, includeHidden := s.includeHidden }

/-- The settings of a project over global ones.  Only the name of the assembly is kept where the
project has none. -/
def Settings.over (project base : Settings) : Settings :=
  { project with
    output.assemblyName := project.output.assemblyName.or base.output.assemblyName }

/-- Values that the environment sets. -/
structure Overrides where
  format : Option Text := none
  unimplemented : Option Text := none
  maxFileSizeMb : Option Text := none
  deriving DecidableEq, Repr

namespace Overrides

/-- The number below `2 ^ 32` in decimal digits after an optional plus. -/
def size? (words : Text) : Option Nat :=
  let digits := Text.dropPrefix ['+'] words
  if !digits.isEmpty && digits.all Char.isDigit then
    (some (digits.foldl (fun n c => n * 10 + (c.toNat - '0'.toNat)) 0)).filter (· < Nat.pow 2 32)
  else none

/-- The policy that the environment asks for, else the given one. -/
def policy (o : Overrides) (p : UnimplementedPolicy) : Except ConfigError UnimplementedPolicy :=
  match o.unimplemented with
  | none => .ok p
  | some words =>
    (UnimplementedPolicy.read words).mapError
      (.invalidValue "CSDOC_UNIMPLEMENTED_PARTIAL_METHODS".toList)

/-- Replace the values that the environment sets.  A size that is no number is passed over. -/
def apply (o : Overrides) (s : Settings) : Except ConfigError Settings :=
  (o.policy s.resolver.unimplemented).map fun unimplemented =>
    { resolver := { unimplemented }
      sources := { s.sources with
        maxFileSizeMb := (o.maxFileSizeMb.bind size?).getD s.sources.maxFileSizeMb }
      output := { s.output with format := o.format.getD s.output.format } }

end Overrides

end PartialDocs
