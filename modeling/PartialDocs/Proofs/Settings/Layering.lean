import PartialDocs.Proofs.Settings.Sections
import PartialDocs.Proofs.StandIn.SettingsLibrary
import PartialDocs.Settings.Store

/-!
# Settings in layers

The settings of a project are meant to replace the global ones section by section, and the
environment to replace single keys of both (`Settings.layered`, `Overrides.replace`).  A section
that the file of a project does not have is read as the defaults, though, and these replace the
global section too.  `settings_layered` says of every section when it is as it is meant to be: where
the project has the section, or where its global values are hidden or are the defaults already.  It
holds for any library for TOML that reads missing sections as the defaults.
-/

set_option autoImplicit false

namespace PartialDocs

open PartialDocs.TomlLibrary (FillsIn HasSection)

/-! ## What the layers are meant to be -/

/-- The settings of a project with the given document over global ones.  A section that the document
has is that of the project, except that a missing name of the assembly is the global one.  A section
that it does not have is the global one. -/
def Settings.layered [TomlLibrary] (document : Text) (project base : Settings) : Settings where
  resolver := if HasSection document "resolver" then project.resolver else base.resolver
  sources := if HasSection document "sources" then project.sources else base.sources
  output :=
    if HasSection document "output" then
      { project.output with
        assemblyName := project.output.assemblyName.or base.output.assemblyName }
    else base.output

namespace Overrides

/-- The policy that the environment sets, if its words name one. -/
def policy? (o : Overrides) : Option UnimplementedPolicy :=
  o.unimplemented.bind fun words => (UnimplementedPolicy.read words).toOption

/-- Whether the words that the environment sets as a policy name one. -/
def Valid (o : Overrides) : Prop := o.unimplemented.isSome = o.policy?.isSome

instance (o : Overrides) : Decidable o.Valid := inferInstanceAs (Decidable (_ = _))

/-- The settings in which exactly the keys are replaced that the environment sets validly. -/
def replace (o : Overrides) (s : Settings) : Settings where
  resolver := { unimplemented := o.policy?.getD s.resolver.unimplemented }
  sources := { s.sources with
    maxFileSizeMb := (o.maxFileSizeMb.bind size?).getD s.sources.maxFileSizeMb }
  output := { s.output with format := o.format.getD s.output.format }

variable {o : Overrides}

/-- Valid overrides replace what they are given. -/
theorem apply_of_valid (h : o.Valid) (s : Settings) : o.apply s = .ok (o.replace s) := by
  unfold Valid policy? at h
  unfold apply policy replace policy?
  cases hwords : o.unimplemented with
  | none => rfl
  | some words =>
    cases hread : UnimplementedPolicy.read words with
    | error reason => simp [hwords, hread, Except.toOption] at h
    | ok p =>
      simp only [hread, Option.bind_some]
      rfl

/-- Words that name no policy are an error, whatever the settings are. -/
theorem apply_of_not_valid (h : ¬ o.Valid) (s : Settings) : ∃ words reason,
    o.unimplemented = some words ∧ UnimplementedPolicy.read words = .error reason ∧
    o.apply s = .error (.invalidValue "CSDOC_UNIMPLEMENTED_PARTIAL_METHODS".toList reason) := by
  unfold Valid policy? at h
  cases hwords : o.unimplemented with
  | none => simp [hwords] at h
  | some words =>
    cases hread : UnimplementedPolicy.read words with
    | ok p => simp [hwords, hread, Except.toOption] at h
    | error reason =>
      refine ⟨words, reason, rfl, hread, ?_⟩
      unfold apply policy
      simp only [hwords, hread]
      rfl

end Overrides

/-! ## Sections that are missing -/

namespace Settings

variable [TomlLibrary] {document : Text} {base project : Settings} {o : Overrides}

/-- When the resolver section is as it is meant to be. -/
theorem resolver_layered (laws : FillsIn) (h : TomlLibrary.read document = .ok project) :
    (o.replace (project.over base)).resolver =
        (o.replace (layered document project base)).resolver ↔
      HasSection document "resolver" ∨ o.policy?.isSome ∨ base.resolver = {} := by
  unfold Overrides.replace Settings.over layered
  by_cases hsection : HasSection document "resolver"
  · simp [hsection]
  · have hproject := laws.resolver h hsection
    have hbase : base.resolver = ⟨base.resolver.unimplemented⟩ := rfl
    simp only [hsection, if_false, false_or, hproject]
    cases o.policy? with
    | some p => simp
    | none =>
      rw [hbase]
      simp [eq_comm]

/-- When the source section is as it is meant to be. -/
theorem sources_layered (laws : FillsIn) (h : TomlLibrary.read document = .ok project) :
    (o.replace (project.over base)).sources =
        (o.replace (layered document project base)).sources ↔
      HasSection document "sources" ∨ (o.replace base).sources = (o.replace {}).sources := by
  unfold Overrides.replace Settings.over layered
  by_cases hsection : HasSection document "sources"
  · simp [hsection]
  · have hproject := laws.sources h hsection
    simp only [hsection, if_false, false_or, hproject]
    exact eq_comm

/-- When the output section is as it is meant to be. -/
theorem output_layered (laws : FillsIn) (h : TomlLibrary.read document = .ok project) :
    (o.replace (project.over base)).output =
        (o.replace (layered document project base)).output ↔
      HasSection document "output" ∨ o.format.isSome ∨
        base.output.format = ({} : OutputSettings).format := by
  unfold Overrides.replace Settings.over layered
  by_cases hsection : HasSection document "output"
  · simp [hsection]
  · have hproject := laws.output h hsection
    simp only [hsection, if_false, false_or, hproject, Option.none_or]
    cases o.format with
    | some format => simp
    | none => simp [eq_comm]

end Settings

namespace Workplace

/-- Whether a file of settings is there and can be read as text. -/
structure TextAt (w : Workplace) (d : Disk) (level : SettingsLevel) (text : Text) : Prop where
  there : w.hasSettings d level = true
  read : d.readText (w.absolute (w.settingsPath level)) = .ok text

section

variable [TomlLibrary] {w : Workplace} {d : Disk} {g p : Text} {base project : Settings}

/-- The settings in a file are those that its text spells. -/
theorem TextAt.settingsAt_eq {level : SettingsLevel} {text : Text} {s : Settings}
    (h : w.TextAt d level text) (hs : TomlLibrary.read text = .ok s) :
    w.settingsAt d level = .ok (some s) := by
  unfold settingsAt
  simp only
  rw [if_pos h.there, h.read]
  simp only
  rw [hs]

/-- The settings of a project over the global ones, as they are. -/
theorem settings_eq (hg : w.TextAt d .everywhere g) (hp : w.TextAt d .project p)
    (hbase : TomlLibrary.read g = .ok base) (hproject : TomlLibrary.read p = .ok project) :
    w.settings d = w.overrides.apply (project.over base) := by
  unfold settings globalSettings
  rw [hg.settingsAt_eq hbase, hp.settingsAt_eq hproject]
  rfl

/-- **The settings of a project over global ones are layered section by section exactly where no
global section is lost**, for any library that reads missing sections as the defaults.  A section
that the file of the project does not have is lost unless it is that of the defaults, up to the keys
that the environment sets. -/
theorem settings_layered (laws : FillsIn) (hg : w.TextAt d .everywhere g)
    (hp : w.TextAt d .project p) (hbase : TomlLibrary.read g = .ok base)
    (hproject : TomlLibrary.read p = .ok project) :
    (w.overrides.Valid → ∃ s, w.settings d = .ok s ∧
      (s.resolver = (w.overrides.replace (.layered p project base)).resolver ↔
        HasSection p "resolver" ∨ w.overrides.policy?.isSome ∨ base.resolver = {}) ∧
      (s.sources = (w.overrides.replace (.layered p project base)).sources ↔
        HasSection p "sources" ∨
          (w.overrides.replace base).sources = (w.overrides.replace {}).sources) ∧
      (s.output = (w.overrides.replace (.layered p project base)).output ↔
        HasSection p "output" ∨ w.overrides.format.isSome ∨
          base.output.format = ({} : OutputSettings).format)) ∧
    (¬ w.overrides.Valid → ∃ words reason, w.overrides.unimplemented = some words ∧
      UnimplementedPolicy.read words = .error reason ∧
      w.settings d =
        .error (.invalidValue "CSDOC_UNIMPLEMENTED_PARTIAL_METHODS".toList reason)) := by
  rw [settings_eq hg hp hbase hproject]
  constructor
  · intro valid
    exact ⟨_, Overrides.apply_of_valid valid _, Settings.resolver_layered laws hproject,
      Settings.sources_layered laws hproject, Settings.output_layered laws hproject⟩
  · intro invalid
    exact Overrides.apply_of_not_valid invalid _

end

/-! ## Two projects -/

/-- A project in a home. -/
def homePlace (overrides : Overrides) : Workplace :=
  { root := "/proj".toList, home := some "/home".toList, overrides }

/-- A disk with global settings and those of a project. -/
def homeDisk (everywhere project : String) : Disk where
  files :=
    [(["home".toList, ".config".toList, "csdoc".toList, "config.toml".toList], everywhere.toUTF8),
      (["proj".toList, ".csdoc".toList, "config.toml".toList], project.toUTF8)]
  directories := []

/-- Global settings that name an assembly. -/
def assemblyText : String := "[output]\nassembly_name = \"Acme\"\n"

/-- Settings that ask for the comments of defining pieces. -/
def policyText : String := "[resolver]\nunimplemented_partial_methods = \"defining\"\n"

/-- Settings of a project that ask for text. -/
def formatText : String := "[output]\nformat = \"text\"\n"

/-- The settings that name an assembly. -/
def assemblySettings : Settings where
  output := { assemblyName := some "Acme".toList }

/-- The settings that ask for the comments of defining pieces. -/
def policySettings : Settings where
  resolver := { unimplemented := .defining }

/-- A greatest size that the environment sets. -/
def sizeOverride : Overrides where
  maxFileSizeMb := some "7".toList

/-- A project without an output section keeps the global name of the assembly, and the environment
replaces the greatest size. -/
theorem settings_layered_assembly :
    FillsIn ∧
    (homePlace sizeOverride).TextAt (homeDisk assemblyText policyText) .everywhere
      assemblyText.toList ∧
    (homePlace sizeOverride).TextAt (homeDisk assemblyText policyText) .project policyText.toList ∧
    TomlLibrary.read assemblyText.toList = .ok assemblySettings ∧
    TomlLibrary.read policyText.toList = .ok policySettings ∧
    (homePlace sizeOverride).settings (homeDisk assemblyText policyText) =
      .ok (sizeOverride.replace (.layered policyText.toList policySettings assemblySettings)) ∧
    sizeOverride.replace (.layered policyText.toList policySettings assemblySettings) =
      ⟨⟨.defining⟩, { maxFileSizeMb := 7 }, { assemblyName := some "Acme".toList }⟩ := by
  have hlaws : FillsIn := Settings.fillsIn
  have hg : (homePlace sizeOverride).TextAt (homeDisk assemblyText policyText) .everywhere
      assemblyText.toList := ⟨by decide +kernel, rfl⟩
  have hp : (homePlace sizeOverride).TextAt (homeDisk assemblyText policyText) .project
      policyText.toList := ⟨by decide +kernel, rfl⟩
  have hbase : TomlLibrary.read assemblyText.toList = .ok assemblySettings :=
    Settings.read_eq (by decide +kernel)
  have hpolicy : TomlLibrary.read policyText.toList = .ok policySettings :=
    Settings.read_eq (by decide +kernel)
  have hsection : HasSection policyText.toList "resolver" := by decide +kernel
  obtain ⟨s, hs, hresolver, hsources, houtput⟩ :=
    (settings_layered hlaws hg hp hbase hpolicy).1 (by decide +kernel)
  have hlayered : s =
      sizeOverride.replace (.layered policyText.toList policySettings assemblySettings) := by
    obtain ⟨resolver, sources, output⟩ := s
    rw [Settings.mk.injEq]
    exact ⟨hresolver.2 (.inl hsection), hsources.2 (.inr rfl), houtput.2 (.inr (.inr rfl))⟩
  have hvalues : s =
      ⟨⟨.defining⟩, { maxFileSizeMb := 7 }, { assemblyName := some "Acme".toList }⟩ := by
    rw [settings_eq hg hp hbase hpolicy] at hs
    exact (Except.ok.inj hs).symm
  refine ⟨hlaws, hg, hp, hbase, hpolicy, ?_, ?_⟩
  · rw [hs, hlayered]
  · rw [← hlayered, hvalues]

/-- The policy of the global settings is lost where the project has only another section. -/
theorem global_policy_lost :
    FillsIn ∧
    (homePlace {}).TextAt (homeDisk policyText formatText) .everywhere policyText.toList ∧
    (homePlace {}).TextAt (homeDisk policyText formatText) .project formatText.toList ∧
    TomlLibrary.read policyText.toList = .ok policySettings ∧
    ¬ HasSection formatText.toList "resolver" ∧
    (homePlace {}).settings (homeDisk policyText formatText) =
      .ok { resolver := ⟨.omitted⟩, output := { format := "text".toList } } := by
  have hg : (homePlace {}).TextAt (homeDisk policyText formatText) .everywhere policyText.toList :=
    ⟨by decide +kernel, rfl⟩
  have hp : (homePlace {}).TextAt (homeDisk policyText formatText) .project formatText.toList :=
    ⟨by decide +kernel, rfl⟩
  have hbase : TomlLibrary.read policyText.toList = .ok policySettings :=
    Settings.read_eq (by decide +kernel)
  have hproject : TomlLibrary.read formatText.toList =
      .ok { output := { format := "text".toList } } :=
    Settings.read_eq (by decide +kernel)
  refine ⟨Settings.fillsIn, hg, hp, hbase, by decide +kernel, ?_⟩
  rw [settings_eq hg hp hbase hproject]
  rfl

end Workplace

end PartialDocs
