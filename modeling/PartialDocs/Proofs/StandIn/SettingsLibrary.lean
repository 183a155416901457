import PartialDocs.Proofs.Settings.Sections
import PartialDocs.StandIn.SettingsLibrary

/-!
# The stand-in fills in what is missing

A key that a table does not have is read as its default, and so is a section that a document does
not have (`fillsIn`).
-/

set_option autoImplicit false

namespace PartialDocs.Settings

open PartialDocs.TomlLibrary (FillsIn HasSection)

variable {entries : Toml.Entries} {document : Text} {s : Settings}

/-- A key that is not there is read as its default. -/
theorem eq_default_of_missing {α : Type} {key : String} {default v : α} {read : Toml → Option α}
    (missing : Toml.get? entries key.toList = none)
    (h : Toml.read? entries key default read = some v) : v = default := by
  unfold Toml.read? at h
  rw [missing] at h
  exact (Option.some.inj h).symm

/-- Settings are read section by section. -/
theorem ofEntries?_eq_some (h : ofEntries? entries = some s) :
    Toml.read? entries "resolver" {} ResolverSettings.ofToml? = some s.resolver ∧
    Toml.read? entries "sources" {} SourceSettings.ofToml? = some s.sources ∧
    Toml.read? entries "output" {} OutputSettings.ofToml? = some s.output := by
  unfold ofEntries? at h
  simp only [Option.bind_eq_bind, Option.bind_eq_some_iff, Option.pure_def, Option.some.injEq] at h
  obtain ⟨resolver, hresolver, sources, hsources, output, houtput, rfl⟩ := h
  exact ⟨hresolver, hsources, houtput⟩

/-- The settings of a document are read. -/
theorem read_eq (h : ofText? document = some s) : TomlLibrary.read document = .ok s := by
  show Settings.read document = .ok s
  unfold Settings.read
  rw [h]

/-- What is read are the settings of a document. -/
theorem read_eq_ok (h : read document = .ok s) :
    ∃ entries, Toml.ofText? document = some entries ∧ ofEntries? entries = some s := by
  unfold read at h
  cases htext : ofText? document with
  | none =>
    rw [htext] at h
    cases h
  | some s' =>
    rw [htext] at h
    obtain rfl := Except.ok.inj h
    exact Option.bind_eq_some_iff.1 htext

/-- A document that can be read has no key where it has no section. -/
theorem get?_eq_none (hentries : Toml.ofText? document = some entries) {key : String}
    (missing : ¬ HasSection document key) : Toml.get? entries key.toList = none := by
  have hkey : ¬ Toml.hasKey document key.toList = true := missing
  unfold Toml.hasKey at hkey
  rw [hentries, Option.any_some, Bool.not_eq_true, Option.isSome_eq_false_iff,
    Option.isNone_iff_eq_none] at hkey
  exact hkey

/-- **The stand-in reads missing sections as a library does.** -/
theorem fillsIn : FillsIn where
  resolver h missing := by
    obtain ⟨entries, hentries, hsettings⟩ := read_eq_ok h
    exact eq_default_of_missing (get?_eq_none hentries missing) (ofEntries?_eq_some hsettings).1
  sources h missing := by
    obtain ⟨entries, hentries, hsettings⟩ := read_eq_ok h
    exact eq_default_of_missing (get?_eq_none hentries missing) (ofEntries?_eq_some hsettings).2.1
  output h missing := by
    obtain ⟨entries, hentries, hsettings⟩ := read_eq_ok h
    exact eq_default_of_missing (get?_eq_none hentries missing) (ofEntries?_eq_some hsettings).2.2

end PartialDocs.Settings
