import PartialDocs.Proofs.Files.WalkLaws
import PartialDocs.Proofs.StandIn.DirectoryWalk
import PartialDocs.Settings.Basic

/-!
# The search and the filter

The search for sources walks over a directory, and whatever the gitignore files ignore the walk
passes over before the filter is asked.  Where a project has no ignore files but those of its
root, the search lists a file just when the filter includes it and the gitignore file ignores
neither the file nor a directory on the way to it (`search_against_filter`).  The filter may
include more: a file that the settings directory keeps, or one that the gitignore file keeps
below a directory that it ignores.
-/

set_option autoImplicit false

namespace PartialDocs

open PartialDocs.Path (IsName ofNames)
open PartialDocs.IgnoreLibrary (Bars HeedsRules HeedsSteps OnlyOwnIgnores passesOver verdictOf?
  verdictUp? walk)

namespace SourceFilter

variable {filter : SourceFilter} {d : Disk} {base : Place} {names extensions : List Text}

/-- A file below the root of a filter, with the names that lead to it. -/
structure IsBelow (filter : SourceFilter) (d : Disk) (base : Place) (names : List Text) :
    Prop where
  absolute : Path.isAbsolute filter.root = true
  resolves : d.resolve? filter.root = some base
  wellNamed : d.WellNamed
  nonempty : names ≠ []
  file : d.isFile (base ++ names) = true

/-- The path of what names lead to from the root. -/
def pathOf (filter : SourceFilter) (names : List Text) : Text :=
  Path.join filter.root (ofNames names)

namespace IsBelow

variable (below : filter.IsBelow d base names)

include below

/-- The file and the root stand below names. -/
theorem names_of_base : (∀ n ∈ base, IsName n) ∧ ∀ n ∈ names, IsName n :=
  List.forall_mem_append.1 (below.wellNamed.of_isFile below.file)

/-- The file is spelled by names. -/
theorem isName {n : Text} (hn : n ∈ names) : IsName n := below.names_of_base.2 n hn

/-- The path of the file leads to it. -/
theorem resolve?_pathOf : d.resolve? (filter.pathOf names) = some (base ++ names) :=
  Disk.resolve?_join_of_isFile below.absolute below.resolves below.nonempty
    (fun _ => below.isName) below.file

/-- The steps of the file behind those of the root. -/
theorem steps_pathOf :
    Path.steps (filter.pathOf names) = Path.steps filter.root ++ names.map .name :=
  Path.steps_join below.absolute below.nonempty fun _ => below.isName

/-- The file relative to the root is spelled by its names. -/
theorem relativeTo_pathOf : Path.relativeTo filter.root (filter.pathOf names) = ofNames names :=
  Path.relativeTo_join below.absolute below.nonempty fun _ => below.isName

/-- Its path leads to a file. -/
theorem pathIsFile_pathOf : d.pathIsFile (filter.pathOf names) = true := by
  unfold Disk.pathIsFile
  rw [below.resolve?_pathOf, Option.any_some]
  exact below.file

/-- Whether a directory is at the path. -/
theorem pathIsDirectory_pathOf :
    d.pathIsDirectory (filter.pathOf names) = d.isDirectory (base ++ names) := by
  unfold Disk.pathIsDirectory
  rw [below.resolve?_pathOf, Option.any_some]

end IsBelow

/-- Names can be told from the path of them. -/
theorem namesOf_ofNames (hnames : ∀ n ∈ names, IsName n) : namesOf (ofNames names) = names := by
  unfold namesOf
  rw [Path.steps_ofNames hnames, List.filterMap_map]
  exact List.filterMap_some

/-- The extension depends on the steps of a path only. -/
theorem hasExtension_congr {path path' : Text} (h : Path.steps path = Path.steps path') :
    hasExtension extensions path = hasExtension extensions path' := by
  unfold hasExtension Path.extension? Path.fileName?
  rw [h]

/-! ## What the search lists -/

section

variable [IgnoreLibrary]

/-- A listed source is a file that the walk comes by and the filter includes. -/
theorem mem_discover {path : Text} : path ∈ filter.discover d extensions ↔
    path ∈ walk d filter.walkOptions filter.root ∧ d.pathIsFile path = true ∧
      hasExtension extensions path = true ∧ filter.shouldInclude d path = true := by
  unfold discover shouldInclude isIgnored
  simp only [List.mem_mergeSort, List.mem_filter, Bool.and_eq_true, and_assoc]

/-- The first rules of the root that speak of names decide. -/
theorem findSome?_rootRules (filter : SourceFilter) (d : Disk) (names : List Text)
    (isDirectory : Bool) :
    ((filter.rootRules d).findSome? fun r =>
        IgnoreLibrary.verdictOrParent? r (ofNames names) isDirectory) =
      (verdictUp? (filter.ownRules d) names isDirectory).or
        (verdictUp? (filter.gitRules d) names isDirectory) := by
  unfold rootRules verdictUp?
  cases filter.ownRules d with
  | none =>
    cases filter.gitRules d with
    | none => rfl
    | some git =>
      show [git].findSome? _ = (none : Option Verdict).or _
      rw [List.findSome?_singleton, Option.or, Option.bind_some]
  | some own =>
    cases filter.gitRules d with
    | none =>
      show [own].findSome? _ = (_ : Option Verdict).or none
      rw [List.findSome?_singleton, Option.or_none, Option.bind_some]
    | some git =>
      show [own, git].findSome? _ = (_ : Option Verdict).or _
      rw [List.findSome?_cons, List.findSome?_cons, List.findSome?_nil, Option.bind_some,
        Option.bind_some]
      cases IgnoreLibrary.verdictOrParent? own (ofNames names) isDirectory <;>
        cases IgnoreLibrary.verdictOrParent? git (ofNames names) isDirectory <;> rfl

/-- Among names that the filter does not refuse, the walk passes over what the gitignore rules
ignore. -/
theorem passesOver_iff (kept : ∀ n ∈ names, filter.refusesName n = false) {k : Nat}
    (hk : k < names.length) (isDirectory : Bool) :
    passesOver filter.walkOptions (filter.gitRules d) (names.take (k + 1)) isDirectory = true ↔
      verdictOf? (filter.gitRules d) (names.take (k + 1)) isDirectory = some .ignored := by
  have hlast : (names.take (k + 1)).getLast? = some names[k] := by
    rw [List.take_succ_eq_append_getElem hk, List.getLast?_concat]
  have hshown : (filter.walkOptions.skipHidden && isHidden names[k]) = false := by
    have hrefuses := kept _ (List.getElem_mem hk)
    unfold refusesName at hrefuses
    exact (Bool.or_eq_false_iff.1 hrefuses).2
  unfold passesOver
  rw [hlast, Option.any_some, hshown]
  cases verdictOf? (filter.gitRules d) (names.take (k + 1)) isDirectory with
  | none => simp [Verdict.passesOver]
  | some v => cases v <;> simp [Verdict.passesOver]

namespace IsBelow

variable (below : filter.IsBelow d base names)

include below

/-- Whether the filter leaves a file out is seen from its names and the rules of the root. -/
theorem shouldInclude_pathOf : filter.shouldInclude d (filter.pathOf names) =
    !(names.any filter.refusesName ||
      (verdictUp? (filter.ownRules d) names (d.isDirectory (base ++ names))).or
        (verdictUp? (filter.gitRules d) names (d.isDirectory (base ++ names)))
      == some .ignored) := by
  unfold shouldInclude isIgnored isIgnoredUnder
  simp only [below.relativeTo_pathOf, below.pathIsDirectory_pathOf,
    namesOf_ofNames fun _ => below.isName, findSome?_rootRules]

/-- What the filter asks of a file. -/
theorem shouldInclude_iff (regular : d.isDirectory (base ++ names) = false) :
    filter.shouldInclude d (filter.pathOf names) = true ↔
      (∀ n ∈ names, filter.refusesName n = false) ∧
        (verdictUp? (filter.ownRules d) names false).or
          (verdictUp? (filter.gitRules d) names false) ≠ some .ignored := by
  rw [below.shouldInclude_pathOf, regular]
  simp only [Bool.not_eq_true', Bool.or_eq_false_iff, List.any_eq_false, Bool.not_eq_true,
    beq_eq_false_iff_ne]

/-- Where the root has the only ignore files, the walk comes by a file unless the gitignore rules
bar the way to it. -/
theorem mem_walk_iff_not_bars (laws : HeedsRules) (own : OnlyOwnIgnores d base)
    (regular : d.isDirectory (base ++ names) = false)
    (kept : ∀ n ∈ names, filter.refusesName n = false) :
    filter.pathOf names ∈ walk d filter.walkOptions filter.root ↔
      ¬ Bars (filter.gitRules d) names := by
  have hrepository : filter.walkOptions.requireRepository = false := rfl
  have hwalk := laws.files below.absolute below.resolves below.wellNamed own hrepository
    below.nonempty below.file regular
  unfold pathOf Bars
  refine hwalk.trans ⟨?_, ?_⟩
  · rintro hreaches ⟨k, hk, hignored⟩
    have hpasses := (passesOver_iff kept hk _).2 hignored
    exact Bool.false_ne_true ((hreaches k hk).symm.trans hpasses)
  · intro hbars k hk
    rw [Bool.eq_false_iff]
    exact fun hpasses => hbars ⟨k, hk, (passesOver_iff kept hk _).1 hpasses⟩

end IsBelow

/-! ## Spellings of the root -/

/-- The rules of a file that names lead to do not depend on how the root is spelled. -/
theorem verdictUp?_rulesAt_congr (laws : HeedsSteps) {root root' : Text}
    (h : Path.isAbsolute root = true) (h' : Path.isAbsolute root' = true)
    (hsteps : Path.steps root = Path.steps root') (hroot : d.resolve? root = some base)
    (hroot' : d.resolve? root' = some base) {file : List Text} (ne : file ≠ [])
    (hfile : ∀ n ∈ file, IsName n) (hnames : ∀ n ∈ names, IsName n) (isDirectory : Bool) :
    verdictUp? (rulesAt d root file) names isDirectory =
      verdictUp? (rulesAt d root' file) names isDirectory := by
  unfold rulesAt
  rw [Disk.resolve?_join h hroot ne hfile, Disk.resolve?_join h' hroot' ne hfile]
  cases (file.foldlM d.step base).toOption.filter d.holds with
  | none => rfl
  | some place => exact laws.rules (d.bytes? place) names isDirectory hsteps hnames

/-- The filter does not see how its root is spelled. -/
theorem IsBelow.shouldInclude_congr (laws : HeedsSteps) {root' : Text}
    (hsteps : Path.steps filter.root = Path.steps root') (below : filter.IsBelow d base names)
    (below' : IsBelow { filter with root := root' } d base names) :
    shouldInclude { filter with root := root' } d (pathOf { filter with root := root' } names) =
      filter.shouldInclude d (filter.pathOf names) := by
  have hrules : ∀ file : List Text, file ≠ [] → (∀ n ∈ file, IsName n) →
      verdictUp? (rulesAt d root' file) names (d.isDirectory (base ++ names)) =
        verdictUp? (rulesAt d filter.root file) names (d.isDirectory (base ++ names)) :=
    fun file ne hfile => (verdictUp?_rulesAt_congr laws below.absolute below'.absolute hsteps
      below.resolves below'.resolves ne hfile (fun _ => below.isName) _).symm
  have hown : verdictUp? (ownRules { filter with root := root' } d) names
      (d.isDirectory (base ++ names)) =
      verdictUp? (filter.ownRules d) names (d.isDirectory (base ++ names)) := by
    unfold ownRules
    split
    · exact hrules _ (by simp) (by decide)
    · rfl
  have hgit : verdictUp? (gitRules { filter with root := root' } d) names
      (d.isDirectory (base ++ names)) =
      verdictUp? (filter.gitRules d) names (d.isDirectory (base ++ names)) := by
    unfold gitRules
    split
    · exact hrules _ (by simp) (by decide)
    · rfl
  rw [below.shouldInclude_pathOf, below'.shouldInclude_pathOf, hown, hgit]
  rfl

/-- A root that is spelled with the same steps has the same sources below it. -/
theorem exists_mem_discover_of_steps_eq (laws : HeedsSteps) {path root' : Text}
    (wellNamed : d.WellNamed) (h : Path.isAbsolute filter.root = true)
    (h' : Path.isAbsolute root' = true) (hroot : d.resolve? filter.root = some base)
    (hroot' : d.resolve? root' = some base) (hsteps : Path.steps filter.root = Path.steps root')
    (hpath : path ∈ filter.discover d extensions) :
    ∃ path' ∈ discover { filter with root := root' } d extensions,
      Path.steps path = Path.steps path' := by
  obtain ⟨hwalk, hisFile, hext, hincluded⟩ := mem_discover.1 hpath
  obtain ⟨names, hne, rfl, hfile⟩ := laws.below wellNamed h hroot hwalk hisFile
  have below : filter.IsBelow d base names := ⟨h, hroot, wellNamed, hne, hfile⟩
  have below' : IsBelow { filter with root := root' } d base names :=
    ⟨h', hroot', wellNamed, hne, hfile⟩
  have hsame : Path.steps (filter.pathOf names) =
      Path.steps (pathOf { filter with root := root' } names) := by
    rw [below.steps_pathOf, below'.steps_pathOf, hsteps]
  refine ⟨_, mem_discover.2 ⟨?_, below'.pathIsFile_pathOf, ?_, ?_⟩, hsame⟩
  · exact laws.walks wellNamed h h' hsteps hroot hroot' hne hfile hwalk
  · rw [← hasExtension_congr hsame]
    exact hext
  · rw [below.shouldInclude_congr laws hsteps below']
    exact hincluded

/-! ## The search against the filter -/

/-- How the search and the filter go together on a file. -/
structure SearchAgainstFilter (filter : SourceFilter) (d : Disk) (extensions names : List Text) :
    Prop where
  /-- The search lists what the filter includes, unless gitignore rules bar the way. -/
  listed : filter.pathOf names ∈ filter.discover d extensions ↔
    filter.shouldInclude d (filter.pathOf names) = true ∧ ¬ Bars (filter.gitRules d) names
  /-- What the search misses, one of the two ignore files keeps. -/
  missed : filter.shouldInclude d (filter.pathOf names) = true →
    filter.pathOf names ∉ filter.discover d extensions →
    verdictUp? (filter.ownRules d) names false = some .kept ∨
      verdictUp? (filter.gitRules d) names false = some .kept
  /-- What the settings directory keeps, the filter includes. -/
  included : (∀ n ∈ names, filter.refusesName n = false) →
    verdictUp? (filter.ownRules d) names false = some .kept →
    filter.shouldInclude d (filter.pathOf names) = true

end

/-! ## A source that the settings directory keeps -/

/-- A project whose gitignore file ignores generated sources, of which the settings directory keeps
one. -/
def keptSource : Disk where
  files :=
    [(["proj".toList, ".gitignore".toList], "*.g.cs\n".toUTF8),
      (["proj".toList, ".csdoc".toList, "ignore".toList], "!keep.g.cs\n".toUTF8),
      (["proj".toList, "a.cs".toList], .empty), (["proj".toList, "keep.g.cs".toList], .empty)]
  directories := []

/-- The filter for that project. -/
def keptSourceFilter : SourceFilter := ({} : SourceSettings).filter "/proj".toList

/-- The project has no other ignore files. -/
theorem onlyOwnIgnores_keptSource : OnlyOwnIgnores keptSource ["proj".toList] :=
  IgnoreLibrary.onlyOwnIgnores_of_files (by decide) fun _ hpath => by cases hpath

/-- The files of the project are below its root. -/
theorem isBelow_keptSource {name : Text}
    (file : keptSource.isFile ["proj".toList, name] = true) :
    keptSourceFilter.IsBelow keptSource ["proj".toList] [name] where
  absolute := rfl
  resolves := by decide +kernel
  wellNamed := by decide
  nonempty := List.cons_ne_nil _ _
  file := file

end SourceFilter

end PartialDocs
