import PartialDocs.Files.SourceFilter
import PartialDocs.Proofs.Files.Resolving

/-!
# What is relied upon of a library for ignore files

Everything that is proved about the filter and the search holds of any library that keeps the laws
of this module.  `HeedsRules` is about rules: what they make of the directories around a path, and
which files a walk comes by where a directory has the only ignore files.  `HeedsSteps` is about
paths: a walk names what is below its root, and only the steps of a root count, not how they are
spelled.
-/

set_option autoImplicit false

namespace PartialDocs

open PartialDocs.Path (IsName ofNames)

namespace IgnoreLibrary

variable [IgnoreLibrary] {rules : Option Rules} {names : List Text}

/-- What rules say of what names lead to.  Where there are no rules, nothing is said. -/
def verdictOf? (rules : Option Rules) (names : List Text) (isDirectory : Bool) : Option Verdict :=
  rules.bind fun r => verdict? r (ofNames names) isDirectory

/-- What rules say of what names lead to or of the directories around it. -/
def verdictUp? (rules : Option Rules) (names : List Text) (isDirectory : Bool) : Option Verdict :=
  rules.bind fun r => verdictOrParent? r (ofNames names) isDirectory

/-- Whether rules ignore what some names lead to, or a directory on the way. -/
def Bars (rules : Option Rules) (names : List Text) : Prop :=
  ∃ k < names.length,
    verdictOf? rules (names.take (k + 1)) (k + 1 < names.length) = some .ignored

/-- Whether a walk passes over what names lead to below a directory with the given rules.  What they
say nothing of is passed over if it is hidden. -/
def passesOver (options : WalkOptions) (rules : Option Rules) (names : List Text)
    (isDirectory : Bool) : Bool :=
  Verdict.passesOver (verdictOf? rules names isDirectory)
    (options.skipHidden && names.getLast?.any SourceFilter.isHidden)

/-- A directory in which the only ignore files that count below it are its own. -/
structure OnlyOwnIgnores (d : Disk) (base : Place) : Prop where
  plain : ∀ dir, dir <+: base ∨ base <+: dir → d.isFile (dir ++ [".ignore".toList]) = false
  git : ∀ dir, dir <+: base ∨ base <+: dir → dir ≠ base →
    d.isFile (dir ++ [".gitignore".toList]) = false
  exclude : ∀ dir, dir <+: base ∨ base <+: dir →
    d.isFile (dir ++ [".git".toList, "info".toList, "exclude".toList]) = false
  everywhere : ∀ path, globalIgnore? = some path → d.pathExists path = false

/-- The condition on a directory, asked of all files of a disk. -/
theorem onlyOwnIgnores_of_files {d : Disk} {base : Place}
    (h : ∀ x ∈ d.files, [".ignore".toList].isSuffixOf x.1 = false ∧
      ([".gitignore".toList].isSuffixOf x.1 = true → x.1 = base ++ [".gitignore".toList]) ∧
      [".git".toList, "info".toList, "exclude".toList].isSuffixOf x.1 = false)
    (everywhere : ∀ path, globalIgnore? = some path → d.pathExists path = false) :
    OnlyOwnIgnores d base := by
  have hfree : ∀ (dir suffix : List Text), (∀ x ∈ d.files, dir ++ suffix ≠ x.1) →
      d.isFile (dir ++ suffix) = false := by
    intro dir suffix hne
    rw [Bool.eq_false_iff]
    intro hfile
    obtain ⟨bytes, hmem⟩ := Disk.exists_mem_of_isFile hfile
    exact hne _ hmem rfl
  have hsuffix : ∀ dir suffix : List Text, suffix.isSuffixOf (dir ++ suffix) = true :=
    fun dir suffix => List.isSuffixOf_iff_suffix.2 (List.suffix_append dir suffix)
  constructor
  · intro dir _
    apply hfree
    intro x hx hdir
    have hplain := (h x hx).1
    rw [← hdir, hsuffix] at hplain
    cases hplain
  · intro dir _ hbase
    apply hfree
    intro x hx hdir
    have hgit := (h x hx).2.1
    rw [← hdir] at hgit
    exact hbase (List.append_cancel_right (hgit (hsuffix _ _)))
  · intro dir _
    apply hfree
    intro x hx hdir
    have hexclude := (h x hx).2.2
    rw [← hdir, hsuffix] at hexclude
    cases hexclude
  · exact everywhere

/-- What is known of rules and of a walk that heeds them. -/
structure HeedsRules : Prop where
  /-- Rules that say nothing of a path itself are asked about the directories around it, the nearest
  first. -/
  parents : ∀ (rules : Rules) (names : List Text) (isDirectory : Bool), (∀ n ∈ names, IsName n) →
    verdictOrParent? rules (ofNames names) isDirectory =
      (verdict? rules (ofNames names) isDirectory).or
        ((List.range names.length).reverse.findSome? fun k =>
          verdict? rules (ofNames (names.take k)) true)
  /-- Where a directory has the only ignore files, a walk comes by a file below it unless it passes
  over the file or over a directory on the way. -/
  files : ∀ {d : Disk} {options : WalkOptions} {root : Text} {base : Place} {names : List Text},
    Path.isAbsolute root = true → d.resolve? root = some base → d.WellNamed →
    OnlyOwnIgnores d base → options.requireRepository = false → names ≠ [] →
    d.isFile (base ++ names) = true → d.isDirectory (base ++ names) = false →
    (Path.join root (ofNames names) ∈ walk d options root ↔
      ∀ k < names.length,
        passesOver options
          (if options.gitIgnore then SourceFilter.rulesAt d root [".gitignore".toList] else none)
          (names.take (k + 1)) (k + 1 < names.length) = false)

/-- What is known of a walk and of rules where a root is spelled in several ways. -/
structure HeedsSteps : Prop where
  /-- A walk over a directory comes only by files below it. -/
  below : ∀ {d : Disk} {options : WalkOptions} {root path : Text} {base : Place},
    d.WellNamed → Path.isAbsolute root = true → d.resolve? root = some base →
    path ∈ walk d options root → d.pathIsFile path = true →
    ∃ names, names ≠ [] ∧ path = Path.join root (ofNames names) ∧ d.isFile (base ++ names) = true
  /-- A walk from a root that is spelled with the same steps comes by the same files. -/
  walks : ∀ {d : Disk} {options : WalkOptions} {root root' : Text} {base : Place}
    {names : List Text}, d.WellNamed → Path.isAbsolute root = true →
    Path.isAbsolute root' = true → Path.steps root = Path.steps root' →
    d.resolve? root = some base → d.resolve? root' = some base → names ≠ [] →
    d.isFile (base ++ names) = true → Path.join root (ofNames names) ∈ walk d options root →
    Path.join root' (ofNames names) ∈ walk d options root'
  /-- Rules for a root that is spelled with the same steps say the same of what is below it. -/
  rules : ∀ {root root' : Text} (contents : Option ByteArray) (names : List Text)
    (isDirectory : Bool), Path.steps root = Path.steps root' → (∀ n ∈ names, IsName n) →
    verdictUp? (rules? root contents) names isDirectory =
      verdictUp? (rules? root' contents) names isDirectory

/-- Rules that bar the way to a path say something of the path or of a directory around it. -/
theorem Bars.isSome (laws : HeedsRules) (h : Bars rules names) (hnames : ∀ n ∈ names, IsName n) :
    (verdictUp? rules names false).isSome = true := by
  obtain ⟨k, hk, hbars⟩ := h
  obtain ⟨r, rfl, hv⟩ := Option.bind_eq_some_iff.1 hbars
  show (verdictOrParent? r (ofNames names) false).isSome = true
  rw [laws.parents r names false hnames, Option.isSome_or, Bool.or_eq_true]
  by_cases hlast : k + 1 = names.length
  · rw [hlast, List.take_length, decide_eq_false (Nat.lt_irrefl _)] at hv
    rw [hv]
    exact .inl rfl
  · -- the directory that is ignored is one of those around the path
    have hlt : k + 1 < names.length := by omega
    rw [decide_eq_true hlt] at hv
    refine .inr (List.findSome?_isSome_iff.2 ⟨k + 1, ?_, Option.isSome_of_eq_some hv⟩)
    exact List.mem_reverse.2 (List.mem_range.2 hlt)

/-- Rules that bar the way to a path and yet do not ignore it keep it. -/
theorem Bars.kept (laws : HeedsRules) (h : Bars rules names) (hnames : ∀ n ∈ names, IsName n)
    (not : verdictUp? rules names false ≠ some .ignored) :
    verdictUp? rules names false = some .kept := by
  obtain ⟨v, hv⟩ := Option.isSome_iff_exists.1 (h.isSome laws hnames)
  cases v with
  | ignored => exact absurd hv not
  | kept => exact hv

end IgnoreLibrary

end PartialDocs
