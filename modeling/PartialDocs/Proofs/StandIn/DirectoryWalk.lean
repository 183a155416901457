import PartialDocs.Proofs.Files.WalkLaws
import PartialDocs.Proofs.StandIn.IgnoreRules
import PartialDocs.StandIn.DirectoryWalk

/-!
# The stand-in keeps the laws

The walk of the stand-in looks for ignore files in every directory around a file; where only one of
these has any, it decides (`levelVerdict?_eq`).  From this the stand-in keeps the laws that are
relied upon of a library for ignore files (`heedsRules`, `heedsSteps`).
-/

set_option autoImplicit false

namespace PartialDocs

open PartialDocs.Path (IsName ofNames)
open PartialDocs.IgnoreLibrary (OnlyOwnIgnores HeedsRules HeedsSteps)

namespace DirectoryWalk

variable {d : Disk} {base dir place : Place} {names : List Text} {isDirectory : Bool}
  {options : WalkOptions} {globalIgnore? : Option Text}

/-! ## Rules of directories -/

/-- The rules of a directory are those of the file of the given names in it. -/
theorem lookup_rulesNamed (d : Disk) (names : List Text) (dir : Place) :
    (rulesNamed d names).lookup dir =
      (d.bytes? (dir ++ names)).map fun bytes => .ofBytes bytes.toList := by
  unfold rulesNamed Disk.bytes?
  induction d.files with
  | nil => rfl
  | cons x files ih =>
    obtain ⟨place, bytes⟩ := x
    rw [List.filterMap_cons, List.lookup_cons]
    by_cases hsuffix : names <:+ place
    · obtain ⟨front, rfl⟩ := hsuffix
      have htake : (front ++ names).take ((front ++ names).length - names.length) = front := by
        rw [List.length_append, Nat.add_sub_cancel, List.take_left]
      simp only [List.isSuffixOf_iff_suffix.2 (List.suffix_append front names), if_true, htake]
      rw [List.lookup_cons]
      by_cases hdir : dir = front
      · simp [hdir]
      · have hne : dir ++ names ≠ front ++ names := fun h => hdir (List.append_cancel_right h)
        simp only [beq_eq_false_iff_ne.2 hdir, beq_eq_false_iff_ne.2 hne]
        exact ih
    · have hne : dir ++ names ≠ place := fun h => hsuffix (h ▸ List.suffix_append dir names)
      have hnot : names.isSuffixOf place = false := by
        rw [Bool.eq_false_iff]
        exact fun h => hsuffix (List.isSuffixOf_iff_suffix.1 h)
      simp only [hnot, Bool.false_eq_true, if_false, beq_eq_false_iff_ne.2 hne]
      exact ih

/-- A directory without the file has no rules. -/
theorem lookup_rulesNamed_of_not_isFile {suffix : List Text}
    (h : d.isFile (dir ++ suffix) = false) : (rulesNamed d suffix).lookup dir = none := by
  rw [lookup_rulesNamed]
  unfold Disk.isFile at h
  rw [Option.isSome_eq_false_iff, Option.isNone_iff_eq_none] at h
  rw [h]
  rfl

/-- A level of a place cuts it in two, and the lower part is not empty. -/
theorem exists_of_mem_levels {x : Place × List Text} (h : x ∈ levels place) :
    ∃ k < place.length, x = (place.take k, place.drop k) := by
  unfold levels at h
  obtain ⟨k, hk, rfl⟩ := List.mem_map.1 (List.mem_reverse.1 h)
  exact ⟨k, List.mem_range.1 hk, rfl⟩

/-- Where no directory on the way has rules, nothing is said. -/
theorem levelVerdict?_eq_none {rules : RulesByDirectory}
    (h : ∀ dir, dir <+: place → rules.lookup dir = none) :
    levelVerdict? rules place isDirectory = none := by
  unfold levelVerdict?
  rw [List.findSome?_eq_none_iff]
  intro x hx
  obtain ⟨k, -, rfl⟩ := exists_of_mem_levels hx
  simp only [h _ (List.take_prefix k place), Option.bind_none]

/-- Where all elements but one answer nothing, that one answers. -/
theorem findSome?_eq_of_only {α β : Type} {f : α → Option β} {a : α} {l : List α} (mem : a ∈ l)
    (only : ∀ x ∈ l, x ≠ a → f x = none) : l.findSome? f = f a := by
  cases ha : f a with
  | none =>
    rw [List.findSome?_eq_none_iff]
    intro x hx
    by_cases hxa : x = a
    · rw [hxa]
      exact ha
    · exact only x hx hxa
  | some v =>
    have hsome := List.findSome?_isSome_iff.2 ⟨a, mem, Option.isSome_of_eq_some ha⟩
    obtain ⟨w, hw⟩ := Option.isSome_iff_exists.1 hsome
    obtain ⟨x, hx, hxw⟩ := List.exists_of_findSome?_eq_some hw
    by_cases hxa : x = a
    · rw [hw, ← hxw, hxa, ha]
    · rw [only x hx hxa] at hxw
      cases hxw

/-- Where only one directory on the way has rules, they decide. -/
theorem levelVerdict?_eq {rules : RulesByDirectory} (ne : names ≠ [])
    (h : ∀ dir, dir <+: base ++ names → dir ≠ base → rules.lookup dir = none) :
    levelVerdict? rules (base ++ names) isDirectory =
      (rules.lookup base).bind fun r => r.verdict? (ofNames names) isDirectory := by
  have hlen : base.length < (base ++ names).length := by
    rw [List.length_append]
    have hpos := List.length_pos_iff.2 ne
    omega
  have hmem : (base, names) ∈ levels (base ++ names) := by
    unfold levels
    rw [List.mem_reverse, List.mem_map]
    exact ⟨base.length, List.mem_range.2 hlen, by rw [List.take_left, List.drop_left]⟩
  have honly : ∀ x ∈ levels (base ++ names), x ≠ (base, names) → rules.lookup x.1 = none := by
    intro x hx hne
    obtain ⟨k, hk, rfl⟩ := exists_of_mem_levels hx
    apply h _ (List.take_prefix k _)
    intro hbase
    have hkbase : k = base.length := by
      rw [← hbase, List.length_take, Nat.min_eq_left (Nat.le_of_lt hk)]
    exact hne (by rw [hkbase, List.take_left, List.drop_left])
  apply findSome?_eq_of_only hmem
  intro x hx hne
  show (rules.lookup x.1).bind _ = none
  rw [honly x hx hne, Option.bind_none]

/-- The ignore file for every repository says nothing where it is not there. -/
theorem globalRules_eq_nil (h : ∀ path, globalIgnore? = some path → d.pathExists path = false) :
    globalRules d globalIgnore? base = [] := by
  unfold globalRules
  cases hpath : globalIgnore? with
  | none => rfl
  | some path =>
    have hnothing := h path hpath
    unfold Disk.pathExists at hnothing
    rw [Option.isSome_eq_false_iff, Option.isNone_iff_eq_none] at hnothing
    rw [Option.bind_some, hnothing]
    rfl

/-! ## What the walk comes by -/

/-- A file that is reached is passed over at no step. -/
theorem reaches_iff {rules : List RulesByDirectory} : reaches options rules base names = true ↔
    ∀ k < names.length,
      passesOver options rules (base ++ names.take (k + 1)) (k + 1 < names.length) = false := by
  unfold reaches
  rw [List.all_eq_true]
  simp only [List.mem_range, Bool.not_eq_true']

/-- What is below a directory is a file, and names lead to it. -/
theorem mem_filesBelow : names ∈ d.filesBelow base ↔
    names ≠ [] ∧ d.isFile (base ++ names) = true := by
  unfold Disk.filesBelow
  rw [List.mem_map]
  constructor
  · rintro ⟨⟨place, bytes⟩, hx, rfl⟩
    obtain ⟨hmem, hbelow⟩ := List.mem_filter.1 hx
    rw [Bool.and_eq_true, List.isPrefixOf_iff_prefix, decide_eq_true_eq] at hbelow
    obtain ⟨⟨rest, rfl⟩, hlen⟩ := hbelow
    rw [List.length_append] at hlen
    have hdrop : (base ++ rest).drop base.length = rest := List.drop_left
    simp only [hdrop]
    exact ⟨List.ne_nil_of_length_pos (by omega), Disk.isFile_of_mem hmem⟩
  · rintro ⟨hne, hfile⟩
    obtain ⟨bytes, hmem⟩ := Disk.exists_mem_of_isFile hfile
    refine ⟨(base ++ names, bytes), List.mem_filter.2 ⟨hmem, ?_⟩, List.drop_left⟩
    have hpos := List.length_pos_iff.2 hne
    rw [Bool.and_eq_true, List.isPrefixOf_iff_prefix, decide_eq_true_eq, List.length_append]
    exact ⟨List.prefix_append base names, by omega⟩

/-- The walk comes by the files below its root that it reaches. -/
theorem mem_walk {root path : Text} (hroot : d.resolve? root = some base) :
    path ∈ walk globalIgnore? d options root ↔
      ∃ names, names ≠ [] ∧ path = Path.join root (ofNames names) ∧
        d.isFile (base ++ names) = true ∧
        reaches options (rulesOnTheWay d globalIgnore? options base) base names = true := by
  unfold walk
  rw [hroot]
  simp only [List.mem_map, List.mem_filter, mem_filesBelow]
  constructor
  · rintro ⟨names, ⟨⟨hne, hfile⟩, hreaches⟩, rfl⟩
    exact ⟨names, hne, rfl, hfile, hreaches⟩
  · rintro ⟨names, hne, rfl, hfile, hreaches⟩
    exact ⟨names, ⟨⟨hne, hfile⟩, hreaches⟩, rfl⟩

end DirectoryWalk

namespace IgnoreRules

open DirectoryWalk

variable {d : Disk} {base : Place} {names : List Text} {root : Text} {options : WalkOptions}
  {globalIgnore? : Option Text}

/-- What the ignore file of a directory says is what the rules in its bytes say. -/
theorem verdictOf?_rulesAt (globalIgnore? : Option Text) (absolute : Path.isAbsolute root = true)
    (hroot : d.resolve? root = some base) (hbase : d.isDirectory base = true) {name : Text}
    (hname : IsName name) (isDirectory : Bool) :
    @IgnoreLibrary.verdictOf? (library globalIgnore?)
        (@SourceFilter.rulesAt (library globalIgnore?) d root [name]) names isDirectory =
      ((d.bytes? (base ++ [name])).map fun bytes => ofBytes bytes.toList).bind fun r =>
        r.verdict? (ofNames names) isDirectory := by
  have hsingle : ∀ n ∈ [name], IsName n := by simpa using hname
  have hstep : [name].foldlM d.step base = .ok (base ++ [name]) := by
    rw [Disk.foldlM_step_cons, Disk.step_of_isName hbase hname]
    rfl
  have hresolve := Disk.resolve?_join absolute hroot (List.cons_ne_nil name []) hsingle
  rw [hstep] at hresolve
  unfold IgnoreLibrary.verdictOf? SourceFilter.rulesAt
  rw [hresolve]
  show (((some (base ++ [name])).filter d.holds).bind _).bind _ = _
  cases hbytes : d.bytes? (base ++ [name]) with
  | none =>
    -- a directory may be there, whose rules are none
    rw [Option.filter_some]
    cases d.holds (base ++ [name]) with
    | false => rfl
    | true =>
      show IgnoreRules.verdict? ((((d.bytes? (base ++ [name])).map _).getD [])) _ _ = none
      rw [hbytes]
      rfl
  | some bytes =>
    have hholds : d.holds (base ++ [name]) = true := by
      unfold Disk.holds Disk.isFile
      rw [hbytes]
      rfl
    rw [Option.filter_some, if_pos hholds]
    show IgnoreRules.verdict? ((((d.bytes? (base ++ [name])).map _).getD [])) _ _ = _
    rw [hbytes]
    rfl

/-- Where a directory has the only ignore files, the walk follows its gitignore file. -/
theorem verdict?_rulesOnTheWay (own : @OnlyOwnIgnores (library globalIgnore?) d base)
    (ne : names ≠ []) (isDirectory : Bool) :
    DirectoryWalk.verdict? (rulesOnTheWay d globalIgnore? options base) (base ++ names)
        isDirectory =
      if options.gitIgnore then
        ((d.bytes? (base ++ [".gitignore".toList])).map fun bytes => ofBytes bytes.toList).bind
          fun r => r.verdict? (ofNames names) isDirectory
      else none := by
  let _ := library globalIgnore?
  have halong : ∀ dir, dir <+: base ++ names → dir <+: base ∨ base <+: dir :=
    fun dir hdir => List.prefix_or_prefix_of_prefix hdir (List.prefix_append base _)
  have hplain : levelVerdict? (rulesNamed d [".ignore".toList]) (base ++ names) isDirectory =
      none :=
    levelVerdict?_eq_none fun dir hdir =>
      lookup_rulesNamed_of_not_isFile (own.plain dir (halong dir hdir))
  have hgit : levelVerdict? (rulesNamed d [".gitignore".toList]) (base ++ names) isDirectory = _ :=
    levelVerdict?_eq ne fun dir hdir hbase =>
      lookup_rulesNamed_of_not_isFile (own.git dir (halong dir hdir) hbase)
  have hexclude : levelVerdict? (rulesNamed d [".git".toList, "info".toList, "exclude".toList])
      (base ++ names) isDirectory = none :=
    levelVerdict?_eq_none fun dir hdir =>
      lookup_rulesNamed_of_not_isFile (own.exclude dir (halong dir hdir))
  have hglobal : levelVerdict? (globalRules d globalIgnore? base) (base ++ names) isDirectory =
      none := by
    have hnothing : globalRules d globalIgnore? base = [] := globalRules_eq_nil own.everywhere
    rw [hnothing]
    exact levelVerdict?_eq_none fun _ _ => rfl
  rw [lookup_rulesNamed] at hgit
  unfold DirectoryWalk.verdict? rulesOnTheWay
  -- whatever is asked for besides, it says nothing
  cases options.gitIgnore <;> cases options.gitExclude <;> cases options.gitGlobal <;>
    simp only [if_true, if_false, Bool.false_eq_true, List.cons_append, List.nil_append,
      List.findSome?_cons, List.findSome?_nil, hplain, hgit, hexclude, hglobal] <;>
    cases Option.bind _ _ <;> rfl

/-- Where a directory has the only ignore files, the walk passes over what a walk passes over that
heeds the gitignore file of the directory. -/
theorem passesOver_rulesOnTheWay (absolute : Path.isAbsolute root = true)
    (hroot : d.resolve? root = some base) (hbase : d.isDirectory base = true)
    (own : @OnlyOwnIgnores (library globalIgnore?) d base) (ne : names ≠ []) (isDirectory : Bool) :
    let _ := library globalIgnore?
    DirectoryWalk.passesOver options (rulesOnTheWay d globalIgnore? options base) (base ++ names)
        isDirectory =
      IgnoreLibrary.passesOver options
        (if options.gitIgnore then SourceFilter.rulesAt d root [".gitignore".toList] else none)
        names isDirectory := by
  intro library
  have hverdict : DirectoryWalk.verdict? (rulesOnTheWay d globalIgnore? options base)
      (base ++ names) isDirectory =
      IgnoreLibrary.verdictOf?
        (if options.gitIgnore then SourceFilter.rulesAt d root [".gitignore".toList] else none)
        names isDirectory := by
    rw [verdict?_rulesOnTheWay own ne isDirectory]
    cases options.gitIgnore with
    | false => rfl
    | true =>
      exact (verdictOf?_rulesAt globalIgnore? absolute hroot hbase (by decide) isDirectory).symm
  have hlast : (base ++ names).getLast? = names.getLast? := by
    rw [List.getLast?_append, List.getLast?_eq_some_getLast ne, Option.some_or]
  unfold DirectoryWalk.passesOver IgnoreLibrary.passesOver
  rw [hverdict, hlast]

/-- **The stand-in heeds rules as a library does.** -/
theorem heedsRules (globalIgnore? : Option Text) : @HeedsRules (library globalIgnore?) :=
  @HeedsRules.mk (library globalIgnore?)
    (fun _ _ isDirectory hnames => verdictOrParent?_ofNames hnames isDirectory)
    (by
      intro d options root base names absolute hroot wellNamed own _ ne file _
      have hnames := (List.forall_mem_append.1 (wellNamed.of_isFile file)).2
      have hbase : d.isDirectory base = true := by
        have hzero := Disk.isDirectory_of_isFile file (List.length_pos_iff.2 ne)
        rwa [List.take_zero, List.append_nil] at hzero
      have hsteps : reaches options (rulesOnTheWay d globalIgnore? options base) base names =
          true ↔ _ := reaches_iff
      have htake : ∀ k < names.length, names.take (k + 1) ≠ [] := by
        intro k hk hnil
        rw [List.take_eq_nil_iff] at hnil
        simp_all
      refine (mem_walk hroot).trans (Iff.trans ⟨?_, ?_⟩ (hsteps.trans ?_))
      · rintro ⟨names', ne', hpath, file', hreaches⟩
        have hnames' := (List.forall_mem_append.1 (wellNamed.of_isFile file')).2
        rwa [Path.join_ofNames_inj absolute ne ne' hnames hnames' hpath]
      · exact fun hreaches => ⟨names, ne, rfl, file, hreaches⟩
      · refine forall₂_congr fun k hk => ?_
        rw [passesOver_rulesOnTheWay absolute hroot hbase own (htake k hk)])

/-- **The stand-in heeds the steps of paths as a library does.** -/
theorem heedsSteps (globalIgnore? : Option Text) : @HeedsSteps (library globalIgnore?) :=
  @HeedsSteps.mk (library globalIgnore?)
    (by
      intro d options root path base _ _ hroot hpath _
      obtain ⟨names, ne, rfl, file, -⟩ := (mem_walk hroot).1 hpath
      exact ⟨names, ne, rfl, file⟩)
    (by
      intro d options root root' base names wellNamed absolute _ _ hroot hroot' ne file hpath
      obtain ⟨names', ne', hpath, file', hreaches⟩ := (mem_walk hroot).1 hpath
      have hnames := (List.forall_mem_append.1 (wellNamed.of_isFile file)).2
      have hnames' := (List.forall_mem_append.1 (wellNamed.of_isFile file')).2
      obtain rfl := Path.join_ofNames_inj absolute ne ne' hnames hnames' hpath
      exact (mem_walk hroot').2 ⟨names, ne, rfl, file, hreaches⟩)
    (fun _ _ _ _ _ => rfl)

end IgnoreRules

end PartialDocs
