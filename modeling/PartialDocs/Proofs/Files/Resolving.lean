import PartialDocs.Files.Disk
import PartialDocs.Proofs.Files.Paths

/-!
# Where paths lead

What an absolute path leads to stands at the place that its steps spell
(`place_eq_placeOf`), so paths with the same steps never lead to different places.
Different steps spell different places unless one of them goes up (`steps_eq_of_not_up`).
-/

set_option autoImplicit false

namespace PartialDocs

/-- The place that a step leads to, whether or not anything is there. -/
def PathStep.next (place : Place) : PathStep → Place
  | root => []
  | here => place
  | up => place.dropLast
  | name n => place ++ [n]

/-- The place that the steps of a path spell. -/
def Path.placeOf (path : Text) : Place := (Path.steps path).foldl PathStep.next []

/-- Whether everything on a disk has a name that can stand in a path. -/
def Disk.WellNamed (d : Disk) : Prop := ∀ x ∈ d.files, ∀ n ∈ x.1, Path.IsName n

instance (d : Disk) : Decidable d.WellNamed :=
  inferInstanceAs (Decidable (∀ x ∈ d.files, ∀ n ∈ x.1, Path.IsName n))

open PartialDocs.Path (IsName solidParts stepOf ofNames)

namespace Path

variable {path : Text}

/-- Names lead from a place to the place below it. -/
theorem foldl_next_names (place : Place) (names : List Text) :
    (names.map PathStep.name).foldl PathStep.next place = place ++ names := by
  induction names generalizing place with
  | nil => exact (List.append_nil place).symm
  | cons n ns ih =>
    rw [List.map_cons, List.foldl_cons, ih]
    exact List.append_cons place n ns |>.symm

/-- Paths with the same steps lead to the same place. -/
theorem placeOf_congr {path' : Text} (h : steps path = steps path') :
    placeOf path = placeOf path' := by
  unfold placeOf
  rw [h]

/-- An absolute path leads from the root along its steps. -/
theorem placeOf_of_isAbsolute (h : isAbsolute path = true) :
    placeOf path = ((solidParts (parts path)).map stepOf).foldl PathStep.next [] := by
  unfold placeOf
  rw [steps_of_isAbsolute h]
  rfl

/-- A path that never goes up is spelled out by its place. -/
theorem steps_eq_of_not_up (h : isAbsolute path = true) (hup : .up ∉ steps path) :
    steps path = .root :: (placeOf path).map .name := by
  rw [placeOf_of_isAbsolute h]
  rw [steps_of_isAbsolute h, List.mem_cons, not_or] at hup
  rw [steps_of_isAbsolute h]
  have hnames : (solidParts (parts path)).map stepOf = (solidParts (parts path)).map .name := by
    apply List.map_congr_left
    intro p hp
    have hne : stepOf p ≠ .up := fun hstep => hup.2 (hstep ▸ List.mem_map_of_mem hp)
    unfold stepOf at hne ⊢
    split at hne
    · exact absurd rfl hne
    · next hp' => rw [if_neg hp']
  rw [hnames, foldl_next_names, List.nil_append]

end Path

namespace Disk

variable {d d' : Disk} {base place next : Place} {part root path : Text}
  {names parts : List Text}

/-- A step starts from a directory and leads where it says. -/
theorem step_eq_ok (h : d.step place part = .ok next) :
    d.isDirectory place = true ∧
      next = if Path.isVoid part then place else PathStep.next place (stepOf part) := by
  unfold step requireDirectory at h
  cases hdir : d.isDirectory place with
  | false =>
    rw [hdir] at h
    cases h
  | true =>
    rw [hdir] at h
    refine ⟨rfl, ?_⟩
    obtain rfl := Except.ok.inj h
    unfold stepOf
    split
    · rfl
    · split <;> rfl

/-- The step into a name leads below. -/
theorem step_of_isName (hdir : d.isDirectory place = true) (hn : IsName part) :
    d.step place part = .ok (place ++ [part]) := by
  unfold step requireDirectory
  rw [if_pos hdir, hn.solid]
  have hne : (part == ['.', '.']) = false := by simpa using hn.ne_up
  simp only [hne]
  rfl

/-- Parts of a path are followed one by one. -/
theorem foldlM_step_cons (place : Place) (part : Text) (parts : List Text) :
    (part :: parts).foldlM d.step place = (d.step place part).bind (parts.foldlM d.step ·) :=
  List.foldlM_cons

/-- Where a way ends, its solid parts lead, whatever is on the disk. -/
theorem eq_of_foldlM_step (h : parts.foldlM d.step place = .ok next) :
    next = ((solidParts parts).map stepOf).foldl PathStep.next place := by
  induction parts generalizing place with
  | nil => exact (Except.ok.inj h).symm
  | cons part parts ih =>
    rw [foldlM_step_cons] at h
    cases hstep : d.step place part with
    | error e =>
      rw [hstep] at h
      cases h
    | ok middle =>
      rw [hstep] at h
      have hmiddle := (step_eq_ok hstep).2
      rw [ih h]
      cases hvoid : Path.isVoid part with
      | true =>
        rw [hvoid, if_pos rfl] at hmiddle
        have hsolid : solidParts (part :: parts) = solidParts parts :=
          List.filter_cons_of_neg (by simp [hvoid])
        rw [hsolid, hmiddle]
      | false =>
        rw [hvoid, if_neg Bool.false_ne_true] at hmiddle
        have hsolid : solidParts (part :: parts) = part :: solidParts parts :=
          List.filter_cons_of_pos (by simp [hvoid])
        rw [hsolid, hmiddle]
        rfl

/-- A path leads to a place when its parts can be followed and something is there. -/
theorem resolve?_eq_some_iff : d.resolve? path = some place ↔
    d.walk (Path.parts path) = .ok place ∧ d.holds place = true := by
  unfold resolve?
  rw [Option.filter_eq_some_iff]
  cases d.walk (Path.parts path) <;> simp [Except.toOption]

/-- **An absolute path leads to the place that its steps spell.** -/
theorem place_eq_placeOf (h : Path.isAbsolute path = true)
    (hplace : d.resolve? path = some place) : place = Path.placeOf path := by
  obtain ⟨hwalk, -⟩ := resolve?_eq_some_iff.1 hplace
  rw [eq_of_foldlM_step hwalk, Path.placeOf_of_isAbsolute h]

/-! ## Below a directory -/

/-- Names lead from a directory to what is there. -/
theorem foldlM_step_names (hnames : ∀ n ∈ names, IsName n)
    (hdirs : ∀ k < names.length, d.isDirectory (base ++ names.take k) = true) :
    names.foldlM d.step base = .ok (base ++ names) := by
  induction names generalizing base with
  | nil => rw [List.append_nil]; rfl
  | cons n ns ih =>
    obtain ⟨hn, hns⟩ := List.forall_mem_cons.1 hnames
    have hbase : d.isDirectory base = true := by
      have hzero := hdirs 0 (Nat.zero_lt_succ _)
      rwa [List.take_zero, List.append_nil] at hzero
    rw [foldlM_step_cons, step_of_isName hbase hn, List.append_cons base n ns]
    apply ih hns
    intro k hk
    have hsucc := hdirs (k + 1) (Nat.succ_lt_succ hk)
    rwa [List.take_succ_cons, List.append_cons] at hsucc

/-- A file has its bytes. -/
theorem exists_mem_of_isFile (h : d.isFile place = true) : ∃ bytes, (place, bytes) ∈ d.files := by
  unfold isFile bytes? at h
  obtain ⟨bytes, hbytes⟩ := Option.isSome_iff_exists.1 h
  obtain ⟨before, after, hfiles, -⟩ := List.lookup_eq_some_iff.1 hbytes
  exact ⟨bytes, by rw [hfiles]; simp⟩

/-- What has bytes is a file. -/
theorem isFile_of_mem {bytes : ByteArray} (h : (place, bytes) ∈ d.files) :
    d.isFile place = true := by
  unfold isFile bytes?
  rw [Option.isSome_iff_ne_none]
  intro hnone
  have hne := List.lookup_eq_none_iff.1 hnone _ h
  simp at hne

/-- A file stands below names. -/
theorem WellNamed.of_isFile (h : d.WellNamed) (file : d.isFile place = true) :
    ∀ n ∈ place, IsName n := by
  obtain ⟨bytes, hmem⟩ := exists_mem_of_isFile file
  exact h _ hmem

/-- What a file stands below is a directory. -/
theorem isDirectory_of_isFile (h : d.isFile (base ++ names) = true) {k : Nat}
    (hk : k < names.length) : d.isDirectory (base ++ names.take k) = true := by
  obtain ⟨bytes, hmem⟩ := exists_mem_of_isFile h
  unfold isDirectory
  rw [Bool.or_eq_true, List.any_eq_true]
  refine .inr ⟨_, hmem, ?_⟩
  rw [Bool.and_eq_true, List.isPrefixOf_iff_prefix, decide_eq_true_eq]
  refine ⟨(List.prefix_append_right_inj base).2 (List.take_prefix k names), ?_⟩
  simp only [List.length_append, List.length_take]
  omega

/-- Names below a root are followed from where the root leads. -/
theorem resolve?_join (h : Path.isAbsolute root = true) (hroot : d.resolve? root = some base)
    (ne : names ≠ []) (hnames : ∀ n ∈ names, IsName n) :
    d.resolve? (Path.join root (ofNames names)) =
      (names.foldlM d.step base).toOption.filter d.holds := by
  obtain ⟨before, hparts, hbefore⟩ := Path.exists_parts_join_ofNames h ne hnames
  obtain ⟨hwalk, -⟩ := resolve?_eq_some_iff.1 hroot
  have hwalk' : d.walk before = .ok base := by
    obtain hroot | hroot := hbefore
    · rw [← hroot]
      exact hwalk
    · -- the void part behind the last slash stays where it is
      rw [hroot] at hwalk
      unfold walk at hwalk ⊢
      rw [List.foldlM_append] at hwalk
      cases hb : before.foldlM d.step [] with
      | error e =>
        rw [hb] at hwalk
        cases hwalk
      | ok middle =>
        rw [hb] at hwalk
        have hlast : base = middle := eq_of_foldlM_step hwalk
        rw [hlast]
  unfold resolve? walk
  unfold walk at hwalk'
  rw [hparts, List.foldlM_append, hwalk']
  rfl

/-- The names of a file below a root lead to the file. -/
theorem resolve?_join_of_isFile (h : Path.isAbsolute root = true)
    (hroot : d.resolve? root = some base) (ne : names ≠ []) (hnames : ∀ n ∈ names, IsName n)
    (file : d.isFile (base ++ names) = true) :
    d.resolve? (Path.join root (ofNames names)) = some (base ++ names) := by
  have hway := foldlM_step_names hnames fun k hk => isDirectory_of_isFile file hk
  rw [resolve?_join h hroot ne hnames, hway, Option.filter_eq_some_iff]
  refine ⟨rfl, ?_⟩
  unfold holds
  rw [file]
  rfl

end Disk

end PartialDocs
