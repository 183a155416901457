import PartialDocs.Files.Path
import PartialDocs.Proofs.Text.Cuts

/-!
# Names below a directory

Names of directories and files, joined by slashes, are read back as they were
(`steps_ofNames`, `parent?_ofNames`).  Below an absolute path they are what is left when
the steps of that path are taken away (`relativeTo_join`).
-/

set_option autoImplicit false

namespace PartialDocs.Path

/-- A text that can name something in a directory. -/
structure IsName (n : Text) : Prop where
  not_mem : '/' ∉ n
  solid : isVoid n = false
  ne_up : n ≠ ['.', '.']

/-- The texts between slashes that are steps. -/
def solidParts (ps : List Text) : List Text := ps.filter fun p => !isVoid p

variable {root s n : Text} {names names' : List Text}

instance (n : Text) : Decidable (IsName n) :=
  decidable_of_iff ('/' ∉ n ∧ isVoid n = false ∧ n ≠ ['.', '.'])
    ⟨fun h => ⟨h.1, h.2.1, h.2.2⟩, fun h => ⟨h.not_mem, h.solid, h.ne_up⟩⟩

/-- A name is not empty. -/
theorem IsName.ne_nil (h : IsName n) : n ≠ [] := by
  rintro rfl
  cases h.solid

/-- A name is not a dot. -/
theorem IsName.ne_here (h : IsName n) : n ≠ ['.'] := by
  rintro rfl
  cases h.solid

/-- A name is the step into it. -/
theorem IsName.stepOf_eq (h : IsName n) : stepOf n = .name n := by
  unfold stepOf
  rw [if_neg]
  simpa using h.ne_up

/-- The solid parts of parts beside each other. -/
theorem solidParts_append (ps qs : List Text) :
    solidParts (ps ++ qs) = solidParts ps ++ solidParts qs :=
  List.filter_append ps qs

/-- Names are solid. -/
theorem solidParts_of_names (h : ∀ n ∈ names, IsName n) : solidParts names = names := by
  apply List.filter_eq_self.2
  intro n hn
  rw [(h n hn).solid]
  rfl

/-- Names are the steps into them. -/
theorem map_stepOf_of_names (h : ∀ n ∈ names, IsName n) :
    names.map stepOf = names.map .name := by
  apply List.map_congr_left
  intro n hn
  exact (h n hn).stepOf_eq

/-- Names are not void. -/
theorem dropWhile_isVoid_of_names (h : ∀ n ∈ names, IsName n) :
    names.dropWhile isVoid = names := by
  cases names with
  | nil => rfl
  | cons n ns =>
    apply List.dropWhile_cons_of_neg
    rw [(h n List.mem_cons_self).solid]
    exact Bool.false_ne_true

/-- Names are not trimmed. -/
theorem trimParts_of_names (h : ∀ n ∈ names, IsName n) : trimParts names = names := by
  unfold trimParts
  rw [dropWhile_isVoid_of_names (by simpa using h), List.reverse_reverse]

/-! ## Names as a path -/

/-- The parts of names between slashes are the names. -/
theorem parts_ofNames (ne : names ≠ []) (h : ∀ n ∈ names, IsName n) :
    parts (ofNames names) = names := by
  unfold parts ofNames
  rw [Text.splitOn_joinWith '/' ne]
  exact Text.flatMap_splitOn_of_not_mem fun n hn => (h n hn).not_mem

/-- Names between slashes have no start of their own. -/
theorem splitStart_ofNames (h : ∀ n ∈ names, IsName n) :
    splitStart (ofNames names) = ([], ofNames names) := by
  by_cases ne : names = []
  · rw [ne]
    rfl
  have hparts := parts_ofNames ne h
  unfold splitStart
  split
  · next rest hs =>
    have hmem : [] ∈ names := by
      rw [← hparts, hs]
      simp [parts, Text.splitOn]
    exact absurd rfl (h _ hmem).ne_nil
  · next hs =>
    have hmem : ['.'] ∈ names := by
      rw [← hparts, hs]
      simp [parts, Text.splitOn, Text.consFirst]
    exact absurd rfl (h _ hmem).ne_here
  · next rest hs =>
    have hmem : ['.'] ∈ names := by
      rw [← hparts, hs]
      simp [parts, Text.splitOn, Text.consFirst]
    exact absurd rfl (h _ hmem).ne_here
  · rfl

/-- The steps of names between slashes are the steps into them. -/
theorem steps_ofNames (h : ∀ n ∈ names, IsName n) : steps (ofNames names) = names.map .name := by
  unfold steps
  rw [splitStart_ofNames h]
  by_cases ne : names = []
  · rw [ne]
    rfl
  · show ((parts (ofNames names)).filter _).map stepOf = _
    rw [parts_ofNames ne h]
    have hsolid := solidParts_of_names h
    unfold solidParts at hsolid
    rw [hsolid, map_stepOf_of_names h]

/-- Names can be told from the path of them. -/
theorem ofNames_inj (h : ∀ n ∈ names, IsName n) (h' : ∀ n ∈ names', IsName n)
    (same : ofNames names = ofNames names') : names = names' := by
  have hsteps : names.map PathStep.name = names'.map PathStep.name := by
    rw [← steps_ofNames h, ← steps_ofNames h', same]
  exact (List.map_inj_right fun _ _ hn => PathStep.name.inj hn).1 hsteps

/-- The parent of a path of names is the path without the last one. -/
theorem parent?_ofNames (h : ∀ n ∈ names, IsName n) (hn : IsName n) :
    parent? (ofNames (names ++ [n])) = some (ofNames names) := by
  have hall : ∀ m ∈ names ++ [n], IsName m := by
    intro m hm
    obtain hm | hm := List.mem_append.1 hm
    · exact h m hm
    · rw [List.mem_singleton.1 hm]
      exact hn
  unfold parent?
  rw [splitStart_ofNames hall]
  simp only
  rw [parts_ofNames (by simp) hall, trimParts_of_names hall, List.reverse_concat]
  simp only
  rw [List.reverse_reverse, trimParts_of_names h]
  rfl

/-! ## Absolute paths -/

/-- A path of names is not absolute. -/
theorem not_isAbsolute_ofNames (h : ∀ n ∈ names, IsName n) :
    isAbsolute (ofNames names) = false := by
  have hsplit := splitStart_ofNames h
  unfold isAbsolute
  split
  · next rest hs =>
    rw [hs] at hsplit
    cases hsplit
  · rfl

/-- A slash in front makes an empty part. -/
theorem parts_cons_slash (body : Text) : parts ('/' :: body) = [] :: parts body := by
  simp [parts, Text.splitOn]

/-- An absolute path begins with a slash. -/
theorem exists_body (h : isAbsolute s = true) : ∃ body, s = '/' :: body := by
  unfold isAbsolute at h
  split at h
  · exact ⟨_, rfl⟩
  · cases h

/-- The steps of an absolute path begin at the root. -/
theorem steps_of_isAbsolute (h : isAbsolute s = true) :
    steps s = .root :: (solidParts (parts s)).map stepOf := by
  obtain ⟨body, rfl⟩ := exists_body h
  rw [parts_cons_slash]
  rfl

/-- What is joined to an absolute path is absolute. -/
theorem isAbsolute_join (h : isAbsolute root = true) (s : Text) :
    isAbsolute (join root s) = true := by
  unfold join
  split
  · assumption
  · obtain ⟨body, rfl⟩ := exists_body h
    split <;> rfl

/-- A path below a directory has the texts between slashes of both, without the one behind a slash
at the end of the directory. -/
theorem exists_parts_join (h : isAbsolute root = true) (hs : isAbsolute s = false) :
    ∃ before, parts (join root s) = before ++ parts s ∧
      (parts root = before ∨ parts root = before ++ [[]]) := by
  unfold join
  rw [if_neg (by rw [hs]; exact Bool.false_ne_true)]
  split
  · next hlast =>
    rw [List.getLast?_eq_none_iff.1 hlast] at h
    cases h
  · next hlast =>
    obtain ⟨front, hfront⟩ := List.getLast?_eq_some_iff.1 hlast
    refine ⟨parts front, ?_, .inr ?_⟩
    · rw [hfront, List.append_assoc]
      exact Text.splitOn_append_cons '/' front s
    · rw [hfront]
      exact Text.splitOn_append_cons '/' front []
  · exact ⟨parts root, Text.splitOn_append_cons '/' root s, .inl rfl⟩

/-- The parts of names below an absolute root: those of the root, but for a slash at its end, and
the names. -/
theorem exists_parts_join_ofNames (h : isAbsolute root = true) (ne : names ≠ [])
    (hnames : ∀ n ∈ names, IsName n) :
    ∃ before, parts (join root (ofNames names)) = before ++ names ∧
      (parts root = before ∨ parts root = before ++ [[]]) := by
  have hjoin := exists_parts_join h (not_isAbsolute_ofNames hnames)
  rw [parts_ofNames ne hnames] at hjoin
  exact hjoin

/-- A slash at the end does not matter to the solid parts. -/
theorem solidParts_of_before {before : List Text}
    (h : parts root = before ∨ parts root = before ++ [[]]) :
    solidParts (parts root) = solidParts before := by
  obtain h | h := h
  · rw [h]
  · rw [h, solidParts_append]
    exact List.append_nil _

/-- The steps of a name below a directory. -/
theorem steps_join (h : isAbsolute root = true) (ne : names ≠ [])
    (hnames : ∀ n ∈ names, IsName n) :
    steps (join root (ofNames names)) = steps root ++ names.map .name := by
  obtain ⟨before, hparts, hbefore⟩ := exists_parts_join_ofNames h ne hnames
  rw [steps_of_isAbsolute (isAbsolute_join h _), steps_of_isAbsolute h, hparts,
    solidParts_of_before hbefore, solidParts_append, solidParts_of_names hnames, List.map_append,
    map_stepOf_of_names hnames]
  rfl

/-! ## What is left below a root -/

/-- A void part is no step to drop. -/
theorem dropSteps_cons_void (k : Nat) {p : Text} (hp : isVoid p = true) (ps : List Text) :
    dropSteps k (p :: ps) = dropSteps k ps := by
  cases k <;> simp [dropSteps, hp]

/-- When the steps of a beginning are dropped, the rest is left without void parts in front. -/
theorem dropSteps_append (ps qs : List Text) :
    dropSteps (solidParts ps).length (ps ++ qs) = qs.dropWhile isVoid := by
  induction ps with
  | nil => rfl
  | cons p ps ih =>
    cases hp : isVoid p with
    | true =>
      have hsolid : solidParts (p :: ps) = solidParts ps := List.filter_cons_of_neg (by simp [hp])
      rw [hsolid, List.cons_append, dropSteps_cons_void _ hp]
      exact ih
    | false =>
      have hsolid : solidParts (p :: ps) = p :: solidParts ps :=
        List.filter_cons_of_pos (by simp [hp])
      rw [hsolid, List.length_cons, List.cons_append]
      unfold dropSteps
      rw [List.dropWhile_cons_of_neg (by simp [hp]), List.drop_one, List.tail_cons]
      exact ih

/-- A path that names lead to from a root is those names as seen from the root. -/
theorem relativeTo_join (h : isAbsolute root = true) (ne : names ≠ [])
    (hnames : ∀ n ∈ names, IsName n) :
    relativeTo root (join root (ofNames names)) = ofNames names := by
  obtain ⟨before, hparts, hbefore⟩ := exists_parts_join_ofNames h ne hnames
  obtain ⟨body, hbody⟩ := exists_body (isAbsolute_join h (ofNames names))
  have hsteps := steps_join h ne hnames
  have hroot := steps_of_isAbsolute h
  have hprefix : (steps root).isPrefixOf (steps (join root (ofNames names))) = true := by
    rw [hsteps, List.isPrefixOf_iff_prefix]
    exact List.prefix_append _ _
  have hcount : (steps root).length - 1 = (solidParts before).length := by
    rw [hroot, solidParts_of_before hbefore, List.length_cons, List.length_map]
    rfl
  have hdrop : dropSteps ((steps root).length - 1) (parts body) = names := by
    rw [← dropSteps_cons_void _ (show isVoid [] = true from rfl), ← parts_cons_slash, ← hbody,
      hparts, hcount, dropSteps_append, dropWhile_isVoid_of_names hnames]
  have hne : (steps root).isEmpty = false := by
    rw [hroot]
    rfl
  rw [hbody] at hprefix
  unfold relativeTo stripPrefix?
  rw [hbody]
  simp only [splitStart, startStep, hne, List.length_singleton]
  rw [if_pos hprefix, if_neg Bool.false_ne_true, hdrop, trimParts_of_names hnames]
  rfl

/-- From one root different names lead along different paths. -/
theorem join_ofNames_inj {names' : List Text} (h : isAbsolute root = true) (ne : names ≠ [])
    (ne' : names' ≠ []) (hnames : ∀ n ∈ names, IsName n) (hnames' : ∀ n ∈ names', IsName n)
    (hpath : join root (ofNames names) = join root (ofNames names')) : names = names' := by
  have hrelative : ofNames names = ofNames names' := by
    rw [← relativeTo_join h ne hnames, hpath, relativeTo_join h ne' hnames']
  exact ofNames_inj hnames hnames' hrelative

end PartialDocs.Path
