import PartialDocs.Files.Sources

/-!
# The order of paths

Paths are compared step by step, and those with the same steps are level.  Sorting paths
and leaving out repeated steps leaves a strictly ascending list (`ascending_dropRepeats`),
and such a list is determined, up to the spelling of each path, by the steps that occur
(`map_steps_eq_of_ascending`).
-/

set_option autoImplicit false

namespace PartialDocs

namespace Text

/-- Texts of which each sorts by the other are the same. -/
theorem sortsBy_antisymm {s t : Text} (h : sortsBy s t = true) (h' : sortsBy t s = true) :
    s = t := by
  unfold sortsBy at h h'
  rw [Bool.not_eq_true', List.lex_eq_false_iff_ge] at h h'
  exact List.le_antisymm h h'

/-- Texts are sorted transitively. -/
theorem sortsBy_trans {s t u : Text} (h : sortsBy s t = true) (h' : sortsBy t u = true) :
    sortsBy s u = true := by
  unfold sortsBy at h h' ⊢
  rw [Bool.not_eq_true', List.lex_eq_false_iff_ge] at h h' ⊢
  exact List.le_trans h h'

/-- Of two texts one sorts by the other. -/
theorem sortsBy_total (s t : Text) : sortsBy s t = true ∨ sortsBy t s = true := by
  unfold sortsBy
  rw [Bool.not_eq_true', Bool.not_eq_true', List.lex_eq_false_iff_ge, List.lex_eq_false_iff_ge]
  exact List.le_total s t

end Text

namespace PathStep

/-- A step comes before another one by its rank, or by its name if they have one rank. -/
theorem le_iff (a b : PathStep) : a.le b = true ↔
    a.rank < b.rank ∨ a.rank = b.rank ∧ Text.sortsBy a.nameOf b.nameOf = true := by
  unfold le
  split
  · next h => simp [h]
  · next h =>
    rw [decide_eq_true_eq]
    simp only [h, false_and, or_false]
    omega

/-- A step is told by its rank and its name. -/
theorem eq_of_rank_eq {a b : PathStep} (hrank : a.rank = b.rank) (hname : a.nameOf = b.nameOf) :
    a = b := by
  cases a <;> cases b
  case name.name => exact congrArg name hname
  all_goals first | rfl | cases hrank

/-- Steps of which each comes before the other are the same. -/
theorem le_antisymm {a b : PathStep} (h : a.le b = true) (h' : b.le a = true) : a = b := by
  rw [le_iff] at h h'
  obtain h | ⟨hrank, hname⟩ := h
  · obtain h' | ⟨hrank, -⟩ := h' <;> omega
  · obtain h' | ⟨-, hname'⟩ := h'
    · omega
    · exact eq_of_rank_eq hrank (Text.sortsBy_antisymm hname hname')

/-- Steps are sorted transitively. -/
theorem le_trans {a b c : PathStep} (h : a.le b = true) (h' : b.le c = true) :
    a.le c = true := by
  rw [le_iff] at h h' ⊢
  obtain h | ⟨h, hname⟩ := h
  · exact .inl (by omega)
  · obtain h' | ⟨h', hname'⟩ := h'
    · exact .inl (by omega)
    · exact .inr ⟨h.trans h', Text.sortsBy_trans hname hname'⟩

/-- Of two steps one comes before the other. -/
theorem le_total (a b : PathStep) : a.le b = true ∨ b.le a = true := by
  rw [le_iff, le_iff]
  obtain h | h | h := Nat.lt_trichotomy a.rank b.rank
  · exact .inl (.inl h)
  · obtain hname | hname := Text.sortsBy_total a.nameOf b.nameOf
    · exact .inl (.inr ⟨h, hname⟩)
    · exact .inr (.inr ⟨h.symm, hname⟩)
  · exact .inr (.inl h)

end PathStep

namespace Path

/-- Steps are compared by the first place where they differ. -/
theorem stepsLe_cons (a b : PathStep) (as bs : List PathStep) :
    stepsLe (a :: as) (b :: bs) = true ↔
      a = b ∧ stepsLe as bs = true ∨ a ≠ b ∧ a.le b = true := by
  rw [stepsLe]
  split
  · next h => simp [h]
  · next h => simp [h]

/-- Lists of steps of which each comes before the other are the same. -/
theorem stepsLe_antisymm {as bs : List PathStep} (h : stepsLe as bs = true)
    (h' : stepsLe bs as = true) : as = bs := by
  induction as generalizing bs with
  | nil =>
    cases bs with
    | nil => rfl
    | cons b bs => cases h'
  | cons a as ih =>
    cases bs with
    | nil => cases h
    | cons b bs =>
      rw [stepsLe_cons] at h h'
      obtain ⟨rfl, hrest⟩ | ⟨hne, hle⟩ := h
      · obtain ⟨-, hrest'⟩ | ⟨hne', -⟩ := h'
        · rw [ih hrest hrest']
        · exact absurd rfl hne'
      · obtain ⟨heq, -⟩ | ⟨-, hle'⟩ := h'
        · exact absurd heq.symm hne
        · exact absurd (PathStep.le_antisymm hle hle') hne

/-- Lists of steps are sorted transitively. -/
theorem stepsLe_trans {as bs cs : List PathStep} (h : stepsLe as bs = true)
    (h' : stepsLe bs cs = true) : stepsLe as cs = true := by
  induction as generalizing bs cs with
  | nil => rfl
  | cons a as ih =>
    cases bs with
    | nil => cases h
    | cons b bs =>
      cases cs with
      | nil => cases h'
      | cons c cs =>
        rw [stepsLe_cons] at h h' ⊢
        obtain ⟨rfl, hrest⟩ | ⟨hne, hle⟩ := h
        · obtain ⟨rfl, hrest'⟩ | hlater := h'
          · exact .inl ⟨rfl, ih hrest hrest'⟩
          · exact .inr hlater
        · obtain ⟨rfl, -⟩ | ⟨hne', hle'⟩ := h'
          · exact .inr ⟨hne, hle⟩
          · refine .inr ⟨?_, PathStep.le_trans hle hle'⟩
            rintro rfl
            exact hne (PathStep.le_antisymm hle hle')

/-- Of two lists of steps one comes before the other. -/
theorem stepsLe_total (as bs : List PathStep) :
    stepsLe as bs = true ∨ stepsLe bs as = true := by
  induction as generalizing bs with
  | nil => exact .inl rfl
  | cons a as ih =>
    cases bs with
    | nil => exact .inr rfl
    | cons b bs =>
      rw [stepsLe_cons, stepsLe_cons]
      by_cases h : a = b
      · obtain hrest | hrest := ih bs
        · exact .inl (.inl ⟨h, hrest⟩)
        · exact .inr (.inl ⟨h.symm, hrest⟩)
      · obtain hle | hle := PathStep.le_total a b
        · exact .inl (.inr ⟨h, hle⟩)
        · exact .inr (.inr ⟨Ne.symm h, hle⟩)

/-- Paths are sorted transitively. -/
theorem le_trans (p q r : Text) (h : le p q = true) (h' : le q r = true) : le p r = true :=
  stepsLe_trans h h'

/-- Of two paths one comes before the other. -/
theorem le_total (p q : Text) : (le p q || le q p) = true :=
  Bool.or_eq_true_iff.2 (stepsLe_total (steps p) (steps q))

/-- Paths are the same when their steps are. -/
theorem same_iff {p q : Text} : same p q = true ↔ steps p = steps q := beq_iff_eq

end Path

/-! ## Leaving out repeated steps -/

namespace SourceText

open PartialDocs.Path (le steps stepsLe)

/-- Whether paths are sorted and no two have the same steps. -/
def Ascending (l : List Text) : Prop := l.Pairwise fun p q => le p q = true ∧ steps p ≠ steps q

variable {l l' : List Text}

/-- The first path is kept, and the next one goes if it has the same steps. -/
theorem dropRepeats_cons (p : Text) (l : List Text) :
    ∃ rest, dropRepeats (p :: l) = p :: rest ∧
      ((rest = dropRepeats l ∧ ∀ q ∈ rest.head?, steps p ≠ steps q) ∨
        ∃ q, dropRepeats l = q :: rest ∧ steps p = steps q) := by
  cases hl : dropRepeats l with
  | nil => exact ⟨[], by rw [dropRepeats, hl], .inl ⟨rfl, by simp⟩⟩
  | cons q more =>
    by_cases hsame : Path.same p q = true
    · refine ⟨more, ?_, .inr ⟨q, rfl, Path.same_iff.1 hsame⟩⟩
      rw [dropRepeats, hl]
      exact congrArg (p :: ·) (if_pos hsame)
    · refine ⟨q :: more, ?_, .inl ⟨rfl, ?_⟩⟩
      · rw [dropRepeats, hl]
        exact congrArg (p :: ·) (if_neg hsame)
      · intro r hr
        obtain rfl := Option.some.inj hr
        exact fun hsteps => hsame (Path.same_iff.2 hsteps)

/-- The paths that are kept stay in their order. -/
theorem dropRepeats_sublist (l : List Text) : (dropRepeats l).Sublist l := by
  induction l with
  | nil => exact List.Sublist.refl _
  | cons p l ih =>
    obtain ⟨rest, hrest, hcases⟩ := dropRepeats_cons p l
    rw [hrest]
    apply List.Sublist.cons_cons
    obtain ⟨rfl, -⟩ | ⟨q, hq, -⟩ := hcases
    · exact ih
    · rw [hq] at ih
      exact (List.sublist_cons_self q rest).trans ih

/-- The paths that are kept were there before they were sorted. -/
theorem mem_of_mem_dropRepeats {p : Text} (h : p ∈ dropRepeats (l.mergeSort le)) : p ∈ l :=
  List.mem_mergeSort.1 ((dropRepeats_sublist _).subset h)

/-- Every path is kept in some spelling. -/
theorem exists_mem_dropRepeats {p : Text} (h : p ∈ l) :
    ∃ q ∈ dropRepeats l, steps q = steps p := by
  induction l with
  | nil => cases h
  | cons p' l ih =>
    obtain ⟨rest, hrest, hcases⟩ := dropRepeats_cons p' l
    rw [hrest]
    obtain rfl | h := List.mem_cons.1 h
    · exact ⟨p, List.mem_cons_self, rfl⟩
    · obtain ⟨q, hq, hsteps⟩ := ih h
      obtain ⟨rfl, -⟩ | ⟨first, hfirst, hsame⟩ := hcases
      · exact ⟨q, List.mem_cons_of_mem _ hq, hsteps⟩
      · rw [hfirst] at hq
        obtain rfl | hq := List.mem_cons.1 hq
        · exact ⟨p', List.mem_cons_self, hsame.trans hsteps⟩
        · exact ⟨q, List.mem_cons_of_mem _ hq, hsteps⟩

/-- Of sorted paths, no two with the same steps are kept. -/
theorem ascending_dropRepeats_of_sorted (sorted : l.Pairwise fun p q => le p q = true) :
    Ascending (dropRepeats l) := by
  unfold Ascending
  induction l with
  | nil => exact List.Pairwise.nil
  | cons p l ih =>
    obtain ⟨hfirst, hl⟩ := List.pairwise_cons.1 sorted
    have hkept := ih hl
    have hle : ∀ q ∈ dropRepeats l, le p q = true := fun q hq =>
      hfirst q ((dropRepeats_sublist l).subset hq)
    obtain ⟨rest, hrest, hcases⟩ := dropRepeats_cons p l
    rw [hrest]
    obtain ⟨rfl, hhead⟩ | ⟨q, hq, hsame⟩ := hcases
    · refine List.pairwise_cons.2 ⟨fun q hq => ⟨hle q hq, ?_⟩, hkept⟩
      intro hsteps
      cases hl : dropRepeats l with
      | nil =>
        rw [hl] at hq
        cases hq
      | cons first more =>
        rw [hl] at hq hkept hhead hle
        have hne := hhead first rfl
        obtain rfl | hmore := List.mem_cons.1 hq
        · exact hne hsteps
        · -- the first one stands between two paths with the same steps
          have hbefore : le first q = true := ((List.pairwise_cons.1 hkept).1 q hmore).1
          have hafter : le q first = true := by
            have hp := hle first List.mem_cons_self
            unfold le at hp ⊢
            rwa [← hsteps]
          exact hne (hsteps.trans (Path.stepsLe_antisymm hafter hbefore))
    · rw [hq] at hkept hle
      obtain ⟨hq', hrest'⟩ := List.pairwise_cons.1 hkept
      refine List.pairwise_cons.2 ⟨?_, hrest'⟩
      intro r hr
      exact ⟨hle r (List.mem_cons_of_mem _ hr), hsame ▸ (hq' r hr).2⟩

/-- Sorted paths without repeats ascend. -/
theorem ascending_dropRepeats (l : List Text) : Ascending (dropRepeats (l.mergeSort le)) :=
  ascending_dropRepeats_of_sorted (List.pairwise_mergeSort Path.le_trans Path.le_total l)

/-- The steps of paths that ascend do so strictly. -/
theorem Ascending.pairwise_map_steps (h : Ascending l) :
    (l.map steps).Pairwise fun as bs => stepsLe as bs = true ∧ as ≠ bs :=
  List.pairwise_map.2 h

/-- Ascending paths are determined, up to spelling, by the steps that occur. -/
theorem map_steps_eq_of_ascending (hl : Ascending l) (hl' : Ascending l')
    (h : ∀ p ∈ l, ∃ q ∈ l', steps p = steps q) (h' : ∀ q ∈ l', ∃ p ∈ l, steps q = steps p) :
    l.map steps = l'.map steps := by
  have hmem : ∀ as, as ∈ l.map steps ↔ as ∈ l'.map steps := by
    intro as
    simp only [List.mem_map]
    constructor
    · rintro ⟨p, hp, rfl⟩
      obtain ⟨q, hq, hsteps⟩ := h p hp
      exact ⟨q, hq, hsteps.symm⟩
    · rintro ⟨q, hq, rfl⟩
      obtain ⟨p, hp, hsteps⟩ := h' q hq
      exact ⟨p, hp, hsteps.symm⟩
  have hperm := (List.perm_ext_iff_of_nodup (hl.pairwise_map_steps.imp And.right)
    (hl'.pairwise_map_steps.imp And.right)).2 hmem
  exact List.Perm.eq_of_pairwise (fun _ _ _ _ hab hba => Path.stepsLe_antisymm hab.1 hba.1)
    hl.pairwise_map_steps hl'.pairwise_map_steps hperm

end SourceText

end PartialDocs
