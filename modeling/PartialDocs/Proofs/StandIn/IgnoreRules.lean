import Mathlib.Data.List.Basic
import Mathlib.Data.List.Induction
import PartialDocs.Proofs.Files.Paths
import PartialDocs.StandIn.IgnoreRules

/-!
# Rules about the directories around a path

The stand-in looks for the nearest directory around a path that rules speak of by going up from the
path.  Where the path is made of names, these directories are what fewer and fewer of the names lead
to (`verdictOrParent?_ofNames`).
-/

set_option autoImplicit false

namespace PartialDocs.IgnoreRules

open PartialDocs.Path (IsName ofNames)

variable {rules : IgnoreRules} {names : List Text}

/-- Going up from what names lead to is asking about fewer and fewer names. -/
theorem parentVerdict?_ofNames (hnames : ∀ n ∈ names, IsName n) {fuel : Nat}
    (hfuel : names.length ≤ fuel) :
    rules.parentVerdict? fuel (ofNames names) =
      (List.range names.length).reverse.findSome? fun k =>
        rules.verdict? (ofNames (names.take k)) true := by
  induction names using List.reverseRecOn generalizing fuel with
  | nil => cases fuel <;> rfl
  | append_singleton ns n ih =>
    obtain ⟨hns, hn⟩ := List.forall_mem_append.1 hnames
    rw [List.length_append, List.length_singleton] at hfuel ⊢
    obtain ⟨fuel, rfl⟩ : ∃ m, fuel = m + 1 := ⟨fuel - 1, by omega⟩
    have hbelow : (List.range ns.length).reverse.findSome? (fun k =>
          rules.verdict? (ofNames ((ns ++ [n]).take k)) true) =
        (List.range ns.length).reverse.findSome? fun k =>
          rules.verdict? (ofNames (ns.take k)) true := by
      rw [← List.head?_filterMap, ← List.head?_filterMap]
      refine congrArg List.head? (List.filterMap_congr fun k hk => ?_)
      rw [List.mem_reverse, List.mem_range] at hk
      rw [List.take_append_of_le_length (Nat.le_of_lt hk)]
    unfold parentVerdict?
    rw [Path.parent?_ofNames hns (hn n List.mem_cons_self), List.range_succ, List.reverse_append,
      List.reverse_singleton, List.singleton_append, List.findSome?_cons, List.take_left, hbelow]
    simp only
    rw [ih hns (by omega)]
    cases rules.verdict? (ofNames ns) true <;> rfl

/-- The verdict on what names lead to, else on the nearest directory around it. -/
theorem verdictOrParent?_ofNames (hnames : ∀ n ∈ names, IsName n) (isDirectory : Bool) :
    rules.verdictOrParent? (ofNames names) isDirectory =
      (rules.verdict? (ofNames names) isDirectory).or
        ((List.range names.length).reverse.findSome? fun k =>
          rules.verdict? (ofNames (names.take k)) true) := by
  have hfuel : names.length ≤ (ofNames names).length + 1 := by
    by_cases hne : names = []
    · rw [hne]
      exact Nat.zero_le _
    · have hparts := Text.length_splitOn_le '/' (ofNames names)
      have hcut : Text.splitOn '/' (ofNames names) = names := Path.parts_ofNames hne hnames
      rwa [hcut] at hparts
  unfold verdictOrParent?
  rw [parentVerdict?_ofNames hnames hfuel]

end PartialDocs.IgnoreRules
