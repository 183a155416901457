import PartialDocs.Index.Containers

/-!
# Chains of containers

In an index every symbol stands after the symbol that contains it.  A walk through
containers then ends at a symbol that nothing contains, takes one step for each symbol on
its way, and does not see symbols that come later.  `containerWalk_of_container` is the
equation that everything else rewrites with.
-/

set_option autoImplicit false

namespace PartialDocs

/-- Every symbol stands after the symbol that contains it. -/
def ContainersFirst (symbols : List Symbol) : Prop :=
  ∀ (id c : Nat) (s : Symbol), symbols[id]? = some s →
    s.container = some c → c < id

/-- A symbol and those around it, innermost first. -/
def chainOf (symbols : List Symbol) (id : SymbolId) : List Symbol := (containerWalk symbols id).1

variable {symbols : List Symbol} {id : Nat} {s : Symbol}

/-- The fuel of a walk does not matter as long as it exceeds the number at which the walk begins. -/
theorem containerWalkFrom_fuel (first : ContainersFirst symbols) (fuel more : Nat)
    (h : id < fuel) (h' : id < more) :
    containerWalkFrom symbols fuel id = containerWalkFrom symbols more id := by
  induction fuel generalizing id more with
  | zero => omega
  | succ fuel ih =>
    obtain ⟨more, rfl⟩ : ∃ n, more = n + 1 := ⟨more - 1, by omega⟩
    unfold containerWalkFrom
    cases hs : symbols[id]? with
    | none => rfl
    | some s =>
      cases hc : s.container with
      | none => simp only [hc]
      | some c =>
        have hlt := first id c s hs hc
        have hwalk : containerWalkFrom symbols fuel c = containerWalkFrom symbols more c :=
          ih more (by omega) (by omega)
        simp only [hc, hwalk]

/-- A walk ends at a symbol that nothing contains. -/
theorem containerWalk_of_top (hs : symbols[id]? = some s) (hc : s.container = none) :
    containerWalk symbols id = ([s], .top) := by
  unfold containerWalk containerWalkFrom
  simp only [hs, hc]

/-- A walk from a symbol inside another one goes on from that one. -/
theorem containerWalk_of_container (first : ContainersFirst symbols) {c : Nat}
    (hs : symbols[id]? = some s) (hc : s.container = some c) :
    containerWalk symbols id = (s :: (containerWalk symbols c).1, (containerWalk symbols c).2) := by
  have hlt := first id c s hs hc
  have hid : id < symbols.length := (List.getElem?_eq_some_iff.1 hs).1
  have hfuel : containerWalkFrom symbols symbols.length c = containerWalk symbols c :=
    containerWalkFrom_fuel first symbols.length (symbols.length + 1) (by omega) (by omega)
  have hstep : containerWalk symbols id =
      (s :: (containerWalkFrom symbols symbols.length c).1,
        (containerWalkFrom symbols symbols.length c).2) := by
    rw [containerWalk, containerWalkFrom]
    simp only [hs, hc]
  rw [hstep, hfuel]

/-- From a symbol without a container outward there is only the symbol. -/
theorem chainOf_of_top (hs : symbols[id]? = some s) (hc : s.container = none) :
    chainOf symbols id = [s] := by
  unfold chainOf
  rw [containerWalk_of_top hs hc]

/-- From a symbol outward there are the symbol and what is there from its container outward. -/
theorem chainOf_of_container (first : ContainersFirst symbols) {c : Nat}
    (hs : symbols[id]? = some s) (hc : s.container = some c) :
    chainOf symbols id = s :: chainOf symbols c := by
  unfold chainOf
  rw [containerWalk_of_container first hs hc]

/-- Every walk from a symbol ends at one that nothing contains. -/
theorem containerWalk_complete (first : ContainersFirst symbols) (hid : id < symbols.length) :
    containerWalk symbols id = (chainOf symbols id, .top) := by
  induction id using Nat.strongRecOn with
  | _ id ih =>
    have hs : symbols[id]? = some symbols[id] := List.getElem?_eq_getElem hid
    cases hc : symbols[id].container with
    | none => rw [chainOf, containerWalk_of_top hs hc]
    | some c =>
      have hlt := first id c _ hs hc
      have hrest : containerWalk symbols c = (chainOf symbols c, .top) := ih c hlt (by omega)
      rw [chainOf, containerWalk_of_container first hs hc, hrest]

/-- Symbols that come later do not change a walk. -/
theorem containerWalk_append (first : ContainersFirst symbols) (later : List Symbol)
    (firstAll : ContainersFirst (symbols ++ later)) (hid : id < symbols.length) :
    containerWalk (symbols ++ later) id = containerWalk symbols id := by
  induction id using Nat.strongRecOn with
  | _ id ih =>
    have hs : symbols[id]? = some symbols[id] := List.getElem?_eq_getElem hid
    have hs' : (symbols ++ later)[id]? = some symbols[id] := by
      rw [List.getElem?_append_left hid, hs]
    cases hc : symbols[id].container with
    | none => rw [containerWalk_of_top hs hc, containerWalk_of_top hs' hc]
    | some c =>
      have hlt := first id c _ hs hc
      rw [containerWalk_of_container first hs hc, containerWalk_of_container firstAll hs' hc,
        ih c hlt (by omega)]

end PartialDocs
