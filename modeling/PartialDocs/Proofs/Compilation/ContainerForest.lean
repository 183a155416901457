import PartialDocs.Proofs.Compilation.PieceRoles

/-!
# Containers form a forest

The symbols of a compilation form a forest: a container is a type with a smaller number than what it
contains, and what is in a namespace is in no type (`IsForest`).  A walk from a symbol outward
therefore ends.  `Outward` says which numbers such a walk comes by and has no bound of its own;
`exists_outward` finds them and bounds their number by that of the symbol.  Symbols that come later
do not change a walk (`Outward.append`), so the builder sees the type parameters around a type
at every moment as the finished index does.
-/

set_option autoImplicit false

namespace PartialDocs

/-- Where the symbols of an index stand. -/
structure IsForest (symbols : List Symbol) : Prop where
  /-- A container comes before what it contains, and it is a type. -/
  container : ∀ (id c : Nat) (s : Symbol), symbols[id]? = some s → s.container = some c →
    c < id ∧ ∃ t, symbols[c]? = some t ∧ t.kind.isType = true
  /-- What is no type is in one. -/
  member : ∀ (id : Nat) (s : Symbol), symbols[id]? = some s → s.kind.isType = false →
    s.container ≠ none
  /-- What is in a namespace is in no type. -/
  nameSpace : ∀ (id : Nat) (s : Symbol), symbols[id]? = some s → s.nameSpace ≠ none →
    s.container = none

/-- The numbers that a walk outward comes by, from the given one to that of a symbol that nothing
contains.  There are none where the walk would not end or would meet a number of no symbol. -/
inductive Outward (symbols : List Symbol) : Nat → List Nat → Prop where
  | top {id : Nat} {s : Symbol} (here : symbols[id]? = some s) (outside : s.container = none) :
      Outward symbols id [id]
  | inside {id c : Nat} {s : Symbol} {ids : List Nat} (here : symbols[id]? = some s)
      (within : s.container = some c) (rest : Outward symbols c ids) :
      Outward symbols id (id :: ids)

/-- The symbols with the given numbers. -/
def symbolsAt (symbols : List Symbol) (ids : List Nat) : List Symbol :=
  ids.filterMap fun id => symbols[id]?

section Walks

variable {symbols : List Symbol} {id : Nat} {ids ids' : List Nat}

/-- Symbols that are well placed are a forest. -/
theorem WellPlaced.isForest (h : WellPlaced symbols) : IsForest symbols where
  container id c s hs hc := ⟨h.containersFirst id c s hs hc, (h.placed hs).inType c hc⟩
  member id s hs member := by
    obtain ⟨c, hc⟩ := (h.placed hs).exists_container member
    rw [hc]
    exact Option.some_ne_none c
  nameSpace id s hs inNameSpace := by
    cases hc : s.container with
    | none => rfl
    | some c => exact absurd ((h.placed hs).nameSpace c hc) inNameSpace

/-! ## Walks outward -/

/-- There is one way outward. -/
theorem Outward.unique (h : Outward symbols id ids) (h' : Outward symbols id ids') :
    ids = ids' := by
  induction h generalizing ids' with
  | top here outside =>
    cases h' with
    | top => rfl
    | inside here' within =>
      obtain rfl := Option.some.inj (here.symm.trans here')
      rw [outside] at within
      cases within
  | inside here within _ ih =>
    cases h' with
    | top here' outside =>
      obtain rfl := Option.some.inj (here.symm.trans here')
      rw [outside] at within
      cases within
    | inside here' within' rest' =>
      obtain rfl := Option.some.inj (here.symm.trans here')
      obtain rfl := Option.some.inj (within.symm.trans within')
      rw [ih rest']

/-- A way outward is no longer than the number at which it begins, and one. -/
theorem Outward.length_le (forest : IsForest symbols) (h : Outward symbols id ids) :
    ids.length ≤ id + 1 := by
  induction h with
  | top => exact Nat.le_add_left 1 _
  | @inside id c s ids here within _ ih =>
    have hlt := (forest.container id c s here within).1
    rw [List.length_cons]
    omega

/-- From every symbol of a forest there is a way outward. -/
theorem exists_outward (forest : IsForest symbols) (hid : id < symbols.length) :
    ∃ ids, Outward symbols id ids := by
  induction id using Nat.strongRecOn with
  | _ id ih =>
    have hs : symbols[id]? = some symbols[id] := List.getElem?_eq_getElem hid
    cases hc : symbols[id].container with
    | none => exact ⟨[id], .top hs hc⟩
    | some c =>
      have hlt := (forest.container id c _ hs hc).1
      obtain ⟨ids, rest⟩ := ih c hlt (Nat.lt_trans hlt hid)
      exact ⟨id :: ids, .inside hs hc rest⟩

/-- Symbols that come later do not change the way outward. -/
theorem Outward.append (h : Outward symbols id ids) (later : List Symbol) :
    Outward (symbols ++ later) id ids := by
  have hkept : ∀ {i : Nat} {s : Symbol}, symbols[i]? = some s →
      (symbols ++ later)[i]? = some s := by
    intro i s hs
    rw [List.getElem?_append_left (List.getElem?_eq_some_iff.1 hs).1, hs]
  induction h with
  | top here outside => exact .top (hkept here) outside
  | inside here within _ ih => exact .inside (hkept here) within ih

/-- A walk takes a step for each number on the way outward and needs no further bound. -/
theorem Outward.walkFrom (h : Outward symbols id ids) {fuel : Nat} (enough : ids.length ≤ fuel) :
    containerWalkFrom symbols fuel id = (symbolsAt symbols ids, .top) := by
  induction h generalizing fuel with
  | top here outside =>
    cases fuel with
    | zero => exact absurd enough (Nat.not_succ_le_zero 0)
    | succ fuel =>
      rw [containerWalkFrom, here]
      simp [outside, symbolsAt, here]
  | @inside id c s ids here within _ ih =>
    cases fuel with
    | zero => exact absurd enough (Nat.not_succ_le_zero ids.length)
    | succ fuel =>
      have hrest : containerWalkFrom symbols fuel c = (symbolsAt symbols ids, .top) :=
        ih (Nat.le_of_succ_le_succ enough)
      rw [containerWalkFrom, here]
      simp [within, hrest, symbolsAt, here]

/-- Where there is a way outward, it is what a walk comes by. -/
theorem Outward.chainOf_eq (forest : IsForest symbols) (h : Outward symbols id ids)
    (hid : id < symbols.length) : chainOf symbols id = symbolsAt symbols ids := by
  have hlength := h.length_le forest
  have henough : ids.length ≤ symbols.length + 1 := by omega
  rw [chainOf, containerWalk, h.walkFrom henough]

end Walks

namespace Compilation

open IndexBuilder (empty)

variable {files : List SourceFile}

/-! ## Walks in a compilation -/

/-- The builder of a compilation when it has got some of the declarations. -/
def IsMoment (files : List SourceFile) (b : IndexBuilder) : Prop :=
  ∃ before after, handed files = before ++ after ∧ b = empty.addAll before

/-- What is known of the way outward from a symbol of a compilation, by way of the given numbers. -/
structure WalksOutward (files : List SourceFile) (id : Nat) (ids : List Nat) : Prop where
  outward : Outward (ofFiles files).index.symbols id ids
  /-- The way has at most as many steps as there are numbers up to that of the symbol. -/
  steps : ids.length ≤ id + 1
  /-- A walk that may take as many steps needs no other bound. -/
  unbounded : ∀ fuel, ids.length ≤ fuel →
    containerWalkFrom (ofFiles files).index.symbols fuel id =
      (symbolsAt (ofFiles files).index.symbols ids, .top)
  qualifiedName : (ofFiles files).index.qualifiedName id =
    .ok (dottedName (symbolsAt (ofFiles files).index.symbols ids))
  containers : (ofFiles files).index.containers id =
    .ok (symbolsAt (ofFiles files).index.symbols ids)
  /-- The type parameters in whose scope documentation IDs spell the members. -/
  typeParameters : (ofFiles files).index.outerTypeParameters id =
    .ok (nestedTypeParameters (symbolsAt (ofFiles files).index.symbols ids))
  /-- Whenever the builder has the symbol, it goes the same way and finds these type parameters. -/
  builder : ∀ b, IsMoment files b → id < b.symbols.length →
    Outward b.symbols id ids ∧
    b.outerTypeParameters id =
      nestedTypeParameters (symbolsAt (ofFiles files).index.symbols ids) ∧
    (ofFiles files).index.outerTypeParameters id = .ok (b.outerTypeParameters id)

/-- At every moment the symbols are placed well, and they are the first ones of the finished
index. -/
theorem IsMoment.wellPlaced_prefix {b : IndexBuilder} (h : IsMoment files b) :
    WellPlaced b.symbols ∧ b.symbols <+: (ofFiles files).index.symbols := by
  obtain ⟨before, after, hsplit, rfl⟩ := h
  have hadmits := admits_handed files
  rw [hsplit, IndexBuilder.admits_append] at hadmits
  refine ⟨(IndexBuilder.sound_empty.addAll hadmits.1).placed, ?_⟩
  rw [symbols_ofFiles, builderOf_eq_addAll, hsplit, IndexBuilder.addAll_append]
  exact IndexBuilder.symbols_extend_addAll _ after

/-- The builder that has got everything. -/
theorem isMoment_builderOf (files : List SourceFile) : IsMoment files (builderOf files) :=
  ⟨handed files, [], (List.append_nil _).symm, builderOf_eq_addAll files⟩

/-- The builder goes the way of the finished index. -/
theorem IsMoment.walks {b : IndexBuilder} (h : IsMoment files b) {id : Nat} {ids : List Nat}
    (outward : Outward (ofFiles files).index.symbols id ids) (hid : id < b.symbols.length) :
    Outward b.symbols id ids ∧
    b.outerTypeParameters id =
      nestedTypeParameters (symbolsAt (ofFiles files).index.symbols ids) := by
  obtain ⟨placed, later, hlater⟩ := h.wellPlaced_prefix
  have hall := wellPlaced_ofFiles files
  obtain ⟨ids', hids'⟩ := exists_outward placed.isForest hid
  have hsame : ids' = ids := by
    have hafter := hids'.append later
    rw [hlater] at hafter
    exact hafter.unique outward
  have hlt : id < (ofFiles files).index.symbols.length := by
    rw [← hlater, List.length_append]
    omega
  have hchain : chainOf b.symbols id = symbolsAt (ofFiles files).index.symbols ids := by
    rw [← outward.chainOf_eq hall.isForest hlt]
    rw [← hlater] at hall ⊢
    unfold chainOf
    rw [containerWalk_append placed.containersFirst later hall.containersFirst hid]
  exact ⟨hsame ▸ hids', congrArg nestedTypeParameters hchain⟩

/-- From every symbol of a compilation there is a way outward. -/
theorem exists_walksOutward {id : Nat} (hid : id < (ofFiles files).index.size) :
    ∃ ids, WalksOutward files id ids := by
  have hplaced := wellPlaced_ofFiles files
  have hlt : id < (ofFiles files).index.symbols.length := by rwa [← SymbolIndex.size_eq]
  obtain ⟨ids, houtward⟩ := exists_outward hplaced.isForest hlt
  have hchain := houtward.chainOf_eq hplaced.isForest hlt
  have htypeParameters : (ofFiles files).index.outerTypeParameters id =
      .ok (nestedTypeParameters (symbolsAt (ofFiles files).index.symbols ids)) := by
    rw [SymbolIndex.outerTypeParameters_eq_ok hplaced hid, hchain]
  refine ⟨ids, houtward, houtward.length_le hplaced.isForest, fun _ => houtward.walkFrom, ?_, ?_,
    htypeParameters, ?_⟩
  · rw [SymbolIndex.qualifiedName_eq_ok hplaced hid, hchain]
  · rw [SymbolIndex.containers_eq_ok hplaced hid, hchain]
  · intro b moment hb
    obtain ⟨hway, hparameters⟩ := moment.walks houtward hb
    exact ⟨hway, hparameters, hparameters ▸ htypeParameters⟩

/-- The container of a declaration has its number when the declaration gets its key. -/
theorem container_lt_of_handed {before after : List (Symbol × Piece)} {s : Symbol} {p : Piece}
    (h : handed files = before ++ (s, p) :: after) {c : Nat} (hc : s.container = some c) :
    c < (empty.addAll before).symbols.length :=
  (allowed_of_handed h).2.placed.container_lt hc

/-- **Containers form a forest ordered by number.**  A container is a type with a smaller number,
what is no type has one, and what has a namespace has none.  So the walk outward from the symbol of
a number ends after at most one step more than that number, for the dotted name, for the type
parameters around a member in its documentation ID, and for those around it in its key: the latter
two are the same from the moment when the symbol is there, which is before its members get their
keys. -/
theorem containers_forest (files : List SourceFile) :
    IsForest (ofFiles files).index.symbols ∧
    (∀ id < (ofFiles files).index.size, ∃ ids, WalksOutward files id ids) ∧
    IsMoment files (builderOf files) ∧
    ∀ before after s p, handed files = before ++ (s, p) :: after →
      IsMoment files (empty.addAll before) ∧
      ∀ c : Nat, s.container = some c → c < (empty.addAll before).symbols.length := by
  refine ⟨(wellPlaced_ofFiles files).isForest, fun _ => exists_walksOutward,
    isMoment_builderOf files, ?_⟩
  intro before after s p h
  exact ⟨⟨before, _, h, rfl⟩, fun _ => container_lt_of_handed h⟩

/-- The way outward from a method of a generic class inside another one, and the type parameters
that it meets from the outermost class inward. -/
theorem containers_forest_bothParts :
    3 < (ofFiles bothParts).index.size ∧ WalksOutward bothParts 3 [3, 2, 0] ∧
    (ofFiles bothParts).index.outerTypeParameters 3 = .ok [['T'], ['U']] := by
  have hsize : 3 < (ofFiles bothParts).index.size := by
    rw [size_bothParts]
    decide
  have hway : Outward (ofFiles bothParts).index.symbols 3 [3, 2, 0] := by
    rw [symbols_bothParts]
    exact .inside rfl rfl (.inside rfl rfl (.top rfl rfl))
  obtain ⟨ids, hids⟩ := (containers_forest bothParts).2.1 3 hsize
  obtain rfl := hids.outward.unique hway
  refine ⟨hsize, hids, hids.typeParameters.trans ?_⟩
  rw [symbols_bothParts]
  rfl

end Compilation

end PartialDocs
