import PartialDocs.Proofs.DocId.Clashes

/-!
# Symbols with proper names

The grammar names types by identifiers, operators by tokens that are known, and other members by
identifiers behind an interface.  Symbols with such names have one documentation ID in few ways
(`Confused`): they are types that are nested to different depths and spelled alike, members of such
types, or members of one type with names that are shown alike, and never two methods of one type.
-/

set_option autoImplicit false

namespace PartialDocs

/-- Names as the grammar has them, and no tilde in the type of a parameter. -/
structure ProperNames (symbols : List Symbol) : Prop where
  types : ∀ s ∈ symbols, s.kind.isType = true → PlainTypeName s.name
  members : ∀ s ∈ symbols, s.kind.isType = false → ProperlyNamed s
  parameters : ∀ s ∈ symbols, ∀ p ∈ s.parameters, '~' ∉ p.type
  nameSpaces : ∀ s ∈ symbols, ∀ n ∈ s.nameSpace, '(' ∉ n ∧ '~' ∉ n

/-- Whether members are alike in everything that documentation IDs show of them. -/
structure Indistinct (symbols : List Symbol) (s t : Symbol) : Prop where
  idPrefix : s.kind.idPrefix = t.kind.idPrefix
  name : Homonyms s t
  arity : shownArity s = shownArity t
  parameters : parameterList (contextOf symbols s) s = parameterList (contextOf symbols t) t
  target : target? (contextOf symbols s) s = target? (contextOf symbols t) t

/-- The ways in which different symbols with proper names come to have one documentation ID. -/
inductive Confused (symbols : List Symbol) (s t : Symbol) : Prop where
  /-- Types that are nested to different depths and spelled alike. -/
  | types (type : s.kind.isType = true) (type' : t.kind.isType = true)
      (alike : SpelledAlike (s :: chainAround symbols s) (t :: chainAround symbols t))
      (depth : (chainAround symbols s).length ≠ (chainAround symbols t).length)
  /-- Members of one type, not both of them methods. -/
  | siblings (member : s.kind.isType = false) (member' : t.kind.isType = false)
      (container : s.container = t.container) (same : Indistinct symbols s t)
      (notMethods : ¬ (s.kind = .method ∧ t.kind = .method))
  /-- Members of types that are nested to different depths and spelled alike. -/
  | nested (member : s.kind.isType = false) (member' : t.kind.isType = false)
      (alike : SpelledAlike (chainAround symbols s) (chainAround symbols t))
      (depth : (chainAround symbols s).length ≠ (chainAround symbols t).length)
      (same : Indistinct symbols s t)

variable {symbols : List Symbol} {s t : Symbol}

/-- What is around a symbol are types of the index. -/
theorem mem_chainAround (placed : WellPlaced symbols) {i : Nat} {s u : Symbol}
    (hs : symbols[i]? = some s) (hu : u ∈ chainAround symbols s) :
    u ∈ symbols ∧ u.kind.isType = true := by
  induction i using Nat.strongRecOn generalizing s with
  | _ i ih =>
    cases hc : s.container with
    | none =>
      rw [chainAround_of_top hc] at hu
      simp at hu
    | some c =>
      obtain ⟨o, ho, htype, hchain⟩ := exists_outer placed hs hc
      rw [hchain] at hu
      rcases List.mem_cons.1 hu with rfl | hu
      · exact ⟨List.mem_of_getElem? ho, htype⟩
      · exact ih c (placed.containersFirst i c s hs hc) ho hu

/-- The types around a symbol have plain names. -/
theorem ProperNames.types_around (proper : ProperNames symbols) (placed : WellPlaced symbols)
    {i : Nat} {s : Symbol} (hs : symbols[i]? = some s) :
    ∀ u ∈ chainAround symbols s, PlainTypeName u.name := by
  intro u hu
  obtain ⟨hmem, htype⟩ := mem_chainAround placed hs hu
  exact proper.types u hmem htype

/-! ## Members -/

/-- The name of a member in its documentation ID has no dot. -/
theorem not_mem_memberName (operator : s.kind = .operator → '.' ∉ s.name) :
    '.' ∉ memberName s := by
  have hreplaced : '.' ∉ Text.replace '.' ['#']
      (Text.replace '>' ['\x7d'] (Text.replace '<' ['\x7b'] s.name)) := by
    unfold Text.replace
    intro h
    obtain ⟨c, -, hc⟩ := List.mem_flatMap.1 h
    split at hc
    · simp at hc
    · rename_i hne
      exact hne (List.mem_singleton.1 hc).symm
  have htable : ∀ x ∈ operatorNames, '.' ∉ x.2.toList := by decide
  cases hkind : s.kind
  case operator =>
    unfold memberName operatorName
    simp only [hkind]
    split
    · decide
    split
    · decide
    split
    · rename_i hfind
      exact htable _ (List.mem_of_find?_eq_some hfind)
    · exact operator hkind
  case conversion =>
    unfold memberName
    simp only [hkind]
    split <;> decide
  all_goals
    unfold memberName
    simp only [hkind]
    first
    | exact hreplaced
    | decide

/-- The mark for the arity has no dot. -/
theorem not_mem_arityMark (s : Symbol) : '.' ∉ arityMark s := by
  unfold arityMark
  split
  · rw [List.mem_append]
    rintro (h | h)
    · simp at h
    · exact absurd (Text.isDigit_of_mem_ofNat h) (by decide)
  · simp

/-- The text of a member has a parenthesis or a tilde before its first dot. -/
theorem mem_of_memberText_eq (operator : s.kind = .operator → '.' ∉ s.name) {x y : Text}
    (h : memberText symbols s = x ++ '.' :: y) : '(' ∈ x ∨ '~' ∈ x := by
  rw [memberText_eq, ← List.append_assoc] at h
  have hhead : '.' ∉ memberName s ++ arityMark s := by
    rw [List.mem_append, not_or]
    exact ⟨not_mem_memberName operator, not_mem_arityMark s⟩
  -- the dot after x cannot be in the name, so it stands in what follows the name
  rcases List.append_eq_append_iff.1 h with ⟨z, hx, hz⟩ | ⟨z, hx, hz⟩
  · cases z with
    | nil =>
      have hdot := head_parameterList_append _ _ _ hz
      simp at hdot
    | cons c z =>
      rcases head_parameterList_append _ _ _ hz with rfl | rfl
      · exact .inl (by simp [hx])
      · exact .inr (by simp [hx])
  · cases z with
    | nil =>
      rw [List.nil_append] at hz
      have hdot := head_parameterList_append _ _ _ hz.symm
      simp at hdot
    | cons c z =>
      rw [List.cons_append, List.cons.injEq] at hz
      rw [hx, ← hz.1] at hhead
      simp at hhead

/-! ## Clashes -/

/-- A character of a dotted name that no plain name has comes from the namespace. -/
theorem mem_nameSpace_of_mem_dottedName {chain : List Symbol} {c : Char}
    (plain : ∀ u ∈ chain, PlainTypeName u.name) (hc : c = '(' ∨ c = '~')
    (h : c ∈ dottedName chain) : ∃ n, (typePath chain).1 = some n ∧ c ∈ n := by
  have hnames : ∀ x ∈ (chain.map nameWithArity).reverse, c ∉ x := by
    intro x hx
    rw [List.mem_reverse, List.mem_map] at hx
    obtain ⟨u, hu, rfl⟩ := hx
    rcases hc with rfl | rfl
    · exact not_mem_nameWithArity (plain u hu '(' (by simp)) (by decide) (by decide)
    · exact not_mem_nameWithArity (plain u hu '~' (by simp)) (by decide) (by decide)
  have hdot : c ≠ '.' := by rcases hc with rfl | rfl <;> decide
  unfold dottedName at h
  unfold typePath
  cases hn : chain.getLast?.bind Symbol.nameSpace with
  | none =>
    rw [hn] at h
    rcases Text.mem_of_mem_joinWith h with h | ⟨x, hx, hcx⟩
    · exact absurd h hdot
    · exact absurd hcx (hnames x hx)
  | some n =>
    rw [hn] at h
    rcases Text.mem_of_mem_joinWith h with h | ⟨x, hx, hcx⟩
    · exact absurd h hdot
    · rcases List.mem_cons.1 hx with rfl | hx
      · exact ⟨x, rfl, hcx⟩
      · exact absurd hcx (hnames x hx)

/-- A text goes on into a type only through a namespace with a parenthesis or a tilde. -/
theorem Spliced.nameSpace (h : Spliced symbols s t)
    (operator : s.kind = .operator → '.' ∉ s.name)
    (plain : ∀ u ∈ chainAround symbols t, PlainTypeName u.name) :
    ∃ n, (typePath (chainAround symbols t)).1 = some n ∧ ('(' ∈ n ∨ '~' ∈ n) := by
  obtain ⟨x, hname, htext⟩ := h.text
  have hsub : ∀ c ∈ x, c ∈ dottedName (chainAround symbols t) := by
    intro c hc
    rw [hname]
    simp [hc]
  rcases mem_of_memberText_eq operator htext with hmem | hmem
  · obtain ⟨n, hn, hc⟩ := mem_nameSpace_of_mem_dottedName plain (.inl rfl) (hsub _ hmem)
    exact ⟨n, hn, .inl hc⟩
  · obtain ⟨n, hn, hc⟩ := mem_nameSpace_of_mem_dottedName plain (.inr rfl) (hsub _ hmem)
    exact ⟨n, hn, .inr hc⟩

/-- The namespace around a symbol is that of a symbol. -/
theorem ProperNames.nameSpace (proper : ProperNames symbols) (placed : WellPlaced symbols) {i : Nat}
    (hs : symbols[i]? = some s) {n : Text} (hn : (typePath (chainAround symbols s)).1 = some n) :
    '(' ∉ n ∧ '~' ∉ n := by
  obtain ⟨u, hu, hn⟩ := Option.bind_eq_some_iff.1 hn
  exact proper.nameSpaces u (mem_chainAround placed hs (List.mem_of_getLast? hu)).1 n hn

/-- The tokens of known operators have no dot. -/
theorem ProperlyNamed.not_mem_token (proper : ProperlyNamed s) (kind : s.kind = .operator) :
    '.' ∉ s.name := by
  have htable : ∀ x ∈ operatorNames, '.' ∉ x.1.toList := by decide
  obtain ⟨x, hx, htoken⟩ := proper.operator kind
  exact htoken ▸ htable x hx

/-- The text of no member goes on into the type around a symbol with a proper namespace. -/
theorem ProperNames.not_spliced (proper : ProperNames symbols) (placed : WellPlaced symbols)
    {i j : Nat} (hs : symbols[i]? = some s) (ht : symbols[j]? = some t)
    (member : s.kind.isType = false) : ¬ Spliced symbols s t := by
  intro h
  have hproper := proper.members s (List.mem_of_getElem? hs) member
  obtain ⟨n, hn, hmem⟩ := h.nameSpace hproper.not_mem_token (proper.types_around placed ht)
  obtain ⟨hparenthesis, htilde⟩ := proper.nameSpace placed ht hn
  rcases hmem with hmem | hmem
  · exact hparenthesis hmem
  · exact htilde hmem

section Placed

variable {i j : Nat}

/-- Types with proper names that are spelled alike have different depths. -/
theorem ProperNames.depth_ne_of_types (proper : ProperNames symbols) (placed : WellPlaced symbols)
    (hs : symbols[i]? = some s) (ht : symbols[j]? = some t) (type : s.kind.isType = true)
    (type' : t.kind.isType = true)
    (alike : SpelledAlike (s :: chainAround symbols s) (t :: chainAround symbols t)) :
    (chainAround symbols s).length ≠ (chainAround symbols t).length := by
  intro hdepth
  refine alike.path (typePath_eq_of_dottedName_eq ?_ ?_ (by simp) (by simp [hdepth])
    alike.spelling)
  · intro u hu
    rcases List.mem_cons.1 hu with rfl | hu
    · exact proper.types u (List.mem_of_getElem? hs) type
    · exact proper.types_around placed hs u hu
  · intro u hu
    rcases List.mem_cons.1 hu with rfl | hu
    · exact proper.types u (List.mem_of_getElem? ht) type'
    · exact proper.types_around placed ht u hu

/-- So have the types around members. -/
theorem ProperNames.depth_ne_of_members (proper : ProperNames symbols)
    (placed : WellPlaced symbols) (hs : symbols[i]? = some s) (ht : symbols[j]? = some t)
    (member : s.kind.isType = false)
    (alike : SpelledAlike (chainAround symbols s) (chainAround symbols t)) :
    (chainAround symbols s).length ≠ (chainAround symbols t).length := by
  intro hdepth
  obtain ⟨c, hc⟩ := (placed.placed hs).exists_container member
  obtain ⟨o, -, -, hchain⟩ := exists_outer placed hs hc
  exact alike.path (typePath_eq_of_dottedName_eq (proper.types_around placed hs)
    (proper.types_around placed ht) (by simp [hchain]) hdepth alike.spelling)

/-- **Members with proper names have one text exactly when they are indistinct.** -/
theorem ProperNames.sameText_iff (proper : ProperNames symbols) (hs : symbols[i]? = some s)
    (ht : symbols[j]? = some t) (member : s.kind.isType = false)
    (member' : t.kind.isType = false) : SameText symbols s t ↔ Indistinct symbols s t := by
  have hmem := List.mem_of_getElem? hs
  have hmem' := List.mem_of_getElem? ht
  have hname := proper.members s hmem member
  have hname' := proper.members t hmem' member'
  have hiff := memberName_eq_iff hname hname' member member'
  constructor
  · intro h
    have hparts := partsAlike_of_memberText_eq (hname.delimited member) (hname'.delimited member')
      (not_mem_parameterList _ (proper.parameters s hmem))
      (not_mem_parameterList _ (proper.parameters t hmem')) h.memberText_eq
    exact ⟨h.idPrefix_eq, hiff.1 hparts.name, hparts.arity, hparts.parameters, hparts.target⟩
  · intro h
    exact .parts h.idPrefix ⟨hiff.2 h.name, h.arity, h.parameters, h.target⟩

/-- Indistinct methods do not differ in what the documentation ID overlooks. -/
theorem Indistinct.not_overlooked (h : Indistinct symbols s t) (method : s.kind = .method)
    (method' : t.kind = .method) : ¬ Overlooked symbols s t := by
  have hname : s.name = t.name := by
    cases h.name with
    | named _ _ name => exact name
    | unnamed _ mem => simp [method] at mem
    | operators kind => simp [method] at kind
    | conversions kind => simp [method] at kind
    | metadata mem => simp [method] at mem
    | metadata' _ mem => simp [method'] at mem
  intro hoverlooked
  cases hoverlooked with
  | renamed differ =>
    rcases differ with hkind | hne
    · exact hkind (method.trans method'.symm)
    · exact hne hname
  | parameters _ hidden => simp [method, SymbolKind.showsParameters] at hidden
  | arity _ notMethod => exact notMethod method
  | tilde kind => simp [method] at kind

/-- Symbols with proper names clash only where they are confused. -/
theorem Clash.confused (h : Clash symbols s t) (proper : ProperNames symbols)
    (placed : WellPlaced symbols) (hs : symbols[i]? = some s) (ht : symbols[j]? = some t) :
    Confused symbols s t := by
  cases h with
  | types type type' alike =>
    exact .types type type' alike (proper.depth_ne_of_types placed hs ht type type' alike)
  | members member member' container same overlooked =>
    have hsame := (proper.sameText_iff hs ht member member').1 same
    exact .siblings member member' container hsame
      fun methods => hsame.not_overlooked methods.1 methods.2 overlooked
  | nested member member' alike same =>
    exact .nested member member' alike (proper.depth_ne_of_members placed hs ht member alike)
      ((proper.sameText_iff hs ht member member').1 same)
  | spliced member member' spliced =>
    rcases spliced with hst | hts
    · exact absurd hst (proper.not_spliced placed hs ht member)
    · exact absurd hts (proper.not_spliced placed ht hs member')

/-- Symbols that are confused have one documentation ID. -/
theorem Confused.placedDocId_eq (h : Confused symbols s t) (proper : ProperNames symbols)
    (hs : symbols[i]? = some s) (ht : symbols[j]? = some t) :
    placedDocId symbols s = placedDocId symbols t := by
  cases h with
  | types type type' alike depth => exact (Clash.types type type' alike).placedDocId_eq
  | siblings member member' container same notMethods =>
    have htext := (proper.sameText_iff hs ht member member').2 same
    rw [placedDocId_of_member member, placedDocId_of_member member', htext.idPrefix_eq,
      htext.memberText_eq, chainAround_congr container]
  | nested member member' alike depth same =>
    have htext := (proper.sameText_iff hs ht member member').2 same
    exact (Clash.nested member member' alike htext).placedDocId_eq

end Placed

/-- **Symbols of a sound builder with proper names have one documentation ID exactly when they are
the same symbol or confused.** -/
theorem placedDocId_eq_iff_of_proper {b : IndexBuilder} (h : b.Sound)
    (proper : ProperNames b.symbols) {i j : Nat} (hs : b.symbols[i]? = some s)
    (ht : b.symbols[j]? = some t) :
    placedDocId b.symbols s = placedDocId b.symbols t ↔ i = j ∨ Confused b.symbols s t := by
  constructor
  · intro heq
    rcases (placedDocId_eq_iff h hs ht).1 heq with hij | hclash
    · exact .inl hij
    · exact .inr (hclash.confused proper h.placed hs ht)
  · rintro (hij | hconfused)
    · exact (placedDocId_eq_iff h hs ht).2 (.inl hij)
    · exact hconfused.placedDocId_eq proper hs ht

end PartialDocs
