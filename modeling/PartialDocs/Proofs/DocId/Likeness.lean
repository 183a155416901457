import PartialDocs.DocId
import PartialDocs.Proofs.Index.Likeness

/-!
# Documentation IDs of symbols that are alike

A documentation ID states the spellings of parameters and the arities of type parameters, but no
name of a type parameter.  Symbols that are alike in a sense that keeps the spellings have one
documentation ID each (`docId_like`).
-/

set_option autoImplicit false

namespace PartialDocs

variable {R : Likeness} {s s' : Symbol} {chain chain' : List Symbol}

/-- Symbols that are alike show the same name and arity. -/
theorem nameWithArity_like (h : s.Like R s') : nameWithArity s' = nameWithArity s := by
  unfold nameWithArity
  rw [h.arity, h.name]

/-- Chains that are alike have the same dotted name. -/
theorem dottedName_like (h : List.Forall₂ (Symbol.Like R) chain chain') :
    dottedName chain' = dottedName chain := by
  have hnames : chain'.map nameWithArity = chain.map nameWithArity := by
    rw [eq_comm, ← List.forall₂_eq_eq_eq, List.forall₂_map_left_iff, List.forall₂_map_right_iff]
    exact h.imp fun _ _ hs => (nameWithArity_like hs).symm
  have hspace : chain'.getLast?.bind Symbol.nameSpace = chain.getLast?.bind Symbol.nameSpace := by
    have hrel := rel_getElem? h (chain.length - 1)
    rw [List.getLast?_eq_getElem?, List.getLast?_eq_getElem?, ← h.length_eq]
    generalize chain[chain.length - 1]? = x, chain'[chain.length - 1]? = y at hrel ⊢
    cases hrel with
    | none => rfl
    | some hs => exact hs.nameSpace
  unfold dottedName
  rw [hnames, hspace]

/-- Members that are alike show the same name. -/
theorem memberName_like (h : s.Like R s') : memberName s' = memberName s := by
  unfold memberName
  rw [h.kind, h.name, ← h.parameters.length_eq]

/-- Members that are alike show the same behind their names. -/
theorem memberTail_like (spelling : R.KeepsSpelling) {context other : TypeContext}
    (hcontext : context.Like R other) (h : s.Like R s') :
    memberTail other s' = memberTail context s := by
  have hnone : s'.parameters = [] ↔ s.parameters = [] := by
    rw [← List.length_eq_zero_iff, ← List.length_eq_zero_iff, h.parameters.length_eq]
  have hrel := h.returnType
  unfold memberTail
  simp only [ne_eq, hnone, h.kind, h.arity, spelling.encodeParameters_eq hcontext h.parameters]
  congr 1
  generalize s.returnType = x, s'.returnType = y at hrel ⊢
  cases hrel with
  | none => cases s.kind <;> rfl
  | some htype =>
    have htext := congrArg ('~' :: ·) (spelling.target hcontext htype)
    cases s.kind <;> first | exact htext | rfl

/-- Members that are alike have the same documentation ID. -/
theorem memberDocId_like (spelling : R.KeepsSpelling)
    (hchain : List.Forall₂ (Symbol.Like R) chain chain') (h : s.Like R s') :
    memberDocId (dottedName chain') (nestedTypeParameters chain') s' =
      memberDocId (dottedName chain) (nestedTypeParameters chain) s := by
  have hcontext : TypeContext.Like R ⟨nestedTypeParameters chain, s.typeParameters⟩
      ⟨nestedTypeParameters chain', s'.typeParameters⟩ :=
    ⟨nestedTypeParameters_like hchain, h.typeParameters⟩
  unfold memberDocId
  rw [h.kind, dottedName_like hchain, memberName_like h, memberTail_like spelling hcontext h]

namespace SymbolIndex

variable {index index' : SymbolIndex}

/-- What is read off the symbols around a symbol stays the same where it does not tell those that
are alike apart. -/
theorem map_containers_like {α : Type} {f f' : List Symbol → α}
    (h : List.Forall₂ (Symbol.Like R) index.symbols index'.symbols)
    (same : ∀ {chain chain'}, List.Forall₂ (Symbol.Like R) chain chain' → f' chain' = f chain)
    (id : SymbolId) : (index'.containers id).map f' = (index.containers id).map f := by
  obtain ⟨hchain, hstop⟩ := containerWalk_like h id
  unfold containers
  generalize containerWalk index.symbols id = x, containerWalk index'.symbols id = y
    at hchain hstop ⊢
  obtain ⟨chain, stop⟩ := x
  obtain ⟨chain', stop'⟩ := y
  obtain rfl : stop' = stop := hstop
  cases stop' with
  | top => exact congrArg Except.ok (same hchain)
  | missing _ => rfl
  | endless => rfl

/-- A member takes the name of the type around it and the type parameters from one chain. -/
theorem memberDocId_of_containers (index : SymbolIndex) (id : SymbolId) (s : Symbol) :
    ((index.outerTypeParameters id).bind fun outer =>
        (index.qualifiedName id).map fun typeName => memberDocId typeName outer s) =
      (index.containers id).map fun chain =>
        memberDocId (dottedName chain) (nestedTypeParameters chain) s := by
  unfold outerTypeParameters qualifiedName
  cases index.containers id <;> rfl

/-- **Symbols that are alike have one documentation ID.** -/
theorem docId_like (spelling : R.KeepsSpelling)
    (h : List.Forall₂ (Symbol.Like R) index.symbols index'.symbols) (id : SymbolId) :
    index'.docId id = index.docId id := by
  have hrel := rel_getElem? h id
  unfold docId symbol
  rw [symbol?_eq, symbol?_eq]
  generalize index.symbols[id]? = x, index'.symbols[id]? = y at hrel ⊢
  cases hrel with
  | none => rfl
  | some hs =>
    simp only [Except.bind]
    rw [hs.kind, hs.container]
    split
    · unfold qualifiedName
      rw [map_containers_like h dottedName_like id]
    · split
      · rfl
      · refine (memberDocId_of_containers index' _ _).trans ?_
        refine Eq.trans ?_ (memberDocId_of_containers index _ _).symm
        exact map_containers_like h (fun hchain => memberDocId_like spelling hchain hs) _

end SymbolIndex

end PartialDocs
