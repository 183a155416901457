import PartialDocs.Index.Builder
import PartialDocs.Proofs.Declaration.Likeness
import PartialDocs.Proofs.Index.Answers

/-!
# Builders of declarations that are alike

Nothing that a builder decides depends on where a piece stands, only on its role, and nothing
depends on the parameters of a symbol but their spelling.  A builder that gets declarations alike
in a sense that keeps the spellings therefore has symbols that are alike, under the same numbers
and the same keys, and the pieces of each symbol have moved (`enterAll_like`).  They are still in
order where moving keeps the order (`pieces_build_like`).
-/

set_option autoImplicit false

namespace PartialDocs

variable {R : Likeness} {g : Piece → Piece} {s s' : Symbol} {ss ss' : List Symbol}

/-! ## Symbols around a symbol -/

/-- Lists that are related place by place have related answers at every place. -/
theorem rel_getElem? {α β : Type} {r : α → β → Prop} {l : List α} {l' : List β}
    (h : List.Forall₂ r l l') (i : Nat) : Option.Rel r l[i]? l'[i]? := by
  induction h generalizing i with
  | nil => exact .none
  | cons hx _ ih =>
    cases i with
    | zero => exact .some hx
    | succ i => exact ih i

/-- A walk outward comes by symbols that are alike, and ends alike. -/
theorem containerWalkFrom_like (h : List.Forall₂ (Symbol.Like R) ss ss') (fuel : Nat)
    (id : SymbolId) :
    List.Forall₂ (Symbol.Like R) (containerWalkFrom ss fuel id).1
        (containerWalkFrom ss' fuel id).1 ∧
      (containerWalkFrom ss' fuel id).2 = (containerWalkFrom ss fuel id).2 := by
  induction fuel generalizing id with
  | zero => exact ⟨.nil, rfl⟩
  | succ fuel ih =>
    have hrel := rel_getElem? h id
    unfold containerWalkFrom
    generalize ss[id]? = x, ss'[id]? = y at hrel ⊢
    cases hrel with
    | none => exact ⟨.nil, rfl⟩
    | some hs =>
      simp only
      rw [hs.container]
      split
      · exact ⟨.cons hs .nil, rfl⟩
      · obtain ⟨hchain, hstop⟩ := ih _
        exact ⟨.cons hs hchain, hstop⟩

/-- The symbols around a symbol are alike. -/
theorem containerWalk_like (h : List.Forall₂ (Symbol.Like R) ss ss') (id : SymbolId) :
    List.Forall₂ (Symbol.Like R) (containerWalk ss id).1 (containerWalk ss' id).1 ∧
      (containerWalk ss' id).2 = (containerWalk ss id).2 := by
  unfold containerWalk
  rw [← h.length_eq]
  exact containerWalkFrom_like h _ id

/-- The type parameters around a symbol are alike. -/
theorem nestedTypeParameters_like {chain chain' : List Symbol}
    (h : List.Forall₂ (Symbol.Like R) chain chain') :
    List.Forall₂ R.typeParameter (nestedTypeParameters chain) (nestedTypeParameters chain') := by
  unfold nestedTypeParameters
  exact List.rel_flatMap (List.forall₂_reverse_iff.2 h) fun _ _ hs => hs.typeParameters

/-! ## Spellings -/

/-- Whether the type parameters of two contexts are alike. -/
structure TypeContext.Like (R : Likeness) (context other : TypeContext) : Prop where
  outer : List.Forall₂ R.typeParameter context.outer other.outer
  method : List.Forall₂ R.typeParameter context.method other.method

/-- Whether what is alike among type parameters that are alike is spelled in the same way. -/
structure Likeness.KeepsSpelling (R : Likeness) : Prop where
  parameter {context other : TypeContext} {p p' : Parameter} : context.Like R other →
    R.parameter p p' → encodeParameter other p' = encodeParameter context p
  target {context other : TypeContext} {type type' : Text} : context.Like R other →
    R.target type type' → encodeType other type' = encodeType context type

/-- Where nothing is like anything else, spellings stay. -/
theorem keepsSpelling_same : Likeness.same.KeepsSpelling := by
  have hcontext : ∀ {context other : TypeContext}, context.Like .same other → other = context := by
    rintro ⟨outer, method⟩ ⟨outer', method'⟩ ⟨houter, hmethod⟩
    obtain rfl : outer = outer' := by
      rw [← List.forall₂_eq_eq_eq]
      exact houter
    obtain rfl : method = method' := by
      rw [← List.forall₂_eq_eq_eq]
      exact hmethod
    rfl
  constructor
  · rintro context other p p' h rfl
    rw [hcontext h]
  · rintro context other type type' h rfl
    rw [hcontext h]

/-- Parameters that are alike are spelled alike. -/
theorem Likeness.KeepsSpelling.encodeParameters_eq (spelling : R.KeepsSpelling)
    {context other : TypeContext} (h : context.Like R other) {ps ps' : List Parameter}
    (hps : List.Forall₂ R.parameter ps ps') :
    encodeParameters other ps' = encodeParameters context ps := by
  have hmap : ps'.map (encodeParameter other) = ps.map (encodeParameter context) := by
    induction hps with
    | nil => rfl
    | cons hp _ ih => rw [List.map_cons, List.map_cons, spelling.parameter h hp, ih]
  unfold encodeParameters
  rw [hmap]

/-! ## Builders -/

/-- Whether an entry is like another one, with pieces that have moved. -/
structure IndexEntry.Like (R : Likeness) (g : Piece → Piece) (e e' : IndexEntry) : Prop where
  symbol : e.symbol.Like R e'.symbol
  pieces : e'.pieces = e.pieces.map g

/-- Whether moving pieces leaves their roles alone. -/
def KeepsRoles (g : Piece → Piece) : Prop := ∀ p : Piece, (g p).role = p.role

namespace IndexBuilder

/-- Whether the entries of one builder are like those of another one, under the same keys. -/
structure Like (R : Likeness) (g : Piece → Piece) (b b' : IndexBuilder) : Prop where
  entries : List.Forall₂ (IndexEntry.Like R g) b.entries b'.entries
  keys : b'.keys = b.keys

variable {b b' : IndexBuilder}

/-- Empty builders are alike. -/
theorem like_empty (R : Likeness) (g : Piece → Piece) : empty.Like R g empty := ⟨.nil, rfl⟩

/-- Builders that are alike have symbols that are alike. -/
theorem Like.symbols (h : b.Like R g b') :
    List.Forall₂ (Symbol.Like R) b.symbols b'.symbols := by
  unfold IndexBuilder.symbols
  rw [List.forall₂_map_left_iff, List.forall₂_map_right_iff]
  exact h.entries.imp fun _ _ he => he.symbol

/-- Symbols that are alike have one key. -/
theorem Like.key_eq (h : b.Like R g b') (spelling : R.KeepsSpelling) (hs : s.Like R s') :
    b'.key s' = b.key s := by
  unfold key
  rw [hs.container, hs.kind, hs.nameSpace, hs.name, hs.arity]
  split
  · rename_i id _
    have houter : List.Forall₂ R.typeParameter (b.outerTypeParameters id)
        (b'.outerTypeParameters id) :=
      nestedTypeParameters_like (containerWalk_like h.symbols id).1
    have hcontext : TypeContext.Like R ⟨b.outerTypeParameters id, s.typeParameters⟩
        ⟨b'.outerTypeParameters id, s'.typeParameters⟩ := ⟨houter, hs.typeParameters⟩
    rw [spelling.encodeParameters_eq hcontext hs.parameters]
  · rfl

/-- Whether an entry takes a piece is the same. -/
theorem takes_like (roles : KeepsRoles g) {e e' : IndexEntry} (he : e.Like R g e')
    (hs : s.Like R s') (p : Piece) : takes e' s' (g p) = takes e s p := by
  have hsame : (fun q => q.role == p.role) ∘ g = fun q => q.role == p.role := by
    funext q
    rw [Function.comp_apply, roles q]
  unfold takes
  rw [he.symbol.isPartial, hs.isPartial, he.pieces, List.any_map, roles p, hsame]

/-- Symbols that are alike are declared alike. -/
theorem Like.declareWith (h : b.Like R g b') (spelling : R.KeepsSpelling) (hs : s.Like R s')
    (ps : List Piece) :
    (b.declareWith s ps).1.Like R g (b'.declareWith s' (ps.map g)).1 ∧
      (b'.declareWith s' (ps.map g)).2 = (b.declareWith s ps).2 := by
  refine ⟨⟨?_, ?_⟩, h.entries.length_eq.symm⟩
  · exact List.rel_append h.entries (.cons ⟨hs, rfl⟩ .nil)
  · unfold IndexBuilder.declareWith
    simp only
    rw [h.key_eq spelling hs, h.entries.length_eq, h.keys]

/-- An entry may be replaced by one that is like it. -/
theorem Like.set (h : b.Like R g b') {e e' : IndexEntry} (he : e.Like R g e') (id : Nat) :
    List.Forall₂ (IndexEntry.Like R g) (b.entries.set id e) (b'.entries.set id e') := by
  obtain ⟨hentries, -⟩ := h
  generalize b.entries = l, b'.entries = l' at hentries ⊢
  induction hentries generalizing id with
  | nil => exact .nil
  | cons hx hl ih =>
    cases id with
    | zero => exact .cons he hl
    | succ id => exact .cons hx (ih id)

/-- Additions that are alike have one answer. -/
theorem Like.add (h : b.Like R g b') (spelling : R.KeepsSpelling) (roles : KeepsRoles g)
    (hs : s.Like R s') (p : Piece) :
    (b.add s p).1.Like R g (b'.add s' (g p)).1 ∧ (b'.add s' (g p)).2 = (b.add s p).2 := by
  have hfind : b'.find? (b'.key s') = b.find? (b.key s) := by
    rw [h.key_eq spelling hs, find?, find?, h.keys]
  unfold IndexBuilder.add
  rw [hfind]
  cases b.find? (b.key s) with
  | none =>
    obtain ⟨hdeclared, hid⟩ := h.declareWith spelling hs [p]
    exact ⟨hdeclared, congrArg some hid⟩
  | some id =>
    have hrel := rel_getElem? h.entries id
    have hset := fun {e e' : IndexEntry} (he : e.Like R g e') => h.set he id
    simp only
    generalize b.entries[id]? = x, b'.entries[id]? = y at hrel ⊢
    cases hrel with
    | none => exact ⟨h, rfl⟩
    | some he =>
      simp only
      rw [takes_like roles he hs]
      split
      · refine ⟨⟨hset ⟨he.symbol, ?_⟩, h.keys⟩, rfl⟩
        rw [he.pieces, List.map_append]
        rfl
      · exact ⟨h, rfl⟩

/-- Symbols that are alike are alike in the same container. -/
theorem placeIn_like (hs : s.Like R s') (container : Option SymbolId) :
    (placeIn container s).Like R (placeIn container s') := by
  refine ⟨hs.name, hs.kind, ?_, hs.nameSpace, hs.isPartial, hs.typeParameters, hs.parameters,
    hs.returnType⟩
  unfold placeIn
  simp only
  rw [hs.nameSpace]

mutual

/-- A declaration enters builders that are alike alike. -/
theorem Like.enter (spelling : R.KeepsSpelling) (roles : KeepsRoles g) :
    ∀ {d d' : Declaration} {b b' : IndexBuilder} (container : Option SymbolId),
      d.Like R g d' → b.Like R g b' → (b.enter container d).Like R g (b'.enter container d')
  | _, _, b, b', container, @Declaration.Like.mk _ _ s s' p ds ds' hs hds, h => by
    -- one answer, so that both builders go on inside the same symbol or leave the body out
    obtain ⟨hadd, hanswer⟩ := h.add spelling roles (placeIn_like hs container) p
    unfold IndexBuilder.enter
    generalize b.add (placeIn container s) p = x, b'.add (placeIn container s') (g p) = y
      at hadd hanswer ⊢
    obtain ⟨x, answer⟩ := x
    obtain ⟨y, answer'⟩ := y
    obtain rfl : answer' = answer := hanswer
    cases answer' with
    | none => exact hadd
    | some id => exact Like.enterAll spelling roles (some id) hds hadd

/-- **Builders that get declarations alike stay alike.** -/
theorem Like.enterAll (spelling : R.KeepsSpelling) (roles : KeepsRoles g) :
    ∀ {ds ds' : List Declaration} {b b' : IndexBuilder} (container : Option SymbolId),
      Declaration.LikeAll R g ds ds' → b.Like R g b' →
      (b.enterAll container ds).Like R g (b'.enterAll container ds')
  | _, _, b, b', container, .nil, h => by
    unfold IndexBuilder.enterAll
    exact h
  | _, _, b, b', container, .cons hd hds, h => by
    unfold IndexBuilder.enterAll
    exact Like.enterAll spelling roles container hds (Like.enter spelling roles container hd h)

end

/-! ## The finished index -/

/-- Whether moving keeps the order of pieces. -/
def KeepsOrder (g : Piece → Piece) (ps : List Piece) : Prop :=
  ∀ p ∈ ps, ∀ q ∈ ps, p.startsBy q = (g p).startsBy (g q)

/-- What is built has symbols that are alike. -/
theorem Like.symbols_build (h : b.Like R g b') :
    List.Forall₂ (Symbol.Like R) b.build.symbols b'.build.symbols := by
  rw [IndexBuilder.symbols_build, IndexBuilder.symbols_build]
  exact h.symbols

/-- The pieces of every symbol are those that it had, moved. -/
theorem Like.pieces_build (h : b.Like R g b') (order : ∀ e ∈ b.entries, KeepsOrder g e.pieces)
    (ne : ∀ e ∈ b.entries, e.pieces ≠ []) (id : Nat) :
    b'.build.pieces id = (b.build.pieces id).map (List.map g) := by
  have hrel := rel_getElem? h.entries id
  cases he : b.entries[id]? with
  | none =>
    rw [he] at hrel
    generalize he' : b'.entries[id]? = y at hrel
    cases hrel
    unfold SymbolIndex.pieces build
    rw [List.getElem?_map, List.getElem?_map, he, he']
    rfl
  | some e =>
    rw [he] at hrel
    generalize he' : b'.entries[id]? = y at hrel
    cases hrel with
    | @some _ e' hlike =>
      have hmem := List.mem_of_getElem? he
      have hne : e'.pieces ≠ [] := by
        rw [hlike.pieces]
        exact fun hnil => ne e hmem (List.map_eq_nil_iff.1 hnil)
      rw [pieces_build_eq_ok he (ne e hmem), pieces_build_eq_ok he' hne, hlike.pieces]
      exact congrArg Except.ok (List.map_mergeSort (order e hmem)).symm

end IndexBuilder

end PartialDocs
