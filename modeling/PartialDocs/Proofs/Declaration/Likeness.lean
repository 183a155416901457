import Mathlib.Data.List.Forall2
import Mathlib.Data.Option.Basic
import PartialDocs.Declaration.Outline
import PartialDocs.Proofs.Syntax.Moving

/-!
# Declarations that are alike

Two symbols are alike when they say the same but for the names of their type parameters and for
the types of their parameters, which are alike in some sense of their own (`Likeness`).  Where the
nodes of a tree say in another text what they said before (`Rereads`), the tree makes
declarations like its own (`ofChildren_like`).
-/

set_option autoImplicit false

namespace PartialDocs

/-- A sense in which the names of type parameters, the parameters and the targets of conversions may
be alike. -/
structure Likeness where
  typeParameter : Text → Text → Prop
  parameter : Parameter → Parameter → Prop
  target : Text → Text → Prop

/-- Nothing is like anything else. -/
def Likeness.same : Likeness := ⟨Eq, Eq, Eq⟩

variable {R : Likeness}

/-- Whether two symbols say the same but for what may be alike. -/
structure Symbol.Like (R : Likeness) (s s' : Symbol) : Prop where
  name : s'.name = s.name
  kind : s'.kind = s.kind
  container : s'.container = s.container
  nameSpace : s'.nameSpace = s.nameSpace
  isPartial : s'.isPartial = s.isPartial
  typeParameters : List.Forall₂ R.typeParameter s.typeParameters s'.typeParameters
  parameters : List.Forall₂ R.parameter s.parameters s'.parameters
  returnType : Option.Rel R.target s.returnType s'.returnType

/-- Symbols that are alike have as many type parameters. -/
theorem Symbol.Like.arity {s s' : Symbol} (h : s.Like R s') : s'.arity = s.arity :=
  h.typeParameters.length_eq.symm

/-- A symbol is the same as itself. -/
theorem Symbol.like_self (s : Symbol) : s.Like .same s where
  name := rfl
  kind := rfl
  container := rfl
  nameSpace := rfl
  isPartial := rfl
  typeParameters := List.forall₂_same.2 fun _ _ => rfl
  parameters := List.forall₂_same.2 fun _ _ => rfl
  returnType := by
    cases s.returnType with
    | none => exact .none
    | some type => exact .some rfl

/-- Where nothing is like anything else, symbols that are alike are the same. -/
theorem Symbol.Like.eq {s s' : Symbol} (h : s.Like .same s') : s' = s := by
  have htypeParameters : s.typeParameters = s'.typeParameters := by
    rw [← List.forall₂_eq_eq_eq]
    exact h.typeParameters
  have hparameters : s.parameters = s'.parameters := by
    rw [← List.forall₂_eq_eq_eq]
    exact h.parameters
  have hreturnType : s.returnType = s'.returnType := by
    have hrel := h.returnType
    generalize s.returnType = x, s'.returnType = y at hrel ⊢
    cases hrel with
    | some htarget => exact congrArg some htarget
    | none => rfl
  cases s
  cases s'
  exact Symbol.mk.injEq .. ▸ ⟨h.name, h.kind, h.container, h.nameSpace, htypeParameters.symm,
    hparameters.symm, hreturnType.symm, h.isPartial⟩

namespace Declaration

variable {g : Piece → Piece}

section

variable (R) (g)

mutual

/-- Whether a declaration is like another one, with pieces that have moved. -/
inductive Like : Declaration → Declaration → Prop
  | mk {s s' : Symbol} {p : Piece} {ds ds' : List Declaration} :
      s.Like R s' → LikeAll ds ds' → Like (.mk s p ds) (.mk s' (g p) ds')

/-- Whether declarations are like other ones, each like the one in its place. -/
inductive LikeAll : List Declaration → List Declaration → Prop
  | nil : LikeAll [] []
  | cons {d d' : Declaration} {ds ds' : List Declaration} :
      Like d d' → LikeAll ds ds' → LikeAll (d :: ds) (d' :: ds')

end

end

/-- Declarations beside each other are alike one by one. -/
theorem LikeAll.append {ds ds' es es' : List Declaration} (hds : LikeAll R g ds ds')
    (hes : LikeAll R g es es') : LikeAll R g (ds ++ es) (ds' ++ es') := by
  induction ds generalizing ds' with
  | nil =>
    cases hds
    exact hes
  | cons d ds ih =>
    cases hds with
    | cons hd hds => exact .cons hd (ih hds)

/-- Declarations that are made alike are alike. -/
theorem likeAll_map {α : Type} {f f' : α → Declaration} {l : List α}
    (h : ∀ a ∈ l, Like R g (f a) (f' a)) : LikeAll R g (l.map f) (l.map f') := by
  induction l with
  | nil => exact .nil
  | cons a l ih =>
    obtain ⟨ha, hl⟩ := List.forall_mem_cons.1 h
    exact .cons ha (ih hl)

/-! ## What a node says in another text -/

/-- Whether nodes of a kind have a name, apart from members. -/
def isNaming (kind : String) : Bool :=
  ["namespace_declaration", "file_scoped_namespace_declaration", "variable_declarator",
    "enum_member_declaration"].contains kind || (SymbolKind.ofTypeNode? kind).isSome

/-- Whether a node says in another text, where its bytes have moved, what it said before. -/
structure Rereads (R : Likeness) (m : Nat → Nat) (source source' : Text) (t : Tree) : Prop where
  modifier : ∀ c ∈ t.children, c.kind = "modifier" →
    Text.slice? source' (m c.start) (m c.stop) = Text.slice? source c.start c.stop
  name : isNaming t.kind = true → nameOf source' (t.move m) = nameOf source t
  member : ∀ kind ∈ SymbolKind.ofMemberNode? t.kind,
    memberSymbolName source' (memberKind source kind t) (t.move m) =
      memberSymbolName source (memberKind source kind t) t
  typeParameter : t.kind = "type_parameter" →
    R.typeParameter (nameOf source t) (nameOf source' (t.move m))
  parameter : t.kind = "parameter" →
    R.parameter (parameterOf source t) (parameterOf source' (t.move m))
  target : t.kind = "conversion_operator_declaration" → ∀ c ∈ t.childByField? "type",
    R.target (spacedText source c) (spacedText source' (c.move m))

variable {m : Nat → Nat} {file file' : Nat} {source source' : Text} {t u : Tree} {ts : List Tree}

/-- Modifiers that say what they said are found again. -/
theorem hasModifier_move (h : ∀ c ∈ t.children, c.kind = "modifier" →
      Text.slice? source' (m c.start) (m c.stop) = Text.slice? source c.start c.stop)
    (keyword : String) :
    Tree.hasModifier source' (t.move m) keyword = Tree.hasModifier source t keyword := by
  unfold Tree.hasModifier
  rw [Tree.children_move, List.any_map, Bool.eq_iff_iff, List.any_eq_true, List.any_eq_true]
  apply exists_congr
  intro c
  apply and_congr_right
  intro hc
  rw [Function.comp_apply, Tree.kind_move, Tree.start_move, Tree.stop_move]
  by_cases hkind : c.kind = "modifier"
  · rw [h c hc hkind]
  · simp [hkind]

/-- A node that says what it said has the modifiers that it had. -/
theorem Rereads.hasModifier_eq (h : Rereads R m source source' t) (keyword : String) :
    Tree.hasModifier source' (t.move m) keyword = Tree.hasModifier source t keyword :=
  hasModifier_move h.modifier keyword

/-- Whether the nodes within a tree say what they said, with pieces that have moved. -/
structure Relocates (R : Likeness) (m : Nat → Nat) (file file' : Nat) (source source' : Text)
    (g : Piece → Piece) (t : Tree) : Prop where
  rereads : ∀ u, Tree.Within u t → Rereads R m source source' u
  piece : ∀ u, Tree.Within u t → ∀ role,
    pieceOf source' file' role (u.move m) = g (pieceOf source file role u)

/-- What holds of the nodes within a tree holds of those within a part of it. -/
theorem Relocates.within (h : Relocates R m file file' source source' g t)
    (hu : Tree.Within u t) : Relocates R m file file' source source' g u where
  rereads v hv := h.rereads v (hv.trans hu)
  piece v hv := h.piece v (hv.trans hu)

/-- What holds of the nodes within a tree holds of those within its children. -/
theorem Relocates.child {l : Label} {cs : List Tree}
    (h : Relocates R m file file' source source' g (.node l cs)) :
    ∀ c ∈ cs, Relocates R m file file' source source' g c := fun _ hc =>
  h.within (.under hc .self)

/-! ## The head of a declaration -/

/-- The type parameters of a declaration are like those that it had. -/
theorem typeParametersOf_like (h : ∀ u, Tree.Within u t → Rereads R m source source' u) :
    List.Forall₂ R.typeParameter (typeParametersOf source t)
      (typeParametersOf source' (t.move m)) := by
  unfold typeParametersOf
  rw [Tree.childByFieldOrKind?_move]
  cases hlist : t.childByFieldOrKind? "type_parameters" "type_parameter_list" with
  | none => exact .nil
  | some list =>
    simp only [Option.map_some]
    rw [Tree.filter_namedChildren_move, List.map_map, List.forall₂_map_left_iff,
      List.forall₂_map_right_iff, List.forall₂_same]
    intro c hc
    obtain ⟨hchild, hkind⟩ := List.mem_filter.1 hc
    have hwithin := Tree.within_of_childByFieldOrKind? hlist .self
    exact (h c (Tree.within_of_mem_namedChildren hchild hwithin)).typeParameter
      (by simpa using hkind)

/-- The parameters of a declaration are like those that it had. -/
theorem parametersOf_like (h : ∀ u, Tree.Within u t → Rereads R m source source' u) :
    List.Forall₂ R.parameter (parametersOf source t) (parametersOf source' (t.move m)) := by
  unfold parametersOf
  rw [Tree.childByField?_move]
  cases hlist : t.childByField? "parameters" with
  | none => exact .nil
  | some list =>
    simp only [Option.map_some]
    rw [Tree.filter_namedChildren_move, List.map_map, List.forall₂_map_left_iff,
      List.forall₂_map_right_iff, List.forall₂_same]
    intro c hc
    obtain ⟨hchild, hkind⟩ := List.mem_filter.1 hc
    have hwithin := Tree.within_of_childByField? hlist .self
    exact (h c (Tree.within_of_mem_namedChildren hchild hwithin)).parameter (by simpa using hkind)

/-- A field introduces the names that it introduced. -/
theorem declaratorNames_move (h : ∀ u, Tree.Within u t → Rereads R m source source' u) :
    declaratorNames source' (t.move m) = declaratorNames source t := by
  unfold declaratorNames
  rw [Tree.childOfKind?_move]
  cases hlist : t.childOfKind? "variable_declaration" with
  | none => rfl
  | some list =>
    simp only [Option.map_some]
    rw [Tree.filter_namedChildren_move, List.map_map]
    apply List.map_congr_left
    intro c hc
    obtain ⟨hchild, hkind⟩ := List.mem_filter.1 hc
    have hwithin := Tree.within_of_childOfKind? hlist .self
    apply (h c (Tree.within_of_mem_namedChildren hchild hwithin)).name
    rw [beq_iff_eq] at hkind
    rw [hkind]
    rfl

/-- Only an operator declaration has the kind of an operator. -/
theorem kind_of_operator {kind : SymbolKind} (node : SymbolKind.ofMemberNode? t.kind = some kind)
    (h : memberKind source kind t = .operator) : t.kind = "operator_declaration" := by
  unfold memberKind at h
  split at h
  · cases h
  · subst h
    unfold SymbolKind.ofMemberNode? at node
    split at node <;> first | assumption | cases node

/-- Only a conversion operator has the kind of a conversion. -/
theorem kind_of_conversion {kind : SymbolKind} (node : SymbolKind.ofMemberNode? t.kind = some kind)
    (h : memberKind source kind t = .conversion) : t.kind = "conversion_operator_declaration" := by
  unfold memberKind at h
  split at h
  · cases h
  · subst h
    unfold SymbolKind.ofMemberNode? at node
    split at node <;> first | assumption | cases node

/-- The symbol of a member is like the one that it had. -/
theorem memberSymbol_like (h : ∀ u, Tree.Within u t → Rereads R m source source' u)
    {kind : SymbolKind} (node : SymbolKind.ofMemberNode? t.kind = some kind) :
    (memberSymbol source kind t).Like R (memberSymbol source' kind (t.move m)) := by
  have hnode := h t .self
  have hkind : memberKind source' kind (t.move m) = memberKind source kind t := by
    unfold memberKind
    rw [hnode.hasModifier_eq]
  have hpartial : (memberSymbol source' kind (t.move m)).isPartial =
      (memberSymbol source kind t).isPartial := by
    unfold memberSymbol
    simp only
    rw [hkind, hnode.hasModifier_eq]
  have hname : (memberSymbol source' kind (t.move m)).name = (memberSymbol source kind t).name := by
    unfold memberSymbol
    simp only
    rw [hkind]
    exact hnode.member kind node
  refine ⟨hname, hkind, rfl, rfl, hpartial, typeParametersOf_like h, parametersOf_like h, ?_⟩
  unfold memberSymbol
  simp only
  rw [hkind, Tree.childByField?_move]
  split
  · rename_i hconversion
    have htarget := hnode.target (kind_of_conversion node (by simpa using hconversion))
    cases htype : t.childByField? "type" with
    | none => exact .none
    | some c => exact .some (htarget c htype)
  · exact .none

/-- The symbol of a type is like the one that it had. -/
theorem typeSymbol_like (h : ∀ u, Tree.Within u t → Rereads R m source source' u)
    {kind : SymbolKind} (node : SymbolKind.ofTypeNode? t.kind = some kind)
    (nameSpace : Option Text) :
    (typeSymbol source kind nameSpace t).Like R (typeSymbol source' kind nameSpace (t.move m)) := by
  have hnode := h t .self
  have hname : nameOf source' (t.move m) = nameOf source t :=
    hnode.name (by simp [isNaming, node])
  refine ⟨hname, rfl, rfl, rfl, hnode.hasModifier_eq _, typeParametersOf_like h, ?_, .none⟩
  unfold typeSymbol
  simp only
  split
  · exact parametersOf_like h
  · exact .nil

/-- A member keeps its body. -/
theorem hasBody_move (m : Nat → Nat) (t : Tree) : hasBody (t.move m) = hasBody t := by
  unfold hasBody
  rw [Tree.childByField?_move, Tree.childOfKind?_move, Tree.childOfKind?_move,
    Option.isSome_map, Option.isSome_map, Option.isSome_map]

/-- Members that are alike have the same role. -/
theorem memberRole_like {s s' : Symbol} (h : s.Like R s') (m : Nat → Nat) (t : Tree) :
    memberRole s' (t.move m) = memberRole s t := by
  unfold memberRole Symbol.isPartialMethod
  rw [hasBody_move, h.kind, h.isPartial]

/-- A symbol that is known by its name alone is like itself. -/
theorem like_of_name (R : Likeness) (name : Text) (kind : SymbolKind) :
    Symbol.Like R { name := name, kind := kind } { name := name, kind := kind } :=
  ⟨rfl, rfl, rfl, rfl, rfl, .nil, .nil, .none⟩

/-! ## Outlines -/

/-- The members of an enumeration are like those that it had. -/
theorem enumMembers_like {children : List Tree}
    (h : ∀ c ∈ children, Relocates R m file file' source source' g c) :
    LikeAll R g (enumMembers file source children)
      (enumMembers file' source' (children.map (Tree.move m))) := by
  unfold enumMembers
  rw [Tree.filter_map_move m (fun c => by rw [Tree.named_move, Tree.kind_move]), List.map_map]
  apply likeAll_map
  intro c hc
  obtain ⟨hchild, hkind⟩ := List.mem_filter.1 hc
  have hname : nameOf source' (c.move m) = nameOf source c := by
    rw [Bool.and_eq_true, beq_iff_eq] at hkind
    apply ((h c hchild).rereads c .self).name
    rw [hkind.2]
    rfl
  rw [Function.comp_apply, hname, (h c hchild).piece c .self]
  exact .mk (like_of_name R _ _) .nil

/-- A member makes declarations like those that it made. -/
theorem memberDeclarations_like (h : Relocates R m file file' source source' g t)
    {kind : SymbolKind} (node : SymbolKind.ofMemberNode? t.kind = some kind) :
    LikeAll R g (memberDeclarations file source kind t)
      (memberDeclarations file' source' kind (t.move m)) := by
  unfold memberDeclarations
  rw [Tree.kind_move]
  split
  · rw [declaratorNames_move h.rereads, h.piece t .self]
    exact likeAll_map fun name _ => .mk (like_of_name R name kind) .nil
  · simp only
    have hsymbol := memberSymbol_like h.rereads node
    rw [memberRole_like hsymbol, h.piece t .self]
    exact .cons (.mk hsymbol .nil) .nil

/-- The children of a body are found again. -/
theorem bodyChildren_move (m : Nat → Nat) (t : Tree) :
    (((t.move m).childByField? "body").map Tree.children).getD [] =
      (((t.childByField? "body").map Tree.children).getD []).map (Tree.move m) := by
  rw [Tree.childByField?_move]
  cases t.childByField? "body" with
  | none => rfl
  | some body => exact Tree.children_move m body

/-- The children of a body lie within the declaration. -/
theorem within_of_mem_bodyChildren {c : Tree}
    (hc : c ∈ ((t.childByField? "body").map Tree.children).getD []) : Tree.Within c t := by
  cases hbody : t.childByField? "body" with
  | none => simp [hbody] at hc
  | some body =>
    simp only [hbody, Option.map_some, Option.getD_some] at hc
    exact (Tree.within_of_mem_children hc).trans (Tree.within_of_childByField? hbody .self)

/-- The scope of the siblings behind a node is the one that it was. -/
theorem scopeAfter_move (h : Rereads R m source source' t) (scope : Scope) :
    scopeAfter source' scope (t.move m) = scopeAfter source scope t := by
  unfold scopeAfter
  rw [Tree.named_move, Tree.kind_move]
  split
  · rename_i hnode
    rw [Bool.and_eq_true, beq_iff_eq] at hnode
    rw [h.name (by rw [hnode.2]; rfl)]
  · rfl

mutual

/-- A node makes declarations like those that it made. -/
theorem ofNode_like : ∀ (t : Tree) (scope : Scope),
    Relocates R m file file' source source' g t →
    LikeAll R g (ofNode file source scope t) (ofNode file' source' scope (t.move m))
  | .node l cs, scope, h => by
    have hname : isNaming l.kind = true →
        nameOf source' (Tree.move m (.node l cs)) = nameOf source (.node l cs) :=
      (h.rereads _ .self).name
    rw [Tree.move_node]
    unfold ofNode
    rw [← Tree.move_node]
    simp only
    rw [Label.named_move, Label.kind_move]
    split
    · exact .nil
    split
    · rename_i hkind
      rw [hname (by rw [beq_iff_eq.1 hkind]; rfl)]
      exact ofBody_like cs _ h.child
    split
    · rename_i hkind
      rw [hname (by rw [beq_iff_eq.1 hkind]; rfl)]
      exact ofSiblings_like cs _ h.child
    cases htype : SymbolKind.ofTypeNode? l.kind with
    | some kind =>
      simp only
      have hsymbol := typeSymbol_like (t := .node l cs) h.rereads htype scope.nameSpace
      rw [hsymbol.isPartial, h.piece _ .self, bodyChildren_move]
      refine .cons (.mk hsymbol ?_) .nil
      split
      · exact enumMembers_like fun c hc => h.within (within_of_mem_bodyChildren hc)
      · exact ofBody_like cs _ h.child
    | none =>
      cases hmember : SymbolKind.ofMemberNode? l.kind with
      | some kind =>
        simp only
        split
        · exact memberDeclarations_like (t := .node l cs) h hmember
        · exact .nil
      | none => exact .nil

/-- Neighbouring nodes make declarations like those that they made. -/
theorem ofSiblings_like : ∀ (ts : List Tree) (scope : Scope),
    (∀ t ∈ ts, Relocates R m file file' source source' g t) →
    LikeAll R g (ofSiblings file source scope ts)
      (ofSiblings file' source' scope (Tree.moveAll m ts))
  | [], scope, _ => by
    unfold Tree.moveAll ofSiblings
    exact .nil
  | t :: ts, scope, h => by
    obtain ⟨ht, hts⟩ := List.forall_mem_cons.1 h
    unfold Tree.moveAll ofSiblings
    rw [scopeAfter_move (ht.rereads t .self)]
    exact (ofNode_like t scope ht).append (ofSiblings_like ts _ hts)

/-- A body makes declarations like those that it made. -/
theorem ofBody_like : ∀ (ts : List Tree) (scope : Scope),
    (∀ t ∈ ts, Relocates R m file file' source source' g t) →
    LikeAll R g (ofBody file source scope ts) (ofBody file' source' scope (Tree.moveAll m ts))
  | [], scope, _ => by
    unfold Tree.moveAll ofBody
    exact .nil
  | t :: ts, scope, h => by
    obtain ⟨ht, hts⟩ := List.forall_mem_cons.1 h
    unfold Tree.moveAll ofBody
    rw [Tree.field_move]
    split
    · exact ofChildren_like t scope ht
    · exact ofBody_like ts scope hts

/-- **A tree whose nodes say in another text what they said makes declarations like its own.** -/
theorem ofChildren_like : ∀ (t : Tree) (scope : Scope),
    Relocates R m file file' source source' g t →
    LikeAll R g (ofChildren file source scope t) (ofChildren file' source' scope (t.move m))
  | .node _ cs, scope, h => by
    unfold Tree.move ofChildren
    exact ofSiblings_like cs scope h.child

end

end Declaration

end PartialDocs
