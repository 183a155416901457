import PartialDocs.Declaration.Outline
import PartialDocs.Proofs.Index.Run
import PartialDocs.Proofs.Syntax.Nodes

/-!
# Outlines hold proper declarations

Whatever the shape of a syntax tree, every declaration of its outline is proper.  A
partial type is declared in parts, a partial method with or without a body, anything else
as a whole; a member stands in the body of a type; and each piece has the kind and the
span of a node of the tree.
-/

set_option autoImplicit false

namespace PartialDocs

/-- A node for types declares a type. -/
theorem SymbolKind.isType_of_ofTypeNode? {node : String} {kind : SymbolKind}
    (h : ofTypeNode? node = some kind) : kind.isType = true := by
  unfold ofTypeNode? at h
  split at h <;> cases h <;> rfl

/-- A node for members declares none. -/
theorem SymbolKind.isType_of_ofMemberNode? {node : String} {kind : SymbolKind}
    (h : ofMemberNode? node = some kind) : kind.isType = false := by
  unfold ofMemberNode? at h
  split at h <;> cases h <;> rfl

namespace Declaration

variable (file : Nat) (source : Text) {Known : Piece → Prop}

/-- Every piece of a node within a tree is known. -/
def KnowsNodes (Known : Piece → Prop) (u : Tree) : Prop :=
  ∀ (t : Tree) (r : Role), Tree.Within t u → Known (pieceOf source file r t)

variable {file source}

/-- What is known of the nodes of a tree is known of those of a part of it. -/
theorem KnowsNodes.mono {t u : Tree} (h : KnowsNodes file source Known u)
    (ht : Tree.Within t u) : KnowsNodes file source Known t :=
  fun v r hv => h v r (hv.trans ht)

/-! ## Members -/

/-- A modifier does not make a type of a member. -/
theorem isType_memberKind {kind : SymbolKind} (h : kind.isType = false) (t : Tree) :
    (memberKind source kind t).isType = false := by
  unfold memberKind
  split
  · rfl
  · exact h

/-- The role of a member's piece fits the member. -/
theorem fits_memberRole (kind : SymbolKind) (t : Tree) :
    (memberRole (memberSymbol source kind t) t).Fits (memberSymbol source kind t) := by
  unfold memberRole
  by_cases hs : (memberSymbol source kind t).isPartialMethod = true
  · rw [if_pos hs]
    split <;> exact hs
  · rw [if_neg hs]
    -- a member is partial only as a method, so this one is not
    unfold Role.Fits
    unfold Symbol.isPartialMethod memberSymbol at hs
    unfold memberSymbol
    simp only [Bool.and_eq_true, not_and, Bool.not_eq_true] at hs ⊢
    cases hk : memberKind source kind t == SymbolKind.method with
    | false => simp
    | true => simpa [hk] using hs hk

/-- A member makes proper declarations. -/
theorem proper_memberDeclarations {kind : SymbolKind} (hk : kind.isType = false) {t : Tree}
    (known : ∀ r : Role, Known (pieceOf source file r t)) :
    ∀ d ∈ memberDeclarations file source kind t, d.Proper Known := by
  intro d hd
  unfold memberDeclarations at hd
  split at hd
  · obtain ⟨name, -, rfl⟩ := List.mem_map.1 hd
    exact .member hk rfl rfl (known .whole)
  · rw [List.mem_singleton.1 hd]
    exact .member (isType_memberKind hk t) rfl (fits_memberRole kind t) (known _)

/-- The members of an enumeration are proper declarations. -/
theorem proper_enumMembers {children : List Tree}
    (known : ∀ t ∈ children, ∀ r : Role, Known (pieceOf source file r t)) :
    ∀ d ∈ enumMembers file source children, d.Proper Known := by
  intro d hd
  obtain ⟨t, ht, rfl⟩ := List.mem_map.1 hd
  exact .member rfl rfl rfl (known t (List.mem_filter.1 ht).1 .whole)

/-! ## Outlines -/

/-- The children of a body lie within the declaration. -/
theorem within_body {l : Label} {cs : List Tree} {t : Tree}
    (h : t ∈ (((Tree.node l cs).childByField? "body").map Tree.children).getD []) :
    Tree.Within t (.node l cs) := by
  cases hbody : (Tree.node l cs).childByField? "body" with
  | none => simp [hbody] at h
  | some body =>
    simp only [hbody, Option.map_some, Option.getD_some] at h
    exact (Tree.within_of_mem_children h).trans (.under (List.mem_of_find?_eq_some hbody) .self)

mutual

/-- The declarations of a node are proper, and members among them are in a type. -/
theorem proper_ofNode : ∀ (t : Tree) (scope : Scope), KnowsNodes file source Known t →
    ∀ d ∈ ofNode file source scope t,
      d.Proper Known ∧ (d.symbol.kind.isType = true ∨ scope.inType = true)
  | .node l cs, scope, known, d, hd => by
    have below : ∀ c ∈ cs, KnowsNodes file source Known c :=
      fun c hc => known.mono (.under hc .self)
    have enter : ∀ name : Text, (scope.enter name).inType = false := by
      intro name
      unfold Scope.enter
      split <;> rfl
    unfold ofNode at hd
    simp only at hd
    split at hd
    · simp at hd
    split at hd
    · obtain ⟨hproper, htype⟩ := proper_ofBody cs _ below d hd
      exact ⟨hproper, .inl (by simpa [enter] using htype)⟩
    split at hd
    · obtain ⟨hproper, htype⟩ := proper_ofSiblings cs _ below d hd
      exact ⟨hproper, .inl (by simpa [enter] using htype)⟩
    split at hd
    · rename_i kind hkind
      have hktype := SymbolKind.isType_of_ofTypeNode? hkind
      rw [List.mem_singleton.1 hd]
      refine ⟨.type hktype ?_ (known _ _ .self) ?_, .inl hktype⟩
      · split
        · rename_i hpart
          exact ⟨hpart, hktype⟩
        · rename_i hpart
          exact Bool.eq_false_iff.2 hpart
      · intro d' hd'
        split at hd'
        · exact proper_enumMembers (fun t ht r => known t r (within_body ht)) d' hd'
        · exact (proper_ofBody cs _ below d' hd').1
    split at hd
    · rename_i kind hkind
      split at hd
      · rename_i hin
        have hk := SymbolKind.isType_of_ofMemberNode? hkind
        exact ⟨proper_memberDeclarations hk (fun r => known _ r .self) d hd, .inr hin⟩
      · simp at hd
    · simp at hd

/-- The scope of later neighbours is in a type only if that of the first one is. -/
theorem proper_ofSiblings : ∀ (ts : List Tree) (scope : Scope),
    (∀ t ∈ ts, KnowsNodes file source Known t) →
    ∀ d ∈ ofSiblings file source scope ts,
      d.Proper Known ∧ (d.symbol.kind.isType = true ∨ scope.inType = true)
  | [], _, _, d, hd => by
    unfold ofSiblings at hd
    simp at hd
  | t :: ts, scope, known, d, hd => by
    unfold ofSiblings at hd
    rcases List.mem_append.1 hd with hd | hd
    · exact proper_ofNode t scope (known t List.mem_cons_self) d hd
    · obtain ⟨hproper, htype⟩ := proper_ofSiblings ts (scopeAfter source scope t)
        (fun u hu => known u (List.mem_cons_of_mem _ hu)) d hd
      refine ⟨hproper, htype.imp_right ?_⟩
      unfold scopeAfter Scope.enter
      split
      · split <;> simp
      · exact id

/-- A body makes proper declarations, of members only inside a type. -/
theorem proper_ofBody : ∀ (ts : List Tree) (scope : Scope),
    (∀ t ∈ ts, KnowsNodes file source Known t) →
    ∀ d ∈ ofBody file source scope ts,
      d.Proper Known ∧ (d.symbol.kind.isType = true ∨ scope.inType = true)
  | [], _, _, d, hd => by
    unfold ofBody at hd
    simp at hd
  | t :: ts, scope, known, d, hd => by
    unfold ofBody at hd
    split at hd
    · exact proper_ofChildren t scope (known t List.mem_cons_self) d hd
    · exact proper_ofBody ts scope (fun u hu => known u (List.mem_cons_of_mem _ hu)) d hd

/-- The children of a node make proper declarations, of members only inside a type. -/
theorem proper_ofChildren : ∀ (t : Tree) (scope : Scope), KnowsNodes file source Known t →
    ∀ d ∈ ofChildren file source scope t,
      d.Proper Known ∧ (d.symbol.kind.isType = true ∨ scope.inType = true)
  | .node _ cs, scope, known, d, hd => by
    unfold ofChildren at hd
    exact proper_ofSiblings cs scope (fun c hc => known.mono (.under hc .self)) d hd

end

/-! ## Comparing outlines -/

mutual

/-- Whether two declarations are the same, bodies included. -/
def decideEq : (d e : Declaration) → Decidable (d = e)
  | .mk s p ds, .mk s' p' ds' =>
    if hs : s = s' then
      if hp : p = p' then
        match decideEqAll ds ds' with
        | .isTrue hds => .isTrue (by rw [hs, hp, hds])
        | .isFalse hds => .isFalse fun h => hds (Declaration.mk.inj h).2.2
      else .isFalse fun h => hp (Declaration.mk.inj h).2.1
    else .isFalse fun h => hs (Declaration.mk.inj h).1

/-- Whether two lists of declarations are the same. -/
def decideEqAll : (ds es : List Declaration) → Decidable (ds = es)
  | [], [] => .isTrue rfl
  | [], _ :: _ => .isFalse (by simp)
  | _ :: _, [] => .isFalse (by simp)
  | d :: ds, e :: es =>
    match decideEq d e, decideEqAll ds es with
    | .isTrue hd, .isTrue hds => .isTrue (by rw [hd, hds])
    | .isFalse hd, _ => .isFalse fun h => hd (List.cons.inj h).1
    | _, .isFalse hds => .isFalse fun h => hds (List.cons.inj h).2

end

/-- Declarations can be compared. -/
instance : DecidableEq Declaration := decideEq

end Declaration

end PartialDocs
