import PartialDocs.Proofs.Declaration.SourceOrder

/-!
# The nodes that make declarations

Every declaration of a file is made by one node of its tree.  A type node and a member node
that introduces one name make a declaration each, a field makes one for each of its
declarators, and so does a value of an enumeration (`Makes`).  What a symbol holds can
therefore be read off a node, whatever surrounds it (`made_listing`).
-/

set_option autoImplicit false

namespace PartialDocs.Declaration

/-- Whether a node introduces one name for each of its declarators. -/
def hasDeclarators (t : Tree) : Bool :=
  t.kind == "field_declaration" || t.kind == "event_field_declaration"

/-- The symbols and pieces that a node makes. -/
inductive Makes (file : Nat) (source : Text) (t : Tree) : Symbol → Piece → Prop where
  | type {kind : SymbolKind} (node : SymbolKind.ofTypeNode? t.kind = some kind)
      (nameSpace : Option Text) (role : Role) :
      Makes file source t (typeSymbol source kind nameSpace t) (pieceOf source file role t)
  | value :
      Makes file source t { name := nameOf source t, kind := .enumMember }
        (pieceOf source file .whole t)
  | member {kind : SymbolKind} (node : SymbolKind.ofMemberNode? t.kind = some kind)
      (single : hasDeclarators t = false) :
      Makes file source t (memberSymbol source kind t)
        (pieceOf source file (memberRole (memberSymbol source kind t) t) t)
  | declarator {kind : SymbolKind} {name : Text}
      (node : SymbolKind.ofMemberNode? t.kind = some kind) (several : hasDeclarators t = true)
      (mem : name ∈ declaratorNames source t) :
      Makes file source t { name := name, kind := kind } (pieceOf source file .whole t)

variable {file : Nat} {source : Text} {t u : Tree} {outer : List Symbol} {x : Listed}

/-- Whether a listed declaration is made by a node within the given tree. -/
def MadeIn (file : Nat) (source : Text) (t : Tree) (x : Listed) : Prop :=
  ∃ u, Tree.Within u t ∧ Makes file source u x.symbol x.piece

/-- What is made in a part of a tree is made in the tree. -/
theorem MadeIn.mono (h : MadeIn file source t x) (ht : Tree.Within t u) :
    MadeIn file source u x := by
  obtain ⟨v, hv, hmakes⟩ := h
  exact ⟨v, hv.trans ht, hmakes⟩

/-- Declarations without bodies are listed as they are. -/
theorem mem_of_mem_listingAll {ds : List Declaration} (leaves : ∀ d ∈ ds, d.members = [])
    (hx : x ∈ listingAll outer ds) : .mk x.symbol x.piece [] ∈ ds := by
  induction ds with
  | nil => simp [listingAll.eq_1] at hx
  | cons y ds ih =>
    obtain ⟨s, p, members⟩ := y
    obtain ⟨hfirst, hrest⟩ := List.forall_mem_cons.1 leaves
    obtain rfl : members = [] := hfirst
    rw [listingAll.eq_2, listing.eq_1, listingAll.eq_1, List.singleton_append, List.mem_cons] at hx
    obtain rfl | hx := hx
    · exact List.mem_cons_self
    · exact List.mem_cons_of_mem _ (ih hrest hx)

/-- The declarations of a member are made in its node. -/
theorem madeIn_memberDeclarations {kind : SymbolKind}
    (node : SymbolKind.ofMemberNode? t.kind = some kind)
    (hx : x ∈ listingAll outer (memberDeclarations file source kind t)) :
    MadeIn file source t x := by
  refine ⟨t, .self, ?_⟩
  unfold memberDeclarations at hx
  split at hx
  · rename_i several
    rw [listingAll_map_mk outer (fun name => { name := name, kind := kind })
      (fun _ => pieceOf source file .whole t)] at hx
    obtain ⟨name, hname, rfl⟩ := List.mem_map.1 hx
    exact .declarator node several hname
  · rename_i single
    have hmem := mem_of_mem_listingAll (by simp [members]) hx
    obtain ⟨hsymbol, hpiece, -⟩ := Declaration.mk.inj (List.mem_singleton.1 hmem)
    rw [hsymbol, hpiece]
    exact .member node (Bool.eq_false_iff.2 single)

/-- The members of an enumeration are made in its node. -/
theorem madeIn_enumMembers
    (hx : x ∈ listingAll outer
      (enumMembers file source (((t.childByField? "body").map Tree.children).getD []))) :
    MadeIn file source t x := by
  unfold enumMembers at hx
  rw [listingAll_map_mk outer (fun c => { name := nameOf source c, kind := .enumMember })
    (pieceOf source file .whole)] at hx
  obtain ⟨c, hc, rfl⟩ := List.mem_map.1 hx
  have hchild := (List.mem_filter.1 hc).1
  refine ⟨c, ?_, .value⟩
  cases hbody : t.childByField? "body" with
  | none => simp [hbody] at hchild
  | some body =>
    simp only [hbody, Option.map_some, Option.getD_some] at hchild
    have hbelow : Tree.Within body t :=
      Tree.within_of_mem_children (List.mem_of_find?_eq_some hbody)
    exact (Tree.within_of_mem_children hchild).trans hbelow

mutual

/-- The declarations of a node are made in it. -/
theorem madeIn_ofNode : ∀ (t : Tree) (scope : Scope) (outer : List Symbol),
    ∀ x ∈ listingAll outer (ofNode file source scope t), MadeIn file source t x
  | .node l cs, scope, outer, x, hx => by
    have hnone : x ∉ listingAll outer [] := by
      rw [listingAll.eq_1]
      exact List.not_mem_nil
    have hbelow : (∃ c ∈ cs, MadeIn file source c x) → MadeIn file source (.node l cs) x := by
      rintro ⟨c, hc, h⟩
      exact h.mono (.under hc .self)
    unfold ofNode at hx
    simp only at hx
    split at hx
    · exact absurd hx hnone
    split at hx
    · exact hbelow (madeIn_ofBody cs _ outer x hx)
    split at hx
    · exact hbelow (madeIn_ofSiblings cs _ outer x hx)
    split at hx
    · rename_i kind hkind
      rw [listingAll.eq_2, listing.eq_1, listingAll.eq_1, List.append_nil, List.mem_cons] at hx
      obtain rfl | hx := hx
      · exact ⟨.node l cs, .self, .type (t := .node l cs) hkind scope.nameSpace _⟩
      split at hx
      · exact madeIn_enumMembers hx
      · exact hbelow (madeIn_ofBody cs _ _ x hx)
    split at hx
    · rename_i kind hkind
      split at hx
      · exact madeIn_memberDeclarations (t := .node l cs) hkind hx
      · exact absurd hx hnone
    · exact absurd hx hnone

/-- The declarations of neighbouring nodes are each made in one of them. -/
theorem madeIn_ofSiblings : ∀ (ts : List Tree) (scope : Scope) (outer : List Symbol),
    ∀ x ∈ listingAll outer (ofSiblings file source scope ts), ∃ t ∈ ts, MadeIn file source t x
  | [], scope, outer, x, hx => by
    unfold ofSiblings at hx
    simp [listingAll.eq_1] at hx
  | t :: ts, scope, outer, x, hx => by
    unfold ofSiblings at hx
    rw [listingAll_append, List.mem_append] at hx
    obtain hx | hx := hx
    · exact ⟨t, List.mem_cons_self, madeIn_ofNode t scope outer x hx⟩
    · obtain ⟨u, hu, h⟩ := madeIn_ofSiblings ts _ outer x hx
      exact ⟨u, List.mem_cons_of_mem _ hu, h⟩

/-- The declarations of a body are each made in one of its nodes. -/
theorem madeIn_ofBody : ∀ (ts : List Tree) (scope : Scope) (outer : List Symbol),
    ∀ x ∈ listingAll outer (ofBody file source scope ts), ∃ t ∈ ts, MadeIn file source t x
  | [], scope, outer, x, hx => by
    unfold ofBody at hx
    simp [listingAll.eq_1] at hx
  | t :: ts, scope, outer, x, hx => by
    unfold ofBody at hx
    split at hx
    · exact ⟨t, List.mem_cons_self, madeIn_ofChildren t scope outer x hx⟩
    · obtain ⟨u, hu, h⟩ := madeIn_ofBody ts scope outer x hx
      exact ⟨u, List.mem_cons_of_mem _ hu, h⟩

/-- The declarations of the children of a node are made in it. -/
theorem madeIn_ofChildren : ∀ (t : Tree) (scope : Scope) (outer : List Symbol),
    ∀ x ∈ listingAll outer (ofChildren file source scope t), MadeIn file source t x
  | .node l cs, scope, outer, x, hx => by
    unfold ofChildren at hx
    obtain ⟨c, hc, h⟩ := madeIn_ofSiblings cs scope outer x hx
    exact h.mono (.under hc .self)

end

/-- **Every declaration of a file is made by a node of its tree.** -/
theorem made_listing {f : SourceFile} {ordinal : Nat} (hx : x ∈ f.listing ordinal) :
    MadeIn ordinal f.text f.tree x :=
  madeIn_ofChildren f.tree .file [] x hx

/-- A piece is that of the node. -/
theorem Makes.exists_role {s : Symbol} {p : Piece} (h : Makes file source t s p) :
    ∃ role, p = pieceOf source file role t := by
  cases h <;> exact ⟨_, rfl⟩

/-! ## What the kind says about the node -/

/-- Whether declarations of a kind have parameters. -/
def takesParameters : SymbolKind → Bool
  | .method | .constructor | .staticConstructor | .destructor | .operator | .conversion | .indexer
  | .delegate => true
  | _ => false

/-- Only fields and events have several declarators. -/
theorem not_takesParameters_of_hasDeclarators {kind : SymbolKind}
    (several : hasDeclarators t = true)
    (node : SymbolKind.ofMemberNode? t.kind = some kind) : takesParameters kind = false := by
  unfold hasDeclarators at several
  rw [Bool.or_eq_true, beq_iff_eq, beq_iff_eq] at several
  obtain h | h := several
  · rw [h] at node
    cases node
    rfl
  · rw [h] at node
    cases node
    rfl

/-- **The parameters of a declaration are those that its node lists.** -/
theorem Makes.parameters_eq {s : Symbol} {p : Piece} (h : Makes file source t s p)
    (takes : takesParameters s.kind = true) : s.parameters = parametersOf source t := by
  cases h with
  | @type kind node nameSpace role =>
    have hdelegate : kind = .delegate := by
      have htype := SymbolKind.isType_of_ofTypeNode? node
      change takesParameters kind = true at takes
      cases kind <;> simp_all [takesParameters, SymbolKind.isType]
    subst hdelegate
    rfl
  | value => cases takes
  | member node single => rfl
  | declarator node several mem =>
    rw [not_takesParameters_of_hasDeclarators several node] at takes
    cases takes

end PartialDocs.Declaration
