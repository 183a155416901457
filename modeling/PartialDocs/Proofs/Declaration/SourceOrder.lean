import PartialDocs.Proofs.Declaration.Listing
import PartialDocs.Proofs.Declaration.Outline
import PartialDocs.Proofs.Syntax.InOrder

/-!
# Outlines are in source order

The declarations of a tree in order are listed by increasing offset
(`SourceFile.listing_sorted`).  The walk lists a type before its members, the members of a
body one after another, and neighbours in the order in which they stand.  Every
declaration starts where a node below these neighbours starts, so that the order of the
nodes is that of the listing.
-/

set_option autoImplicit false

namespace PartialDocs

namespace Declaration

/-- Whether declarations are listed by increasing offset and each starts where a node within the
given neighbours starts. -/
structure StartsIn (ts : List Tree) (l : List Listed) : Prop where
  sorted : l.Pairwise fun x y => x.piece.offset ≤ y.piece.offset
  nodes : ∀ x ∈ l, ∃ t ∈ ts, ∃ u : Tree, Tree.Within u t ∧ u.start = x.piece.offset

variable {t : Tree} {ts us : List Tree} {l m : List Listed} {outer : List Symbol}

/-- No declarations start in order. -/
theorem startsIn_nil (ts : List Tree) : StartsIn ts [] := ⟨List.Pairwise.nil, by simp⟩

/-- What starts in trees starts in trees around them. -/
theorem StartsIn.mono (h : StartsIn ts l) (sub : ∀ t ∈ ts, ∃ u ∈ us, Tree.Within t u) :
    StartsIn us l where
  sorted := h.sorted
  nodes := by
    intro x hx
    obtain ⟨t, ht, v, hv, hstart⟩ := h.nodes x hx
    obtain ⟨u, hu, htu⟩ := sub t ht
    exact ⟨u, hu, v, hv.trans htu, hstart⟩

/-- What starts within the children of a node starts within the node. -/
theorem StartsIn.ofChildren {label : Label} {cs : List Tree} (h : StartsIn cs l) :
    StartsIn [.node label cs] l :=
  h.mono fun _ hc => ⟨_, List.mem_singleton_self _, .under hc .self⟩

/-- The declarations of a node come before those of the neighbours after it. -/
theorem StartsIn.append (h : StartsIn [t] l) (h' : StartsIn ts m)
    (listed : ∀ d ∈ ts, ∀ u : Tree, Tree.Within u t → u.start ≤ d.start)
    (inOrder : ∀ d ∈ ts, Tree.InOrder d) : StartsIn (t :: ts) (l ++ m) where
  sorted := by
    refine List.pairwise_append.2 ⟨h.sorted, h'.sorted, ?_⟩
    intro x hx y hy
    obtain ⟨c, hc, u, hu, hstart⟩ := h.nodes x hx
    obtain ⟨d, hd, v, hv, hstart'⟩ := h'.nodes y hy
    obtain rfl : c = t := List.mem_singleton.1 hc
    calc x.piece.offset = u.start := hstart.symm
      _ ≤ d.start := listed d hd u hu
      _ ≤ v.start := (inOrder d hd).start_le hv
      _ = y.piece.offset := hstart'
  nodes := by
    intro x hx
    rcases List.mem_append.1 hx with hx | hx
    · obtain ⟨c, hc, hu⟩ := h.nodes x hx
      exact ⟨c, List.mem_cons.2 (.inl (List.mem_singleton.1 hc)), hu⟩
    · obtain ⟨d, hd, hu⟩ := h'.nodes x hx
      exact ⟨d, List.mem_cons_of_mem _ hd, hu⟩

/-- A declaration at the start of a node comes before all others of the node. -/
theorem StartsIn.cons {x : Listed} (h : StartsIn [t] l) (inOrder : Tree.InOrder t)
    (start : x.piece.offset = t.start) : StartsIn [t] (x :: l) where
  sorted := by
    refine List.pairwise_cons.2 ⟨?_, h.sorted⟩
    intro y hy
    obtain ⟨c, hc, u, hu, hstart⟩ := h.nodes y hy
    obtain rfl : c = t := List.mem_singleton.1 hc
    rw [start, ← hstart]
    exact inOrder.start_le hu
  nodes := by
    refine List.forall_mem_cons.2 ⟨?_, h.nodes⟩
    exact ⟨t, List.mem_singleton_self t, t, .self, start.symm⟩

/-- Declarations of which each starts with the node. -/
theorem startsIn_of_start (h : ∀ x ∈ l, x.piece.offset = t.start) : StartsIn [t] l where
  sorted := by
    refine List.pairwise_of_forall_mem_list ?_
    intro x hx y hy
    exact Nat.le_of_eq ((h x hx).trans (h y hy).symm)
  nodes x hx := ⟨t, List.mem_singleton_self t, t, .self, (h x hx).symm⟩

/-! ## Members -/

/-- Declarations are listed one part after the other. -/
theorem listingAll_append (outer : List Symbol) (ds es : List Declaration) :
    listingAll outer (ds ++ es) = listingAll outer ds ++ listingAll outer es := by
  induction ds with
  | nil =>
    rw [List.nil_append, listingAll.eq_1]
    rfl
  | cons d ds ih => rw [List.cons_append, listingAll.eq_2, listingAll.eq_2, ih, List.append_assoc]

/-- Declarations without a body are listed as they are. -/
theorem listingAll_map_mk {α : Type} (outer : List Symbol) (s : α → Symbol) (p : α → Piece)
    (l : List α) :
    listingAll outer (l.map fun a => mk (s a) (p a) []) =
      l.map fun a => ⟨outerOf outer (s a), s a, p a⟩ := by
  induction l with
  | nil =>
    rw [List.map_nil, listingAll.eq_1]
    rfl
  | cons a l ih =>
    have hfirst : listing outer (mk (s a) (p a) []) = [⟨outerOf outer (s a), s a, p a⟩] := by
      rw [listing.eq_1, listingAll.eq_1]
    rw [List.map_cons, listingAll.eq_2, hfirst, ih]
    rfl

variable (file : Nat) (source : Text)

/-- All declarations of a member node start with it. -/
theorem startsIn_memberDeclarations (kind : SymbolKind) (t : Tree) :
    StartsIn [t] (listingAll outer (memberDeclarations file source kind t)) := by
  refine startsIn_of_start ?_
  intro x hx
  unfold memberDeclarations at hx
  split at hx
  · rw [listingAll_map_mk outer (fun name => { name := name, kind := kind })
      (fun _ => pieceOf source file .whole t)] at hx
    obtain ⟨name, -, rfl⟩ := List.mem_map.1 hx
    rfl
  · rw [listingAll.eq_2, listing.eq_1, listingAll.eq_1, listingAll.eq_1, List.mem_append] at hx
    rcases hx with hx | hx
    · rw [List.mem_singleton.1 hx]
      rfl
    · simp at hx

/-- The members of an enumeration are listed as their nodes are. -/
theorem startsIn_enumMembers {cs : List Tree}
    (listed : cs.Pairwise fun c d => ∀ u : Tree, Tree.Within u c → u.start ≤ d.start) :
    StartsIn cs (listingAll outer (enumMembers file source cs)) := by
  unfold enumMembers
  rw [listingAll_map_mk outer (fun c => { name := nameOf source c, kind := .enumMember })
    (pieceOf source file .whole)]
  refine ⟨?_, ?_⟩
  · rw [List.pairwise_map]
    exact (listed.filter _).imp fun h => h _ .self
  · intro x hx
    obtain ⟨c, hc, rfl⟩ := List.mem_map.1 hx
    exact ⟨c, (List.mem_filter.1 hc).1, c, .self, rfl⟩

/-- The members of an enumeration are among the children of its body. -/
theorem startsIn_enumBody {l : Label} {cs : List Tree} (inOrder : ∀ c ∈ cs, Tree.InOrder c) :
    StartsIn cs (listingAll outer
      (enumMembers file source
        ((((Tree.node l cs).childByField? "body").map Tree.children).getD []))) := by
  cases hbody : (Tree.node l cs).childByField? "body" with
  | none =>
    have hempty : enumMembers file source [] = [] := rfl
    rw [Option.map_none, Option.getD_none, hempty, listingAll.eq_1]
    exact startsIn_nil _
  | some body =>
    have hmem : body ∈ cs := List.mem_of_find?_eq_some hbody
    rw [Option.map_some, Option.getD_some]
    cases inOrder body hmem with
    | node _ listed _ =>
      refine (startsIn_enumMembers file source listed).mono ?_
      intro c hc
      exact ⟨_, hmem, .under hc .self⟩

/-! ## Outlines -/

mutual

/-- The induction is on the tree, with the symbols around it left open, since a type adds itself to
them for its members. -/
theorem startsIn_ofNode : ∀ (t : Tree) (scope : Scope) (outer : List Symbol), Tree.InOrder t →
    StartsIn [t] (listingAll outer (ofNode file source scope t))
  | .node l cs, scope, outer, h => by
    cases hnode : h with
    | node within listed below =>
      have hnone : StartsIn [.node l cs] (listingAll outer []) := by
        rw [listingAll.eq_1]
        exact startsIn_nil _
      unfold ofNode
      simp only
      split
      · exact hnone
      split
      · exact (startsIn_ofBody cs _ outer below).ofChildren
      split
      · exact (startsIn_ofSiblings cs _ outer listed below).ofChildren
      split
      · rename_i kind hkind
        rw [listingAll.eq_2, listing.eq_1, listingAll.eq_1, List.append_nil]
        refine StartsIn.cons ?_ h rfl
        split
        · exact (startsIn_enumBody file source below).ofChildren
        · exact (startsIn_ofBody cs _ _ below).ofChildren
      split
      · split
        · exact startsIn_memberDeclarations file source _ _
        · exact hnone
      · exact hnone

/-- The declarations of neighbouring nodes start in order. -/
theorem startsIn_ofSiblings : ∀ (ts : List Tree) (scope : Scope) (outer : List Symbol),
    (ts.Pairwise fun c d => ∀ u : Tree, Tree.Within u c → u.start ≤ d.start) →
    (∀ t ∈ ts, Tree.InOrder t) → StartsIn ts (listingAll outer (ofSiblings file source scope ts))
  | [], scope, outer, _, _ => by
    unfold ofSiblings
    rw [listingAll.eq_1]
    exact startsIn_nil _
  | t :: ts, scope, outer, listed, inOrder => by
    obtain ⟨hfirst, hrest⟩ := List.pairwise_cons.1 listed
    obtain ⟨ht, hts⟩ := List.forall_mem_cons.1 inOrder
    unfold ofSiblings
    rw [listingAll_append]
    exact (startsIn_ofNode t scope outer ht).append
      (startsIn_ofSiblings ts _ outer hrest hts) hfirst hts

/-- The declarations of a body start in order. -/
theorem startsIn_ofBody : ∀ (ts : List Tree) (scope : Scope) (outer : List Symbol),
    (∀ t ∈ ts, Tree.InOrder t) → StartsIn ts (listingAll outer (ofBody file source scope ts))
  | [], scope, outer, _ => by
    unfold ofBody
    rw [listingAll.eq_1]
    exact startsIn_nil _
  | t :: ts, scope, outer, inOrder => by
    obtain ⟨ht, hts⟩ := List.forall_mem_cons.1 inOrder
    unfold ofBody
    split
    · refine (startsIn_ofChildren t scope outer ht).mono ?_
      intro b hb
      exact ⟨b, List.mem_cons.2 (.inl (List.mem_singleton.1 hb)), .self⟩
    · refine (startsIn_ofBody ts scope outer hts).mono ?_
      intro b hb
      exact ⟨b, List.mem_cons_of_mem _ hb, .self⟩

/-- The declarations of the children of a node start in order. -/
theorem startsIn_ofChildren : ∀ (t : Tree) (scope : Scope) (outer : List Symbol),
    Tree.InOrder t → StartsIn [t] (listingAll outer (ofChildren file source scope t))
  | .node l cs, scope, outer, h => by
    cases h with
    | node _ listed below =>
      unfold ofChildren
      exact (startsIn_ofSiblings cs scope outer listed below).ofChildren

end

end Declaration

/-- **The declarations of a tree in order are listed by increasing offset.** -/
theorem SourceFile.listing_sorted (f : SourceFile) (ordinal : Nat) (h : f.tree.InOrder) :
    (f.listing ordinal).Pairwise fun x y => x.piece.offset ≤ y.piece.offset :=
  (Declaration.startsIn_ofChildren ordinal f.text f.tree .file [] h).sorted

end PartialDocs
