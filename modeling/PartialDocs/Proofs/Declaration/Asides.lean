import PartialDocs.Proofs.Declaration.Likeness
import PartialDocs.Proofs.Declaration.Sections

/-!
# Comments and lists of attributes

A tree is as good without its comments and its lists of attributes: `bare` leaves them out, and
what is left makes the same declarations (`outline_bare`).  Only the children of an operator stay,
since a comment right behind the word operator is taken for its token.
-/

set_option autoImplicit false

namespace PartialDocs

namespace Tree

/-- The kinds of nodes that say nothing about what is declared. -/
def asideKinds : List String := ["attribute_list", "comment"]

/-- Whether a node is a comment or a list of attributes. -/
def isAside (t : Tree) : Bool :=
  t.label.named && t.label.field == none && asideKinds.contains t.kind

mutual

/-- A tree without its comments and lists of attributes. -/
def bare : Tree → Tree
  | .node l cs => .node l (bareAll (l.kind == "operator_declaration") cs)

/-- Trees without their comments and lists of attributes, those among the trees themselves left
out unless all are kept. -/
def bareAll (all : Bool) : List Tree → List Tree
  | [] => []
  | t :: ts => if all || !t.isAside then bare t :: bareAll all ts else bareAll all ts

end

section

variable (t : Tree)

/-- The label of a tree stays. -/
@[simp] theorem label_bare : t.bare.label = t.label := by
  cases t
  rfl

/-- The kind of a tree stays. -/
@[simp] theorem kind_bare : t.bare.kind = t.kind := congrArg Label.kind (label_bare t)

/-- The first byte of a tree stays. -/
@[simp] theorem start_bare : t.bare.start = t.start := congrArg Label.start (label_bare t)

/-- The end of a tree stays. -/
@[simp] theorem stop_bare : t.bare.stop = t.stop := congrArg Label.stop (label_bare t)

/-- Which children are left, and as what. -/
theorem children_bare :
    t.bare.children = bareAll (t.kind == "operator_declaration") t.children := by
  cases t
  rfl

end

/-- A tree by its label and its children. -/
theorem bare_node (l : Label) (cs : List Tree) :
    (node l cs).bare = node l (bareAll (l.kind == "operator_declaration") cs) := rfl

/-- Where all children are kept, each of them is laid bare. -/
theorem bareAll_eq_map (ts : List Tree) : bareAll true ts = ts.map bare := by
  induction ts with
  | nil => rfl
  | cons t ts ih =>
    rw [bareAll, ih]
    rfl

/-! ## Searches -/

section

variable {p : Tree → Bool} (same : ∀ c, p (bare c) = p c)
  (skips : ∀ c, c.isAside = true → p c = false) (all : Bool)

include same skips

/-- What looks for other nodes selects the same trees. -/
theorem filter_bareAll (ts : List Tree) : (bareAll all ts).filter p = (ts.filter p).map bare := by
  induction ts with
  | nil => rfl
  | cons t ts ih =>
    by_cases ht : p t = true
    · have hkept : (all || !t.isAside) = true := by
        cases haside : t.isAside with
        | false => exact Bool.or_true all
        | true => exact absurd ht (by simp [skips t haside])
      rw [bareAll, if_pos hkept, List.filter_cons_of_pos (by rwa [same]), ih,
        List.filter_cons_of_pos ht, List.map_cons]
    · rw [bareAll, List.filter_cons_of_neg ht]
      split
      · rw [List.filter_cons_of_neg (by rwa [same]), ih]
      · exact ih

/-- What looks for other nodes finds the same tree first. -/
theorem find?_bareAll (ts : List Tree) : (bareAll all ts).find? p = (ts.find? p).map bare := by
  rw [← List.head?_filter, ← List.head?_filter, filter_bareAll same skips, List.head?_map]

/-- What looks for other nodes finds a tree just where there was one. -/
theorem any_bareAll (ts : List Tree) : (bareAll all ts).any p = ts.any p := by
  have hfound := congrArg Option.isSome (find?_bareAll same skips all ts)
  rwa [Option.isSome_map, List.isSome_find?, List.isSome_find?] at hfound

end

variable {t : Tree}

/-- Comments and attributes are of no other kinds. -/
theorem kind_ne_of_isAside {kind : String} (hkind : asideKinds.contains kind = false)
    (h : t.isAside = true) : (t.kind == kind) = false := by
  unfold isAside at h
  rw [Bool.and_eq_true] at h
  rw [beq_eq_false_iff_ne]
  rintro rfl
  rw [h.2] at hkind
  cases hkind

/-- Comments and attributes fill no field. -/
theorem field_of_isAside (h : t.isAside = true) : t.label.field = none := by
  unfold isAside at h
  simp only [Bool.and_eq_true, beq_iff_eq] at h
  exact h.1.2

/-- A field is filled by the same child. -/
theorem childByField?_bare (t : Tree) (field : String) :
    t.bare.childByField? field = (t.childByField? field).map bare := by
  unfold childByField?
  rw [children_bare]
  refine find?_bareAll (fun c => by rw [label_bare]) (fun c hc => ?_) _ _
  rw [field_of_isAside hc]
  rfl

variable {kind : String}

/-- The named children of a kind. -/
theorem filter_namedChildren_bare (hkind : asideKinds.contains kind = false) (t : Tree) :
    t.bare.namedChildren.filter (·.kind == kind) =
      (t.namedChildren.filter (·.kind == kind)).map bare := by
  unfold namedChildren
  rw [List.filter_filter, List.filter_filter, children_bare]
  refine filter_bareAll (fun c => by rw [kind_bare, label_bare]) (fun c hc => ?_) _ _
  rw [kind_ne_of_isAside hkind hc, Bool.false_and]

/-- The first named child of another kind is the same. -/
theorem childOfKind?_bare (hkind : asideKinds.contains kind = false) (t : Tree) :
    t.bare.childOfKind? kind = (t.childOfKind? kind).map bare := by
  unfold childOfKind?
  rw [← List.head?_filter, ← List.head?_filter, filter_namedChildren_bare hkind, List.head?_map]

/-- What is found by its field or kind is the same. -/
theorem childByFieldOrKind?_bare (hkind : asideKinds.contains kind = false) (t : Tree)
    (field : String) :
    t.bare.childByFieldOrKind? field kind = (t.childByFieldOrKind? field kind).map bare := by
  unfold childByFieldOrKind?
  rw [childByField?_bare, childOfKind?_bare hkind, Option.map_or]

/-- The modifiers stay. -/
theorem hasModifier_bare {keyword : String} (hkeyword : asideKinds.contains keyword = false)
    (source : Text) (t : Tree) :
    hasModifier source t.bare keyword = hasModifier source t keyword := by
  have hmodifier : asideKinds.contains "modifier" = false := by decide
  unfold hasModifier
  rw [children_bare]
  refine any_bareAll (fun c => by rw [kind_bare, start_bare, stop_bare]) (fun c hc => ?_) _ _
  rw [kind_ne_of_isAside hkeyword hc, kind_ne_of_isAside hmodifier hc]
  rfl

end Tree

namespace Declaration

open PartialDocs.Tree (bare bareAll asideKinds)

variable {file : Nat} {source : Text}

/-! ## The head of a declaration -/

/-- The text of a node stays. -/
theorem textIn_bare (t : Tree) : Tree.textIn source t.bare = Tree.textIn source t := by
  unfold Tree.textIn
  rw [Tree.start_bare, Tree.stop_bare]

/-- The text of a node stays, spaced as a type too. -/
theorem spacedText_bare (t : Tree) : spacedText source t.bare = spacedText source t := by
  unfold spacedText
  rw [textIn_bare]

/-- What a text says of a node that has been found is not said of what it holds. -/
theorem map_map_bare {α : Type} {f : Tree → α} (same : ∀ t, f (bare t) = f t)
    (found : Option Tree) : (found.map bare).map f = found.map f := by
  rw [Option.map_map]
  exact congrArg (Option.map · found) (funext same)

/-- The name of a declaration stays. -/
theorem nameOf_bare (t : Tree) : nameOf source t.bare = nameOf source t := by
  unfold nameOf
  rw [Tree.childByFieldOrKind?_bare (by decide), map_map_bare spacedText_bare]

/-- What is read off each of the named children of a kind stays. -/
theorem map_namedChildren_bare {α : Type} {f : Tree → α} (same : ∀ t, f (bare t) = f t)
    {kind : String} (hkind : asideKinds.contains kind = false) (t : Tree) :
    (t.bare.namedChildren.filter (·.kind == kind)).map f =
      (t.namedChildren.filter (·.kind == kind)).map f := by
  rw [Tree.filter_namedChildren_bare hkind, List.map_map]
  exact congrArg (List.map · _) (funext same)

/-- The type parameters stay. -/
theorem typeParametersOf_bare (t : Tree) :
    typeParametersOf source t.bare = typeParametersOf source t := by
  unfold typeParametersOf
  rw [Tree.childByFieldOrKind?_bare (by decide)]
  cases t.childByFieldOrKind? "type_parameters" "type_parameter_list" with
  | none => rfl
  | some list => exact map_namedChildren_bare nameOf_bare (by decide) list

/-- What a parameter says stays. -/
theorem parameterOf_bare (t : Tree) : parameterOf source t.bare = parameterOf source t := by
  unfold parameterOf
  rw [Tree.childByField?_bare]
  cases t.childByField? "type" with
  | none => rfl
  | some type =>
    simp only [Option.map_some]
    rw [spacedText_bare, Tree.start_bare, Tree.start_bare]

/-- The parameters stay. -/
theorem parametersOf_bare (t : Tree) : parametersOf source t.bare = parametersOf source t := by
  unfold parametersOf
  rw [Tree.childByField?_bare]
  cases t.childByField? "parameters" with
  | none => rfl
  | some list => exact map_namedChildren_bare parameterOf_bare (by decide) list

/-- The names that a field introduces stay. -/
theorem declaratorNames_bare (t : Tree) :
    declaratorNames source t.bare = declaratorNames source t := by
  unfold declaratorNames
  rw [Tree.childOfKind?_bare (by decide)]
  cases t.childOfKind? "variable_declaration" with
  | none => rfl
  | some list => exact map_namedChildren_bare nameOf_bare (by decide) list

/-- The children of an operator are all kept. -/
theorem operatorToken_bare {t : Tree} (ht : t.kind = "operator_declaration") :
    operatorToken source t.bare = operatorToken source t := by
  have hsame : ∀ word : String, (fun c : Tree => c.kind != word) ∘ bare =
      fun c => c.kind != word := by
    intro word
    funext c
    rw [Function.comp_apply, Tree.kind_bare]
  have htext : Tree.textIn source ∘ bare = Tree.textIn source := funext textIn_bare
  unfold operatorToken
  rw [Tree.childByField?_bare]
  cases t.childByField? "operator" with
  | none =>
    simp only [Option.map_none]
    rw [Tree.children_bare, ht, beq_self_eq_true, Tree.bareAll_eq_map, List.dropWhile_map,
      ← List.map_drop, List.find?_map, hsame, hsame, Option.map_map, htext]
  | some op => exact textIn_bare op

/-- The direction of a conversion stays. -/
theorem conversionDirection_bare (t : Tree) :
    conversionDirection source t.bare = conversionDirection source t := by
  unfold conversionDirection
  rw [Tree.hasModifier_bare (by decide), textIn_bare]

/-- The name of a member with its interface stays. -/
theorem memberNameOf_bare (t : Tree) : memberNameOf source t.bare = memberNameOf source t := by
  unfold memberNameOf
  rw [Tree.childOfKind?_bare (by decide)]
  cases t.childOfKind? "explicit_interface_specifier" with
  | none => exact nameOf_bare t
  | some specifier =>
    simp only [Option.map_some]
    rw [spacedText_bare, nameOf_bare]

/-- The kind of a member stays. -/
theorem memberKind_bare (kind : SymbolKind) (t : Tree) :
    memberKind source kind t.bare = memberKind source kind t := by
  unfold memberKind
  rw [Tree.hasModifier_bare (by decide)]

/-- The name of a member under the rule of its kind stays. -/
theorem memberSymbolName_bare {t : Tree} {kind : SymbolKind}
    (node : SymbolKind.ofMemberNode? t.kind = some kind) :
    memberSymbolName source (memberKind source kind t) t.bare =
      memberSymbolName source (memberKind source kind t) t := by
  have hoperator : memberKind source kind t = .operator → t.kind = "operator_declaration" :=
    kind_of_operator node
  generalize memberKind source kind t = k at hoperator ⊢
  cases k
  case staticConstructor => exact nameOf_bare t
  case operator => exact operatorToken_bare (hoperator rfl)
  case conversion => exact conversionDirection_bare t
  case indexer => rfl
  all_goals exact memberNameOf_bare t

/-- The symbol of a member stays. -/
theorem memberSymbol_bare {t : Tree} {kind : SymbolKind}
    (node : SymbolKind.ofMemberNode? t.kind = some kind) :
    memberSymbol source kind t.bare = memberSymbol source kind t := by
  unfold memberSymbol
  simp only
  rw [memberKind_bare, memberSymbolName_bare node, typeParametersOf_bare, parametersOf_bare,
    Tree.childByField?_bare, map_map_bare spacedText_bare, Tree.hasModifier_bare (by decide)]

/-- The symbol of a type stays. -/
theorem typeSymbol_bare (kind : SymbolKind) (nameSpace : Option Text) (t : Tree) :
    typeSymbol source kind nameSpace t.bare = typeSymbol source kind nameSpace t := by
  unfold typeSymbol
  rw [nameOf_bare, typeParametersOf_bare, parametersOf_bare, Tree.hasModifier_bare (by decide)]

/-- A member keeps its body. -/
theorem hasBody_bare (t : Tree) : hasBody t.bare = hasBody t := by
  unfold hasBody
  rw [Tree.childByField?_bare, Tree.childOfKind?_bare (by decide),
    Tree.childOfKind?_bare (by decide), Option.isSome_map, Option.isSome_map, Option.isSome_map]

/-- The role of a member stays. -/
theorem memberRole_bare (s : Symbol) (t : Tree) : memberRole s t.bare = memberRole s t := by
  unfold memberRole
  rw [hasBody_bare]

/-- The piece of a node stays. -/
theorem pieceOf_bare (role : Role) (t : Tree) :
    pieceOf source file role t.bare = pieceOf source file role t := by
  unfold pieceOf
  rw [Tree.start_bare, Tree.stop_bare, Tree.kind_bare]

/-! ## Outlines -/

/-- A member makes the same declarations. -/
theorem memberDeclarations_bare {t : Tree} {kind : SymbolKind}
    (node : SymbolKind.ofMemberNode? t.kind = some kind) :
    memberDeclarations file source kind t.bare = memberDeclarations file source kind t := by
  unfold memberDeclarations
  simp only
  rw [Tree.kind_bare, declaratorNames_bare, memberSymbol_bare node, pieceOf_bare, pieceOf_bare,
    memberRole_bare]

/-- An enumeration has the same members. -/
theorem enumMembers_bareAll (all : Bool) (ts : List Tree) :
    enumMembers file source (bareAll all ts) = enumMembers file source ts := by
  unfold enumMembers
  rw [Tree.filter_bareAll (fun c => by rw [Tree.label_bare, Tree.kind_bare]) _ all ts, List.map_map]
  · refine List.map_congr_left fun c _ => ?_
    rw [Function.comp_apply, nameOf_bare, pieceOf_bare]
  · intro c hc
    rw [Tree.kind_ne_of_isAside (by decide) hc, Bool.and_false]

/-- The members of the body of an enumeration. -/
theorem enumMembers_body_bare (t : Tree) :
    enumMembers file source (((t.bare.childByField? "body").map Tree.children).getD []) =
      enumMembers file source (((t.childByField? "body").map Tree.children).getD []) := by
  rw [Tree.childByField?_bare]
  cases t.childByField? "body" with
  | none => rfl
  | some body =>
    simp only [Option.map_some, Option.getD_some]
    rw [Tree.children_bare, enumMembers_bareAll]

/-- Comments and attributes declare nothing. -/
theorem not_isDeclarationNode_of_isAside {t : Tree} (h : t.isAside = true) :
    isDeclarationNode t = false := by
  have hkind : t.kind = "attribute_list" ∨ t.kind = "comment" := by
    unfold Tree.isAside at h
    rw [Bool.and_eq_true] at h
    simpa [asideKinds] using h.2
  unfold isDeclarationNode
  rcases hkind with hkind | hkind <;> rw [hkind] <;> exact Bool.and_false _

/-- The scope of the siblings behind a node stays. -/
theorem scopeAfter_bare (scope : Scope) (t : Tree) :
    scopeAfter source scope t.bare = scopeAfter source scope t := by
  unfold scopeAfter
  rw [Tree.label_bare, Tree.kind_bare, nameOf_bare]

mutual

/-- A node makes the same declarations. -/
theorem ofNode_bare : ∀ (t : Tree) (scope : Scope),
    ofNode file source scope t.bare = ofNode file source scope t
  | .node l cs, scope => by
    rw [Tree.bare_node]
    unfold ofNode
    rw [← Tree.bare_node]
    simp only
    rw [nameOf_bare]
    split
    · rfl
    split
    · exact ofBody_bareAll _ cs _
    split
    · exact ofSiblings_bareAll _ cs _
    cases htype : SymbolKind.ofTypeNode? l.kind with
    | some kind =>
      simp only
      rw [typeSymbol_bare, pieceOf_bare, enumMembers_body_bare, ofBody_bareAll _ cs]
    | none =>
      cases hmember : SymbolKind.ofMemberNode? l.kind with
      | some kind =>
        simp only
        rw [memberDeclarations_bare (t := .node l cs) hmember]
      | none => rfl

/-- Neighbouring nodes make the same declarations. -/
theorem ofSiblings_bareAll : ∀ (all : Bool) (ts : List Tree) (scope : Scope),
    ofSiblings file source scope (bareAll all ts) = ofSiblings file source scope ts
  | _, [], _ => rfl
  | all, t :: ts, scope => by
    rw [bareAll, ofSiblings.eq_2]
    split
    · rw [ofSiblings.eq_2, ofNode_bare t, scopeAfter_bare, ofSiblings_bareAll all ts]
    · rename_i haside
      have hnot := not_isDeclarationNode_of_isAside (t := t) (by simp_all)
      rw [ofNode_of_bystander hnot, scopeAfter_of_bystander hnot, List.nil_append,
        ofSiblings_bareAll all ts]

/-- A body makes the same declarations. -/
theorem ofBody_bareAll : ∀ (all : Bool) (ts : List Tree) (scope : Scope),
    ofBody file source scope (bareAll all ts) = ofBody file source scope ts
  | _, [], _ => rfl
  | all, t :: ts, scope => by
    rw [bareAll, ofBody.eq_2]
    split
    · rw [ofBody.eq_2, Tree.label_bare, ofChildren_bare t, ofBody_bareAll all ts]
    · rename_i haside
      have hfield := Tree.field_of_isAside (t := t) (by simp_all)
      rw [hfield, if_neg (by decide), ofBody_bareAll all ts]

/-- **Without comments and lists of attributes a tree makes the same declarations.** -/
theorem ofChildren_bare : ∀ (t : Tree) (scope : Scope),
    ofChildren file source scope t.bare = ofChildren file source scope t
  | .node l cs, scope => by
    unfold Tree.bare ofChildren
    exact ofSiblings_bareAll _ cs scope

end

end Declaration

/-- The file without its comments and lists of attributes. -/
def SourceFile.bare (f : SourceFile) : SourceFile := { f with tree := f.tree.bare }

/-- The outline of a file stays. -/
theorem SourceFile.outline_bare (f : SourceFile) (ordinal : Nat) :
    f.bare.outline ordinal = f.outline ordinal := Declaration.ofChildren_bare f.tree .file

end PartialDocs
