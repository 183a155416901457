import Mathlib.Tactic.MkIffOfInductiveProp
import PartialDocs.Proofs.Declaration.Likeness

/-!
# The words of a declaration in another text

What a node says is read off a few stretches of the text: its modifiers, its name, the interface of
an explicit implementation, the token of an operator, a parameter up to the end of its type, and
a conversion operator up to the word operator and its target.  Where these stretches stand in
another text as they did (`SameWording`), the node says there what it said (`SameWording.rereads`).
It is enough that those stay that name a declaration (`SameHead`), as soon as type parameters,
parameters and targets are alike (`SameHead.rereads`).
-/

set_option autoImplicit false

namespace PartialDocs

namespace Declaration

open PartialDocs.Tree (textIn hasModifier)

/-- Whether a stretch of a text is the same in another text, where its bytes have moved. -/
def Kept (m : Nat → Nat) (source source' : Text) (start stop : Nat) : Prop :=
  Text.slice? source' (m start) (m stop) = Text.slice? source start stop

instance (m : Nat → Nat) (source source' : Text) (start stop : Nat) :
    Decidable (Kept m source source' start stop) :=
  inferInstanceAs (Decidable (_ = _))

/-- The node of the token after which an operator is called. -/
def operatorNode? (t : Tree) : Option Tree :=
  (t.childByField? "operator").or
    (((t.children.dropWhile (·.kind != "operator")).drop 1).find? (·.kind != "checked"))

/-- Whether the stretches of a text that name a declaration stand in another text as they did. -/
@[mk_iff]
structure SameHead (m : Nat → Nat) (source source' : Text) (t : Tree) : Prop where
  modifier : ∀ c ∈ t.children, c.kind = "modifier" → Kept m source source' c.start c.stop
  name : t.kind ≠ "type_parameter" → ∀ c ∈ t.childByFieldOrKind? "name" "identifier",
    Kept m source source' c.start c.stop
  interface : ∀ c ∈ t.childOfKind? "explicit_interface_specifier",
    Kept m source source' c.start c.stop
  operator : t.kind = "operator_declaration" →
    ∀ c ∈ operatorNode? t, Kept m source source' c.start c.stop
  /-- Of a conversion operator the words in front of the word operator count. -/
  conversion : t.kind = "conversion_operator_declaration" →
    Text.beforeFirst "operator".toList (Text.slice source' (m t.start) (m t.stop)) =
      Text.beforeFirst "operator".toList (Text.slice source t.start t.stop)

/-- Whether all stretches of a text off which a node is read stand in another text as they did. -/
@[mk_iff]
structure SameWording (m : Nat → Nat) (source source' : Text) (t : Tree) : Prop where
  head : SameHead m source source' t
  typeParameter : t.kind = "type_parameter" → ∀ c ∈ t.childByFieldOrKind? "name" "identifier",
    Kept m source source' c.start c.stop
  parameter : t.kind = "parameter" → ∀ c ∈ t.childByField? "type",
    Kept m source source' t.start c.start ∧ Kept m source source' c.start c.stop
  target : t.kind = "conversion_operator_declaration" → ∀ c ∈ t.childByField? "type",
    Kept m source source' c.start c.stop

variable {m : Nat → Nat} {source source' : Text} {t c : Tree}

instance : Decidable (SameHead m source source' t) :=
  decidable_of_iff' _ (sameHead_iff m source source' t)

instance : Decidable (SameWording m source source' t) :=
  decidable_of_iff' _ (sameWording_iff m source source' t)

/-! ## What is read off the stretches -/

/-- A node that stands as it did has the text that it had. -/
theorem Kept.textIn_eq (h : Kept m source source' c.start c.stop) :
    textIn source' (c.move m) = textIn source c := by
  unfold Tree.textIn Text.slice
  rw [Tree.start_move, Tree.stop_move, h]

/-- A node that stands as it did has the text that it had, spaced as a type too. -/
theorem Kept.spacedText_eq (h : Kept m source source' c.start c.stop) :
    spacedText source' (c.move m) = spacedText source c := by
  unfold spacedText
  rw [h.textIn_eq]

/-- A declaration whose name stands as it did is called as it was. -/
theorem nameOf_eq_of_kept
    (h : ∀ c ∈ t.childByFieldOrKind? "name" "identifier", Kept m source source' c.start c.stop) :
    nameOf source' (t.move m) = nameOf source t := by
  unfold nameOf
  rw [Tree.childByFieldOrKind?_move]
  cases hname : t.childByFieldOrKind? "name" "identifier" with
  | none => rfl
  | some c =>
    simp only [Option.map_some]
    rw [(h c hname).spacedText_eq]

/-- The token of an operator is the text of its node. -/
theorem operatorToken_eq (source : Text) (t : Tree) :
    operatorToken source t = ((operatorNode? t).map (textIn source)).getD [] := by
  unfold operatorToken operatorNode?
  cases t.childByField? "operator" <;> rfl

/-- The node of an operator has moved with the operator. -/
theorem operatorNode?_move (m : Nat → Nat) (t : Tree) :
    operatorNode? (t.move m) = (operatorNode? t).map (Tree.move m) := by
  have hsame : ∀ word : String, (fun c : Tree => c.kind != word) ∘ Tree.move m =
      fun c => c.kind != word := by
    intro word
    funext c
    rw [Function.comp_apply, Tree.kind_move]
  unfold operatorNode?
  rw [Tree.childByField?_move, Tree.children_move, List.dropWhile_map, ← List.map_drop,
    List.find?_map, hsame, hsame, Option.map_or]

namespace SameHead

variable (h : SameHead m source source' t)

include h

/-- The name of a declaration stays. -/
theorem nameOf_eq (kind : t.kind ≠ "type_parameter") :
    nameOf source' (t.move m) = nameOf source t := nameOf_eq_of_kept (h.name kind)

/-- The name of a member with its interface stays. -/
theorem memberNameOf_eq (kind : t.kind ≠ "type_parameter") :
    memberNameOf source' (t.move m) = memberNameOf source t := by
  unfold memberNameOf
  rw [Tree.childOfKind?_move, h.nameOf_eq kind]
  cases hinterface : t.childOfKind? "explicit_interface_specifier" with
  | none => rfl
  | some specifier =>
    simp only [Option.map_some]
    rw [(h.interface specifier hinterface).spacedText_eq]

/-- The token of an operator stays. -/
theorem operatorToken_eq (kind : t.kind = "operator_declaration") :
    operatorToken source' (t.move m) = operatorToken source t := by
  rw [Declaration.operatorToken_eq, Declaration.operatorToken_eq, operatorNode?_move]
  cases hnode : operatorNode? t with
  | none => rfl
  | some op =>
    simp only [Option.map_some]
    rw [(h.operator kind op hnode).textIn_eq]

/-- The direction of a conversion stays. -/
theorem conversionDirection_eq (kind : t.kind = "conversion_operator_declaration") :
    conversionDirection source' (t.move m) = conversionDirection source t := by
  have hhead : Text.beforeFirst "operator".toList (textIn source' (t.move m)) =
      Text.beforeFirst "operator".toList (textIn source t) := by
    unfold Tree.textIn
    rw [Tree.start_move, Tree.stop_move, h.conversion kind]
  unfold conversionDirection
  rw [hhead, hasModifier_move h.modifier]

/-- The name of a member under the rule of its kind stays. -/
theorem memberSymbolName_eq {kind : SymbolKind}
    (node : SymbolKind.ofMemberNode? t.kind = some kind) :
    memberSymbolName source' (memberKind source kind t) (t.move m) =
      memberSymbolName source (memberKind source kind t) t := by
  have hother : t.kind ≠ "type_parameter" := by
    intro heq
    rw [heq] at node
    cases node
  cases hkind : memberKind source kind t
  case staticConstructor => exact h.nameOf_eq hother
  case operator => exact h.operatorToken_eq (kind_of_operator node hkind)
  case conversion => exact h.conversionDirection_eq (kind_of_conversion node hkind)
  case indexer => rfl
  all_goals exact h.memberNameOf_eq hother

/-- A node that is named as it was says what it said as soon as its type parameters, parameters and
targets are alike. -/
theorem rereads {R : Likeness}
    (typeParameter : t.kind = "type_parameter" →
      R.typeParameter (nameOf source t) (nameOf source' (t.move m)))
    (parameter : t.kind = "parameter" →
      R.parameter (parameterOf source t) (parameterOf source' (t.move m)))
    (target : t.kind = "conversion_operator_declaration" → ∀ c ∈ t.childByField? "type",
      R.target (spacedText source c) (spacedText source' (c.move m))) :
    Rereads R m source source' t where
  modifier := h.modifier
  name hnaming := by
    apply h.nameOf_eq
    intro heq
    rw [heq] at hnaming
    cases hnaming
  member _ node := h.memberSymbolName_eq node
  typeParameter := typeParameter
  parameter := parameter
  target := target

end SameHead

/-- A parameter with the words in front of its type is read off its type. -/
theorem parameterOf_of_front (front : ∀ c ∈ t.childByField? "type",
    Kept m source source' t.start c.start) :
    parameterOf source' (t.move m) =
      match t.childByField? "type" with
      | none => ⟨[], false⟩
      | some c => stripRefWords ⟨spacedText source' (c.move m),
          (Text.words (Text.slice source t.start c.start)).any refWords.contains⟩ := by
  unfold parameterOf
  rw [Tree.childByField?_move]
  cases htype : t.childByField? "type" with
  | none => rfl
  | some c =>
    have hbefore : Text.slice source' (t.move m).start (c.move m).start =
        Text.slice source t.start c.start := by
      unfold Text.slice
      rw [Tree.start_move, Tree.start_move, front c htype]
    simp only [Option.map_some]
    rw [hbefore]

/-- **A node says in another text what it said where the stretches off which it is read are the
same.** -/
theorem SameWording.rereads (h : SameWording m source source' t) :
    Rereads .same m source source' t := by
  refine h.head.rereads ?_ ?_ ?_
  · intro kind
    exact (nameOf_eq_of_kept (h.typeParameter kind)).symm
  · intro kind
    have hparameter := parameterOf_of_front fun c hc => (h.parameter kind c hc).1
    refine Eq.symm (hparameter.trans ?_)
    unfold parameterOf
    cases htype : t.childByField? "type" with
    | none => rfl
    | some c =>
      simp only
      rw [(h.parameter kind c htype).2.spacedText_eq]
  · intro kind c hc
    exact (h.target kind c hc).spacedText_eq.symm

/-- The node of an operator is a child of its declaration. -/
theorem mem_of_operatorNode? (h : operatorNode? t = some c) : c ∈ t.children := by
  unfold operatorNode? at h
  rcases Option.or_eq_some_iff.1 h with h | ⟨-, h⟩
  · exact Tree.mem_of_childByField? h
  · exact (List.dropWhile_sublist _).subset (List.mem_of_mem_drop (List.mem_of_find?_eq_some h))

/-- A node that stands in another text as it did, with its children and what is in front of them,
has the same wording there. -/
theorem SameWording.of_kept (whole : Kept m source source' t.start t.stop)
    (child : ∀ c ∈ t.children, Kept m source source' c.start c.stop)
    (front : ∀ c ∈ t.children, Kept m source source' t.start c.start) :
    SameWording m source source' t where
  head.modifier c hc _ := child c hc
  head.name _ c hc := child c (Tree.mem_of_childByFieldOrKind? hc)
  head.interface c hc := child c (Tree.mem_of_childOfKind? hc)
  head.operator _ c hc := child c (mem_of_operatorNode? hc)
  head.conversion _ := by
    unfold Text.slice
    rw [whole]
  typeParameter _ c hc := child c (Tree.mem_of_childByFieldOrKind? hc)
  parameter _ c hc :=
    ⟨front c (Tree.mem_of_childByField? hc), child c (Tree.mem_of_childByField? hc)⟩
  target _ c hc := child c (Tree.mem_of_childByField? hc)

end Declaration

end PartialDocs
