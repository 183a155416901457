import PartialDocs.Proofs.Index.Answers
import PartialDocs.Proofs.Text.Cuts

/-!
# Names behind an at sign

An at sign in front of the name of a declared symbol is part of the name.  It makes another key
(`key_escaped_ne`), and another documentation ID unless the symbol is named after its type
(`placedDocId_escaped`).  Nor is it left out of the namespace of a type (`placedDocId_inNameSpace`).
-/

set_option autoImplicit false

namespace PartialDocs

/-- All but the last piece of a joined text do not depend on this piece. -/
theorem Text.joinWith_append_singleton (sep : Text) (ps : List Text) :
    ∃ front, ∀ p, joinWith sep (ps ++ [p]) = front ++ p := by
  induction ps with
  | nil => exact ⟨[], fun _ => rfl⟩
  | cons q ps ih =>
    obtain ⟨front, hfront⟩ := ih
    refine ⟨q ++ sep ++ front, fun p => ?_⟩
    rw [List.append_assoc (q ++ sep), ← hfront]
    cases ps <;> rfl

namespace SymbolKind

/-- Whether a kind has names that are identifiers. -/
def hasIdentifier : SymbolKind → Bool
  | .operator | .conversion | .indexer => false
  | _ => true

/-- Whether documentation IDs have a name of their own for the symbols of a kind that is named after
its type. -/
def isNamedAfterType : SymbolKind → Bool
  | .constructor | .staticConstructor | .destructor => true
  | _ => false

end SymbolKind

/-- The symbol with an at sign in front of its name. -/
def Symbol.escaped (s : Symbol) : Symbol := { s with name := '@' :: s.name }

variable {symbols : List Symbol} {s : Symbol} {chain : List Symbol}

/-- A type shows the at sign of its name. -/
theorem nameWithArity_escaped (s : Symbol) : nameWithArity s.escaped = '@' :: nameWithArity s := by
  have harity : s.escaped.arity = s.arity := rfl
  unfold nameWithArity
  rw [harity]
  split <;> rfl

/-- The dotted name becomes longer by the at sign. -/
theorem dottedName_escaped (s : Symbol) (chain : List Symbol) :
    (dottedName (s.escaped :: chain)).length = (dottedName (s :: chain)).length + 1 := by
  have hspace : (s.escaped :: chain).getLast?.bind Symbol.nameSpace =
      (s :: chain).getLast?.bind Symbol.nameSpace := by
    cases chain with
    | nil => rfl
    | cons t chain => rw [List.getLast?_cons_cons, List.getLast?_cons_cons]
  have hjoin : ∀ ps : List Text,
      (Text.joinWith ['.'] (ps ++ [nameWithArity s.escaped])).length =
        (Text.joinWith ['.'] (ps ++ [nameWithArity s])).length + 1 := by
    intro ps
    obtain ⟨front, hfront⟩ := Text.joinWith_append_singleton ['.'] ps
    rw [hfront, hfront, nameWithArity_escaped, List.length_append, List.length_append,
      List.length_cons, Nat.add_assoc]
  unfold dottedName
  rw [hspace]
  simp only [List.map_cons, List.reverse_cons]
  split
  · exact hjoin _
  · exact hjoin (_ :: _)

/-- A member shows the at sign of its name unless it is named after its type. -/
theorem memberName_escaped (identifier : s.kind.hasIdentifier = true) :
    memberName s.escaped =
      if s.kind.isNamedAfterType then memberName s else '@' :: memberName s := by
  have hkind : s.escaped.kind = s.kind := rfl
  have hname : s.escaped.name = '@' :: s.name := rfl
  unfold memberName
  rw [hkind, hname]
  simp only [Text.replace_singleton, List.map_cons]
  cases hs : s.kind <;> first | rfl | (rw [hs] at identifier; cases identifier)

/-- **An at sign in front of a name that is an identifier changes the documentation ID, unless the
symbol is named after its type.** -/
theorem placedDocId_escaped (symbols : List Symbol) (identifier : s.kind.hasIdentifier = true) :
    placedDocId symbols s.escaped = placedDocId symbols s ↔ s.kind.isNamedAfterType = true := by
  have hkind : s.escaped.kind = s.kind := rfl
  have hchain : chainAround symbols s.escaped = chainAround symbols s := rfl
  have htail : ∀ context, memberTail context s.escaped = memberTail context s := fun _ => rfl
  have hparameters : s.escaped.typeParameters = s.typeParameters := rfl
  unfold placedDocId
  rw [hkind, hchain]
  split
  · rename_i htype
    have hother : s.kind.isNamedAfterType = false := by
      cases hs : s.kind <;> first | rfl | (rw [hs] at htype; cases htype)
    rw [hother]
    constructor
    · intro h
      -- one at sign more, wherever it stands in the dotted name
      have hlength := congrArg List.length h
      rw [List.length_append, List.length_append, dottedName_escaped] at hlength
      omega
    · exact fun h => (Bool.false_ne_true h).elim
  · unfold memberDocId
    rw [hkind, hparameters, htail, memberName_escaped identifier]
    cases hnamed : s.kind.isNamedAfterType with
    | true => simp
    | false =>
      constructor
      · intro h
        have hlength := congrArg List.length h
        simp only [Bool.false_eq_true, if_false, List.length_append, List.length_cons] at hlength
        omega
      · exact fun h => (Bool.false_ne_true h).elim

/-- An at sign in front of a name makes another key. -/
theorem key_escaped_ne (b : IndexBuilder) (s : Symbol) : b.key s.escaped ≠ b.key s := by
  have hname : s.escaped.name ≠ s.name := by
    intro h
    have hlength := congrArg List.length h
    exact Nat.succ_ne_self _ hlength
  have hcontainer : s.escaped.container = s.container := rfl
  have hkind : s.escaped.kind = s.kind := rfl
  unfold IndexBuilder.key
  rw [hcontainer, hkind]
  split
  · split
    · exact fun h => hname (SymbolKey.type.inj h).2.2.1
    · exact fun h => hname (SymbolKey.member.inj h).2.2.1
  · exact fun h => hname (SymbolKey.type.inj h).2.2.1

/-! ## Namespaces -/

/-- The symbol in another namespace. -/
def Symbol.inNameSpace (n : Text) (s : Symbol) : Symbol := { s with nameSpace := some n }

/-- The documentation ID of a type states its whole namespace. -/
theorem placedDocId_inNameSpace (symbols : List Symbol) (type : s.kind.isType = true)
    (hs : s.container = none) (n n' : Text) :
    placedDocId symbols (s.inNameSpace n) = placedDocId symbols (s.inNameSpace n') ↔ n = n' := by
  have hid : ∀ n, placedDocId symbols (s.inNameSpace n) =
      "T:".toList ++ (n ++ '.' :: nameWithArity s) := by
    intro n
    have hchain : chainAround symbols (s.inNameSpace n) = [] := by
      unfold chainAround Symbol.inNameSpace
      rw [hs]
    have htype : (s.inNameSpace n).kind.isType = true := type
    unfold placedDocId
    rw [if_pos htype, hchain]
    exact congrArg _ (List.append_assoc n ['.'] _)
  rw [hid, hid, List.append_right_inj, List.append_left_inj]

/-- The namespace is part of the key of a type. -/
theorem key_inNameSpace (b : IndexBuilder) (type : s.kind.isType = true) (n n' : Text) :
    b.key (s.inNameSpace n) = b.key (s.inNameSpace n') ↔ n = n' := by
  have hkey : ∀ n, b.key (s.inNameSpace n) = .type s.container (some n) s.name s.arity := by
    intro n
    have htype : (s.inNameSpace n).kind.isType = true := type
    have hcontainer : (s.inNameSpace n).container = s.container := rfl
    unfold IndexBuilder.key
    rw [htype, hcontainer]
    split <;> rfl
  rw [hkey, hkey, SymbolKey.type.injEq, Option.some.injEq]
  simp

end PartialDocs
