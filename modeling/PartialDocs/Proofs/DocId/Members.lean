import PartialDocs.Proofs.Index.Answers
import PartialDocs.Proofs.Text.Cuts

/-!
# What a documentation ID shows of a member

After the dotted name of its type, the documentation ID of a member shows a name, the
arity of a method, a parameter list and the target of a conversion.  `memberText_eq` takes
the text apart into these, and the first character of each part keeps them from running
into each other.  `memberText_eq_iff` says when two members with one key are shown alike.
-/

set_option autoImplicit false

namespace PartialDocs

/-- The type parameters that the types of a placed symbol may mention. -/
def contextOf (symbols : List Symbol) (s : Symbol) : TypeContext :=
  ⟨nestedTypeParameters (chainAround symbols s), s.typeParameters⟩

/-- What a documentation ID says after the dotted name of the type around a member. -/
def memberText (symbols : List Symbol) (s : Symbol) : Text :=
  memberName s ++ memberTail (contextOf symbols s) s

/-- The arity of a generic method after two backticks. -/
def arityMark (s : Symbol) : Text :=
  if s.kind = .method ∧ s.arity > 0 then "``".toList ++ Text.ofNat s.arity else []

/-- The arity that a documentation ID shows, which is that of a method. -/
def shownArity (s : Symbol) : Nat := if s.kind = .method then s.arity else 0

/-- The parameters in parentheses, where the kind shows them and there are any. -/
def parameterList (context : TypeContext) (s : Symbol) : Text :=
  if s.kind.showsParameters ∧ s.parameters ≠ [] then
    '(' :: encodeParameters context s.parameters ++ [')']
  else []

/-- The spelling of the target of a conversion. -/
def target? (context : TypeContext) (s : Symbol) : Option Text :=
  if s.kind = .conversion then s.returnType.map (encodeType context) else none

/-- A target after a tilde. -/
def targetMark : Option Text → Text
  | none => []
  | some target => '~' :: target

variable {symbols : List Symbol} {context : TypeContext} {s t : Symbol}

/-- The spelling of parameters by which a key knows a member is that of its ID. -/
theorem signature_eq {c : Nat} (hc : s.container = some c) :
    IndexBuilder.signature symbols c s =
      encodeParameters (contextOf symbols s) s.parameters := by
  unfold IndexBuilder.signature contextOf chainAround
  rw [hc]

/-- Symbols of one container have the same symbols around them. -/
theorem chainAround_congr (container : s.container = t.container) :
    chainAround symbols s = chainAround symbols t := by
  unfold chainAround
  rw [container]

/-! ## The parts of the text -/

/-- What follows the name of a member: its arity, its parameters and its target. -/
theorem memberTail_eq (context : TypeContext) (s : Symbol) :
    memberTail context s =
      arityMark s ++ parameterList context s ++ targetMark (target? context s) := by
  unfold memberTail arityMark parameterList target?
  cases s.kind <;> cases s.returnType <;> rfl

/-- The mark of an arity depends on the arity that is shown. -/
theorem arityMark_eq (s : Symbol) :
    arityMark s = if shownArity s > 0 then "``".toList ++ Text.ofNat (shownArity s) else [] := by
  unfold arityMark shownArity
  by_cases hkind : s.kind = .method
  · simp [hkind]
  · simp [hkind]

/-- What a documentation ID shows of a member. -/
theorem memberText_eq (symbols : List Symbol) (s : Symbol) :
    memberText symbols s = memberName s ++ (arityMark s ++
      (parameterList (contextOf symbols s) s ++ targetMark (target? (contextOf symbols s) s))) := by
  rw [memberText, memberTail_eq, List.append_assoc]

/-- The documentation ID of a type. -/
theorem placedDocId_of_type (type : s.kind.isType = true) :
    placedDocId symbols s = s.kind.idPrefix ++ dottedName (s :: chainAround symbols s) := by
  unfold placedDocId
  rw [if_pos type, (SymbolKind.isType_iff_idPrefix s.kind).1 type]
  rfl

/-- The documentation ID of a member, up to and after the dot before its name. -/
theorem placedDocId_of_member (member : s.kind.isType = false) :
    placedDocId symbols s =
      s.kind.idPrefix ++ (dottedName (chainAround symbols s) ++ '.' :: memberText symbols s) := by
  unfold placedDocId memberDocId memberText contextOf
  simp [member]

/-- The beginning of an ID can be read off, because it always takes two characters. -/
theorem idPrefix_of_append_eq {k l : SymbolKind} {x y : Text}
    (h : k.idPrefix ++ x = l.idPrefix ++ y) : k.idPrefix = l.idPrefix ∧ x = y := by
  have hlength : ∀ m : SymbolKind, m.idPrefix.length = 2 := by
    intro m
    cases m <;> rfl
  exact List.append_inj h (by rw [hlength, hlength])

/-- Only a conversion shows a target. -/
theorem target?_of_ne_conversion (h : s.kind ≠ .conversion) : target? context s = none := by
  unfold target?
  rw [if_neg h]

/-- A target can be told from its mark. -/
theorem targetMark_inj {a b : Option Text} (h : targetMark a = targetMark b) : a = b := by
  cases a <;> cases b <;> simp_all [targetMark]

/-- Without parameters no list is shown. -/
theorem parameterList_of_eq_nil (h : s.parameters = []) : parameterList context s = [] := by
  unfold parameterList
  rw [if_neg fun hs => hs.2 h]

/-- A kind that shows no parameters shows no list. -/
theorem parameterList_of_hidden (h : s.kind.showsParameters = false) :
    parameterList context s = [] := by
  unfold parameterList
  rw [if_neg fun hs => by simp [h] at hs]

/-- Parameters that are shown stand in parentheses. -/
theorem parameterList_of_shown (shows : s.kind.showsParameters = true)
    (h : s.parameters ≠ []) :
    parameterList context s = '(' :: encodeParameters context s.parameters ++ [')'] := by
  unfold parameterList
  rw [if_pos ⟨shows, h⟩]

/-- A parameter list cannot be mistaken for a target. -/
theorem parens_append_ne_targetMark (x y : Text) (target : Option Text) :
    '(' :: x ++ y ≠ targetMark target := by
  cases target <;> simp [targetMark]

/-! ## Names of operators -/

/-- The name of an operator depends on the number of parameters for the two signs only, and there
on whether it is one. -/
theorem operatorName_congr {token : Text} {m n : Nat}
    (h : (m = 1 ↔ n = 1) ∨ token ≠ ['+'] ∧ token ≠ ['-']) :
    operatorName token m = operatorName token n := by
  unfold operatorName
  rcases h with h | ⟨hplus, hminus⟩
  · by_cases hm : m = 1
    · rw [hm, h.1 hm]
    · have hn : n ≠ 1 := fun hn => hm (h.2 hn)
      simp only [hm, hn, decide_false, Bool.false_and]
  · simp only [hplus, hminus, decide_false, Bool.and_false]

/-- A plus between operands is an addition. -/
theorem operatorName_plus {n : Nat} (h : n ≠ 1) :
    operatorName ['+'] n = "op_Addition".toList := by
  unfold operatorName
  simp only [h, decide_false, Bool.false_and]
  rfl

/-- A minus between operands is a subtraction. -/
theorem operatorName_minus {n : Nat} (h : n ≠ 1) :
    operatorName ['-'] n = "op_Subtraction".toList := by
  unfold operatorName
  simp only [h, decide_false, Bool.false_and]
  rfl

/-- The unary and the binary name of a sign do not begin alike, so that what follows a name does not
matter. -/
theorem operatorName_of_append_eq {token : Text} {m n : Nat} {x y : Text}
    (h : operatorName token m ++ x = operatorName token n ++ y) :
    operatorName token m = operatorName token n := by
  by_cases hsame : m = 1 ↔ n = 1
  · exact operatorName_congr (.inl hsame)
  have hsplit : m = 1 ∧ n ≠ 1 ∨ m ≠ 1 ∧ n = 1 := by omega
  have hplus : operatorName ['+'] 1 = "op_UnaryPlus".toList := rfl
  have hminus : operatorName ['-'] 1 = "op_UnaryNegation".toList := rfl
  by_cases hp : token = ['+']
  · subst hp
    rcases hsplit with ⟨rfl, hn⟩ | ⟨hm, rfl⟩
    · rw [hplus, operatorName_plus hn] at h
      simp at h
    · rw [hplus, operatorName_plus hm] at h
      simp at h
  by_cases hq : token = ['-']
  · subst hq
    rcases hsplit with ⟨rfl, hn⟩ | ⟨hm, rfl⟩
    · rw [hminus, operatorName_minus hn] at h
      simp at h
    · rw [hminus, operatorName_minus hm] at h
      simp at h
  exact operatorName_congr (.inr ⟨hp, hq⟩)

/-! ## Members with one key -/

/-- What a documentation ID shows and a key does not: the target of a conversion, whether there are
parameters, and the unary or binary name of an operator. -/
structure ShownAlike (symbols : List Symbol) (s t : Symbol) : Prop where
  target : s.kind = .conversion →
    s.returnType.map (encodeType (contextOf symbols s)) =
      t.returnType.map (encodeType (contextOf symbols t))
  parameters : s.kind.showsParameters = true → (s.parameters = [] ↔ t.parameters = [])
  operator : s.kind = .operator →
    operatorName s.name s.parameters.length = operatorName t.name t.parameters.length

/-- The name of a member depends on its kind, its name and, for operators, the number of operands.
-/
theorem memberName_congr (kind : s.kind = t.kind) (name : s.name = t.name)
    (operator : s.kind = .operator →
      operatorName s.name s.parameters.length = operatorName t.name t.parameters.length) :
    memberName s = memberName t := by
  unfold memberName
  rw [← kind, ← name]
  split
  case h_5 hkind =>
    rw [operator hkind, name]
  all_goals rfl

/-- Members of one kind and name have one name in their documentation IDs when what follows the
name is alike, because only operators have two names. -/
theorem memberName_of_append_eq (kind : s.kind = t.kind) (name : s.name = t.name) {x y : Text}
    (h : memberName s ++ x = memberName t ++ y) : memberName s = memberName t := by
  refine memberName_congr kind name ?_
  intro hkind
  have hs : memberName s = operatorName s.name s.parameters.length := by
    unfold memberName
    rw [hkind]
  have ht : memberName t = operatorName s.name t.parameters.length := by
    unfold memberName
    rw [← kind, hkind, name]
  rw [hs, ht] at h
  rw [← name]
  exact operatorName_of_append_eq h

/-- The mark for the arity depends on the kind and the arity. -/
theorem arityMark_congr (kind : s.kind = t.kind) (arity : s.arity = t.arity) :
    arityMark s = arityMark t := by
  unfold arityMark
  rw [kind, arity]

/-- Equal spellings make equal parameter lists, where both or neither have parameters. -/
theorem parameterList_congr {other : TypeContext} (kind : s.kind = t.kind)
    (spelling : encodeParameters context s.parameters = encodeParameters other t.parameters)
    (empty : s.kind.showsParameters = true → (s.parameters = [] ↔ t.parameters = [])) :
    parameterList context s = parameterList other t := by
  cases shows : s.kind.showsParameters with
  | false => rw [parameterList_of_hidden shows, parameterList_of_hidden (kind ▸ shows)]
  | true =>
    by_cases hs : s.parameters = []
    · rw [parameterList_of_eq_nil hs, parameterList_of_eq_nil ((empty shows).1 hs)]
    · have ht : t.parameters ≠ [] := fun ht => hs ((empty shows).2 ht)
      rw [parameterList_of_shown shows hs, parameterList_of_shown (kind ▸ shows) ht, spelling]

/-- A parameter list before a target shows whether there are parameters. -/
theorem parameters_of_append_eq {other : TypeContext} {a b : Option Text}
    (kind : s.kind = t.kind) (shows : s.kind.showsParameters = true)
    (h : parameterList context s ++ targetMark a = parameterList other t ++ targetMark b) :
    s.parameters = [] ↔ t.parameters = [] := by
  by_cases hs : s.parameters = []
  · by_cases ht : t.parameters = []
    · simp [hs, ht]
    · rw [parameterList_of_eq_nil hs, parameterList_of_shown (kind ▸ shows) ht] at h
      exact absurd h.symm (parens_append_ne_targetMark _ _ a)
  · by_cases ht : t.parameters = []
    · rw [parameterList_of_shown shows hs, parameterList_of_eq_nil ht] at h
      exact absurd h (parens_append_ne_targetMark _ _ b)
    · simp [hs, ht]

/-- **Members of one kind, name, arity and spelling of parameters have one text exactly when the
documentation ID shows the rest alike.** -/
theorem memberText_eq_iff (kind : s.kind = t.kind) (name : s.name = t.name)
    (arity : s.arity = t.arity)
    (spelling : encodeParameters (contextOf symbols s) s.parameters =
      encodeParameters (contextOf symbols t) t.parameters) :
    memberText symbols s = memberText symbols t ↔ ShownAlike symbols s t := by
  rw [memberText_eq, memberText_eq]
  constructor
  · intro h
    have hname := memberName_of_append_eq kind name h
    rw [hname, arityMark_congr kind arity] at h
    have htail := List.append_cancel_left (List.append_cancel_left h)
    have hempty : s.kind.showsParameters = true → (s.parameters = [] ↔ t.parameters = []) :=
      fun shows => parameters_of_append_eq kind shows htail
    rw [parameterList_congr kind spelling hempty] at htail
    have htarget := targetMark_inj (List.append_cancel_left htail)
    refine ⟨?_, hempty, ?_⟩
    · intro hkind
      unfold target? at htarget
      rwa [if_pos hkind, if_pos (kind ▸ hkind)] at htarget
    · intro hkind
      unfold memberName at hname
      rwa [← kind, hkind] at hname
  · intro alike
    have htarget : target? (contextOf symbols s) s = target? (contextOf symbols t) t := by
      unfold target?
      rw [← kind]
      by_cases hkind : s.kind = .conversion
      · rw [if_pos hkind, if_pos hkind, alike.target hkind]
      · rw [if_neg hkind, if_neg hkind]
    rw [memberName_congr kind name alike.operator, arityMark_congr kind arity,
      parameterList_congr kind spelling alike.parameters, htarget]

/-! ## Reading the text of a member -/

/-- What follows the name and the arity of a member begins with a parenthesis or a tilde. -/
theorem head_parameterList_append (context : TypeContext) (s : Symbol) (target : Option Text)
    {c : Char} {x : Text} (h : parameterList context s ++ targetMark target = c :: x) :
    c = '(' ∨ c = '~' := by
  unfold parameterList at h
  split at h
  · rw [List.append_assoc, List.cons_append, List.cons.injEq] at h
    exact .inl h.1.symm
  · cases target with
    | none => simp [targetMark] at h
    | some target =>
      rw [List.nil_append, targetMark, List.cons.injEq] at h
      exact .inr h.1.symm

/-- The digits of an arity end where the parameters or the target begin. -/
theorem takeWhile_ofNat_append (n : Nat) (context : TypeContext) (s : Symbol)
    (target : Option Text) :
    (Text.ofNat n ++ (parameterList context s ++ targetMark target)).takeWhile Char.isDigit =
      Text.ofNat n := by
  rw [List.takeWhile_append_of_pos fun c hc => Text.isDigit_of_mem_ofNat hc]
  have hrest : (parameterList context s ++ targetMark target).takeWhile Char.isDigit = [] := by
    cases hx : parameterList context s ++ targetMark target with
    | nil => rfl
    | cons c x =>
      rcases head_parameterList_append context s target hx with rfl | rfl
      · rw [List.takeWhile_cons_of_neg (by decide)]
      · rw [List.takeWhile_cons_of_neg (by decide)]
  rw [hrest, List.append_nil]

/-- The text behind a name shows the arity. -/
theorem shownArity_of_append_eq {context other : TypeContext} {a b : Option Text}
    (h : arityMark s ++ (parameterList context s ++ targetMark a) =
      arityMark t ++ (parameterList other t ++ targetMark b)) : shownArity s = shownArity t := by
  have hrest : ∀ (context : TypeContext) (u : Symbol) (a : Option Text) (x : Text),
      parameterList context u ++ targetMark a ≠ '\x60' :: x := by
    intro context u a x hx
    have hhead := head_parameterList_append context u a hx
    simp at hhead
  rw [arityMark_eq, arityMark_eq] at h
  -- an arity is told from its absence by the backticks, and from another one by its digits
  by_cases hpos : shownArity s > 0
  · by_cases hpos' : shownArity t > 0
    · rw [if_pos hpos, if_pos hpos', List.append_assoc, List.append_assoc,
        List.append_cancel_left_eq] at h
      have htaken := congrArg (List.takeWhile Char.isDigit) h
      rw [takeWhile_ofNat_append, takeWhile_ofNat_append] at htaken
      exact Text.ofNat_inj htaken
    · rw [if_pos hpos, if_neg hpos'] at h
      exact absurd h.symm (hrest other t b _)
  · by_cases hpos' : shownArity t > 0
    · rw [if_neg hpos, if_pos hpos'] at h
      exact absurd h (hrest context s a _)
    · omega

/-- Parameter lists without a tilde end where the target begins. -/
theorem parameterList_of_append_eq {x y : Text} {a b : Option Text} (hx : '~' ∉ x) (hy : '~' ∉ y)
    (h : x ++ targetMark a = y ++ targetMark b) : x = y := by
  cases a with
  | none =>
    cases b with
    | none => simpa [targetMark] using h
    | some b =>
      rw [targetMark, targetMark, List.append_nil] at h
      simp [h] at hx
  | some a =>
    cases b with
    | none =>
      rw [targetMark, targetMark, List.append_nil] at h
      simp [← h] at hy
    | some b => exact (Text.append_cons_inj hx hy h).1

/-- A parameter list shows how the parameters are spelled. -/
theorem spelling_of_parameterList_eq {context other : TypeContext} (kind : s.kind = t.kind)
    (shows : s.kind.showsParameters = true)
    (h : parameterList context s = parameterList other t) :
    encodeParameters context s.parameters = encodeParameters other t.parameters := by
  have hempty : s.parameters = [] ↔ t.parameters = [] :=
    parameters_of_append_eq (a := none) (b := none) kind shows (by rw [h])
  by_cases hs : s.parameters = []
  · rw [hs, hempty.1 hs]
    rfl
  · have ht : t.parameters ≠ [] := fun ht => hs (hempty.2 ht)
    rw [parameterList_of_shown shows hs, parameterList_of_shown (kind ▸ shows) ht] at h
    simpa using h

end PartialDocs
