import PartialDocs.Proofs.Declaration.Designation
import PartialDocs.Proofs.DocId.Members
import PartialDocs.Proofs.TypeRef.Alphabet
import PartialDocs.Proofs.TypeRef.Printing

/-!
# Members that a documentation ID shows alike

What a documentation ID says of a member has four parts: a name, an arity, parameters and the
target of a conversion.  Where no name is taken for more than it is (`Delimited`) and no parameter
has a tilde, two members have one text exactly when they have all four parts alike
(`partsAlike_of_memberText_eq`).  Where the names are those of the grammar (`ProperName`), the names
that are shown alike can be listed (`Homonyms`), and `memberName_eq_iff` says that there are no
others: a member is called by its own name or by one that the documentation ID has for its kind.
-/

set_option autoImplicit false

namespace PartialDocs

/-! ## Parts of a text -/

/-- Whether members have alike what a documentation ID shows of them. -/
structure PartsAlike (symbols : List Symbol) (s t : Symbol) : Prop where
  name : memberName s = memberName t
  arity : shownArity s = shownArity t
  parameters : parameterList (contextOf symbols s) s = parameterList (contextOf symbols t) t
  target : target? (contextOf symbols s) s = target? (contextOf symbols t) t

/-- The characters with which the parts behind a name begin. -/
def partMarks : List Char := ['\x60', '(', '~']

/-- Whether parentheses stand only between brackets of the given sort, and each of these brackets is
closed, where so many are open. -/
def parensInside (opening closing : Char) : Nat → Text → Bool
  | depth, [] => depth == 0
  | depth, c :: s =>
    if c = opening then parensInside opening closing (depth + 1) s
    else if c = closing then 0 < depth && parensInside opening closing (depth - 1) s
    else (c != '(' || 0 < depth) && parensInside opening closing depth s

/-- Whether a shown name cannot be the beginning of another one with a part behind it. -/
structure Delimited (name : Text) : Prop where
  backtick : '\x60' ∉ name
  tilde : '~' ∉ name
  parens : parensInside '\x7b' '\x7d' 0 name = true

instance (name : Text) : Decidable (Delimited name) :=
  decidable_of_iff ('\x60' ∉ name ∧ '~' ∉ name ∧ parensInside '\x7b' '\x7d' 0 name = true)
    ⟨fun h => ⟨h.1, h.2.1, h.2.2⟩, fun h => ⟨h.1, h.2, h.3⟩⟩

variable {symbols : List Symbol} {s t : Symbol}

/-- Members with like parts have one text. -/
theorem PartsAlike.memberText_eq (h : PartsAlike symbols s t) :
    memberText symbols s = memberText symbols t := by
  rw [PartialDocs.memberText_eq, PartialDocs.memberText_eq, h.name, arityMark_eq, arityMark_eq,
    h.arity, h.parameters, h.target]

/-- What follows the name of a member begins with one of three marks. -/
theorem head_mem_partMarks {context : TypeContext} {target : Option Text} {c : Char} {x : Text}
    (h : arityMark s ++ (parameterList context s ++ targetMark target) = c :: x) :
    c ∈ partMarks := by
  unfold arityMark at h
  split at h
  · obtain ⟨rfl, -⟩ := List.cons.inj h
    decide
  · rcases head_parameterList_append context s target h with rfl | rfl
    · decide
    · decide

/-- Where brackets are closed, no parenthesis follows outside of brackets. -/
theorem parensInside_append {opening closing : Char} (hopen : opening ≠ '(')
    (hclose : closing ≠ '(') {x y : Text} {depth : Nat}
    (hx : parensInside opening closing depth x = true) :
    parensInside opening closing depth (x ++ '(' :: y) = false := by
  induction x generalizing depth with
  | nil =>
    obtain rfl : depth = 0 := beq_iff_eq.1 hx
    simp [parensInside, hopen.symm, hclose.symm]
  | cons c x ih =>
    rw [List.cons_append]
    unfold parensInside at hx ⊢
    split
    · rename_i hc
      rw [if_pos hc] at hx
      exact ih hx
    · rename_i hc
      rw [if_neg hc] at hx
      split
      · rename_i hc'
        rw [if_pos hc', Bool.and_eq_true] at hx
        rw [ih hx.2, Bool.and_false]
      · rename_i hc'
        rw [if_neg hc', Bool.and_eq_true] at hx
        rw [ih hx.2, Bool.and_false]

/-- A name does not go on behind another one with a mark. -/
theorem Delimited.append_mark_ne {x y name : Text} {c : Char} (hx : Delimited x)
    (hname : Delimited name) (hc : c ∈ partMarks) : name ≠ x ++ c :: y := by
  rintro rfl
  simp only [partMarks, List.mem_cons, List.not_mem_nil, or_false] at hc
  rcases hc with rfl | rfl | rfl
  · exact hname.backtick (by simp)
  · have hinside := hname.parens
    rw [parensInside_append (by decide) (by decide) hx.parens] at hinside
    cases hinside
  · exact hname.tilde (by simp)

/-- Names can be read off before what begins with a mark. -/
theorem Delimited.eq_of_append_eq {m n x y : Text} (hm : Delimited m) (hn : Delimited n)
    (hx : ∀ c x', x = c :: x' → c ∈ partMarks) (hy : ∀ c y', y = c :: y' → c ∈ partMarks)
    (h : m ++ x = n ++ y) : m = n := by
  rcases List.append_eq_append_iff.1 h with ⟨z, hz, hxz⟩ | ⟨z, hz, hyz⟩
  · cases z with
    | nil => rw [hz, List.append_nil]
    | cons c z => exact absurd hz (hm.append_mark_ne hn (hx c _ hxz))
  · cases z with
    | nil => rw [hz, List.append_nil]
    | cons c z => exact absurd hz (hn.append_mark_ne hm (hy c _ hyz))

/-- **Members whose names are delimited and whose parameters have no tilde have one text only with
like parts.** -/
theorem partsAlike_of_memberText_eq (hs : Delimited (memberName s)) (ht : Delimited (memberName t))
    (tilde : '~' ∉ parameterList (contextOf symbols s) s)
    (tilde' : '~' ∉ parameterList (contextOf symbols t) t)
    (h : memberText symbols s = memberText symbols t) : PartsAlike symbols s t := by
  rw [memberText_eq, memberText_eq] at h
  have hname : memberName s = memberName t :=
    hs.eq_of_append_eq ht (fun _ _ => head_mem_partMarks) (fun _ _ => head_mem_partMarks) h
  rw [hname, List.append_cancel_left_eq] at h
  have harity := shownArity_of_append_eq h
  rw [arityMark_eq, arityMark_eq, harity, List.append_cancel_left_eq] at h
  have hparameters := parameterList_of_append_eq tilde tilde' h
  rw [hparameters, List.append_cancel_left_eq] at h
  exact ⟨hname, harity, hparameters, targetMark_inj h⟩

/-! ## Names -/

/-- Whether the documentation ID calls the members of a kind by a name that it has for them. -/
def SymbolKind.isRenamed : SymbolKind → Bool
  | .constructor | .staticConstructor | .destructor | .indexer | .operator | .conversion => true
  | _ => false

/-- A name as the grammar gives it to a member, with number signs for the dots of an interface
before it.  Only the type arguments of that interface have parentheses. -/
structure ProperName (name : Text) : Prop where
  marks : ∀ c ∈ ['.', '\x60', '~', '\x7b', '\x7d'], c ∉ name
  first : name.head? ≠ some '#'
  parens : parensInside '<' '>' 0 name = true

instance (name : Text) : Decidable (ProperName name) :=
  decidable_of_iff ((['.', '\x60', '~', '\x7b', '\x7d'].all fun c => !name.contains c) = true ∧
      name.head? ≠ some '#' ∧ parensInside '<' '>' 0 name = true)
    ⟨fun h => ⟨by simpa using h.1, h.2.1, h.2.2⟩, fun h => ⟨by simpa using h.1, h.2, h.3⟩⟩

/-- Whether members have names that a documentation ID shows alike. -/
inductive Homonyms (s t : Symbol) : Prop where
  /-- Members that are called by one name of their own. -/
  | named (own : s.kind.isRenamed = false) (own' : t.kind.isRenamed = false)
      (name : s.name = t.name)
  /-- Constructors, static constructors, destructors or indexers, whatever they are called. -/
  | unnamed (kind : s.kind = t.kind)
      (mem : s.kind ∈ [.constructor, .staticConstructor, .destructor, .indexer])
  /-- Operators with one token.  A sign is either that of one parameter or not. -/
  | operators (kind : s.kind = .operator) (kind' : t.kind = .operator) (token : s.name = t.name)
      (sign : s.name ∈ [['+'], ['-']] → (s.parameters.length = 1 ↔ t.parameters.length = 1))
  /-- Conversions in one direction. -/
  | conversions (kind : s.kind = .conversion) (kind' : t.kind = .conversion)
      (direction : s.name = "explicit".toList ↔ t.name = "explicit".toList)
  /-- A destructor, an indexer, an operator or a conversion, and a member that is called by the name
  that the documentation ID has for it. -/
  | metadata (mem : s.kind ∈ [.destructor, .indexer, .operator, .conversion])
      (own : t.kind.isRenamed = false) (name : t.name = memberName s)
  /-- The same the other way round. -/
  | metadata' (own : s.kind.isRenamed = false)
      (mem : t.kind ∈ [.destructor, .indexer, .operator, .conversion])
      (name : s.name = memberName t)

/-- What is known of the name of a member that the grammar allows. -/
structure ProperlyNamed (s : Symbol) : Prop where
  own : s.kind.isRenamed = false → ProperName s.name
  operator : s.kind = .operator → ∃ x ∈ operatorNames, x.1.toList = s.name

/-! ### Names that are shown as they are -/

/-- The characters of identifiers among those of ASCII. -/
def isWordChar (c : Char) : Bool := c.isAlphanum || c == '_'

/-- A member of a kind that is not renamed is called by its own name. -/
theorem memberName_of_own (member : s.kind.isType = false) (own : s.kind.isRenamed = false) :
    memberName s = shownName s.name := by
  unfold memberName
  cases hkind : s.kind <;> simp_all [SymbolKind.isType, SymbolKind.isRenamed, shownName]

/-- The characters of a word are shown as they are. -/
theorem shownChar_of_isWordChar {c : Char} (h : isWordChar c = true) : shownChar c = c := by
  unfold shownChar
  split
  · rename_i hc
    subst hc
    cases h
  split
  · rename_i hc
    subst hc
    cases h
  split
  · rename_i hc
    subst hc
    cases h
  · rfl

/-- Names of word characters are shown as they are. -/
theorem shownName_of_words {name : Text} (h : name.all isWordChar = true) :
    shownName name = name := by
  rw [shownName_eq_map]
  refine (List.map_congr_left fun c hc => ?_).trans (List.map_id name)
  exact shownChar_of_isWordChar (List.all_eq_true.1 h c hc)

/-- Names that have no dot and no brace are told apart where they are shown. -/
theorem shownName_inj_of_plain {x y : Text} (hx : ∀ c ∈ ['.', '\x7b', '\x7d'], c ∉ x)
    (hy : ∀ c ∈ ['.', '\x7b', '\x7d'], c ∉ y) (h : shownName x = shownName y) : x = y := by
  refine shownName_inj_of (fun c hc d hd hcd => ?_) h
  have hplain : ∀ e, (∀ f ∈ ['.', '\x7b', '\x7d'], f ≠ e) → e ≠ '.' ∧ e ≠ '\x7b' ∧ e ≠ '\x7d' :=
    fun e he => ⟨(he _ (by simp)).symm, (he _ (by simp)).symm, (he _ (by simp)).symm⟩
  have hc' := hplain c fun f hf heq => hx f hf (heq ▸ hc)
  have hd' := hplain d fun f hf heq => hy f hf (heq ▸ hd)
  unfold shownChar at hcd
  grind

/-- A proper name has neither dots nor braces. -/
theorem ProperName.plain {name : Text} (h : ProperName name) :
    ∀ c ∈ ['.', '\x7b', '\x7d'], c ∉ name := by
  intro c hc
  refine h.marks c ?_
  simp only [List.mem_cons, List.not_mem_nil, or_false] at hc ⊢
  rcases hc with rfl | rfl | rfl <;> simp

/-- Angle brackets are shown as braces, and so close as they did. -/
theorem parensInside_shownName {name : Text} (plain : ∀ c ∈ ['.', '\x7b', '\x7d'], c ∉ name)
    (depth : Nat) :
    parensInside '\x7b' '\x7d' depth (shownName name) = parensInside '<' '>' depth name := by
  rw [shownName_eq_map]
  induction name generalizing depth with
  | nil => rfl
  | cons c name ih =>
    have ih' := ih fun e he hmem => plain e he (List.mem_cons_of_mem _ hmem)
    have hdot : c ≠ '.' := fun h => plain '.' (by simp) (by simp [h])
    have hopen : c ≠ '\x7b' := fun h => plain '\x7b' (by simp) (by simp [h])
    have hclose : c ≠ '\x7d' := fun h => plain '\x7d' (by simp) (by simp [h])
    rw [List.map_cons]
    unfold parensInside
    by_cases hl : c = '<'
    · subst hl
      exact ih' (depth + 1)
    by_cases hr : c = '>'
    · subst hr
      rw [if_neg (by decide), if_pos (by decide), if_neg hl, if_pos rfl, ih' (depth - 1)]
    · have hc : shownChar c = c := by
        unfold shownChar
        rw [if_neg hl, if_neg hr, if_neg hdot]
      rw [hc, if_neg hopen, if_neg hclose, if_neg hl, if_neg hr, ih' depth]

/-- What is shown of a proper name is delimited. -/
theorem ProperName.delimited {name : Text} (h : ProperName name) : Delimited (shownName name) := by
  have hkeeps : ∀ c ∈ ['\x60', '~'], c ∉ shownName name := by
    intro c hc hmem
    rw [shownName_eq_map] at hmem
    obtain ⟨d, hd, rfl⟩ := List.mem_map.1 hmem
    have hself : shownChar d ∈ ['\x60', '~'] → shownChar d = d := by
      unfold shownChar
      split
      · simp
      split
      · simp
      split
      · simp
      · exact fun _ => rfl
    have hmark := hself hc
    rw [hmark] at hc
    refine h.marks d ?_ hd
    simp only [List.mem_cons, List.not_mem_nil, or_false] at hc ⊢
    rcases hc with rfl | rfl <;> simp
  exact ⟨hkeeps _ (by simp), hkeeps _ (by simp),
    (parensInside_shownName h.plain 0).trans h.parens⟩

/-- A name of word characters is delimited. -/
theorem delimited_of_words {name : Text} (h : name.all isWordChar = true) : Delimited name := by
  have hnot : ∀ c, isWordChar c = false → c ∉ name := by
    intro c hc hmem
    rw [List.all_eq_true.1 h c hmem] at hc
    cases hc
  refine ⟨hnot _ (by decide), hnot _ (by decide), ?_⟩
  clear hnot
  induction name with
  | nil => rfl
  | cons c name ih =>
    rw [List.all_cons, Bool.and_eq_true] at h
    have hne : ∀ d, isWordChar d = false → c ≠ d := by
      rintro d hd rfl
      rw [hd] at h
      exact Bool.false_ne_true h.1
    unfold parensInside
    rw [if_neg (hne _ (by decide)), if_neg (hne _ (by decide)), ih h.2, Bool.and_true]
    simpa using hne '(' (by decide)

/-! ### Names that documentation IDs have for kinds -/

/-- The name of an operator depends on whether there is one parameter. -/
theorem operatorName_eq_flag (token : Text) (n : Nat) :
    ∃ m ∈ [0, 1], operatorName token n = operatorName token m ∧ (n = 1 ↔ m = 1) := by
  by_cases hn : n = 1
  · exact ⟨1, by simp, by rw [hn], by simp [hn]⟩
  · refine ⟨0, by simp, operatorName_congr (.inl ?_), ?_⟩
    · simp [hn]
    · simp [hn]

/-- The names that documentation IDs have for kinds other than operators. -/
def kindNames : List (SymbolKind × Text) :=
  [(.constructor, "#ctor".toList), (.staticConstructor, "#cctor".toList),
   (.destructor, "Finalize".toList), (.indexer, "Item".toList),
   (.conversion, "op_Explicit".toList), (.conversion, "op_Implicit".toList)]

/-- These names tell the kinds apart. -/
theorem kindNames_inj : ∀ x ∈ kindNames, ∀ y ∈ kindNames, x.2 = y.2 → x.1 = y.1 := by decide

/-- The names of operators are words, and none of those of other kinds. -/
theorem operatorName_table : ∀ x ∈ operatorNames, ∀ n ∈ [0, 1],
    (operatorName x.1.toList n).all isWordChar = true ∧
      ∀ y ∈ kindNames, operatorName x.1.toList n ≠ y.2 := by
  decide +kernel

/-- Operators are told apart by their names, and so are the two sorts of a sign. -/
theorem operatorName_table_inj : ∀ x ∈ operatorNames, ∀ y ∈ operatorNames, ∀ m ∈ [0, 1],
    ∀ n ∈ [0, 1], operatorName x.1.toList m = operatorName y.1.toList n →
      x.1.toList = y.1.toList ∧ (x.1.toList ∈ [['+'], ['-']] → m = n) := by
  decide +kernel

/-- The name of an operator whose token is known. -/
theorem ProperlyNamed.exists_operatorName (proper : ProperlyNamed s) (kind : s.kind = .operator) :
    ∃ x ∈ operatorNames, ∃ n ∈ [0, 1], x.1.toList = s.name ∧
      memberName s = operatorName x.1.toList n ∧ (s.parameters.length = 1 ↔ n = 1) := by
  obtain ⟨x, hx, htoken⟩ := proper.operator kind
  obtain ⟨n, hn, hname, hone⟩ := operatorName_eq_flag s.name s.parameters.length
  refine ⟨x, hx, n, hn, htoken, ?_, hone⟩
  rw [htoken, ← hname]
  unfold memberName
  rw [kind]

/-- The names that documentation IDs have for kinds, constructors apart, are words. -/
theorem ProperlyNamed.all_isWordChar (proper : ProperlyNamed s)
    (mem : s.kind ∈ [.destructor, .indexer, .operator, .conversion]) :
    (memberName s).all isWordChar = true := by
  simp only [List.mem_cons, List.not_mem_nil, or_false] at mem
  rcases mem with kind | kind | kind | kind
  · unfold memberName
    rw [kind]
    rfl
  · unfold memberName
    rw [kind]
    rfl
  · obtain ⟨x, hx, n, hn, -, hname, -⟩ := proper.exists_operatorName kind
    rw [hname]
    exact (operatorName_table x hx n hn).1
  · unfold memberName
    rw [kind]
    dsimp only
    split <;> decide

/-- A constructor is shown under a name that no word is. -/
theorem mem_or_constructor (renamed : s.kind.isRenamed = true) :
    s.kind ∈ [.destructor, .indexer, .operator, .conversion] ∨
      (s.kind = .constructor ∧ memberName s = "#ctor".toList) ∨
      (s.kind = .staticConstructor ∧ memberName s = "#cctor".toList) := by
  unfold memberName
  cases hkind : s.kind
  case constructor => exact .inr (.inl ⟨rfl, rfl⟩)
  case staticConstructor => exact .inr (.inr ⟨rfl, rfl⟩)
  case destructor | indexer | operator | conversion => exact .inl (by decide)
  all_goals
    rw [hkind] at renamed
    cases renamed

/-- The names of members are delimited. -/
theorem ProperlyNamed.delimited (proper : ProperlyNamed s) (member : s.kind.isType = false) :
    Delimited (memberName s) := by
  cases own : s.kind.isRenamed with
  | false =>
    rw [memberName_of_own member own]
    exact (proper.own own).delimited
  | true =>
    rcases mem_or_constructor own with hmem | hconstructor
    · exact delimited_of_words (proper.all_isWordChar hmem)
    · rcases hconstructor with ⟨-, h⟩ | ⟨-, h⟩
      · rw [h]
        decide
      · rw [h]
        decide

/-- What is named by its kind, operators apart, is in the table. -/
theorem mem_kindNames (renamed : s.kind.isRenamed = true) (kind : s.kind ≠ .operator) :
    (s.kind, memberName s) ∈ kindNames := by
  have hconversion : ∀ name : Text,
      (SymbolKind.conversion, if name = "explicit".toList then "op_Explicit".toList
        else "op_Implicit".toList) ∈ kindNames := by
    intro name
    split <;> decide
  unfold memberName
  cases hkind : s.kind
  case constructor | staticConstructor | destructor | indexer => simp [kindNames]
  case conversion => exact hconversion s.name
  case operator => exact absurd hkind kind
  all_goals
    rw [hkind] at renamed
    cases renamed

/-- Kinds that documentation IDs have names for are told apart by them. -/
theorem kind_eq_of_memberName_eq (proper : ProperlyNamed s) (proper' : ProperlyNamed t)
    (renamed : s.kind.isRenamed = true) (renamed' : t.kind.isRenamed = true)
    (h : memberName s = memberName t) : s.kind = t.kind := by
  have hoperator : ∀ u v : Symbol, ProperlyNamed u → u.kind = .operator → v.kind ≠ .operator →
      v.kind.isRenamed = true → memberName u ≠ memberName v := by
    intro u v proper kind kind' renamed heq
    obtain ⟨x, hx, n, hn, -, hname, -⟩ := proper.exists_operatorName kind
    rw [hname] at heq
    exact (operatorName_table x hx n hn).2 (v.kind, _) (mem_kindNames renamed kind') heq
  by_cases hs : s.kind = .operator
  · by_cases ht : t.kind = .operator
    · rw [hs, ht]
    · exact absurd h (hoperator s t proper hs ht renamed')
  · by_cases ht : t.kind = .operator
    · exact absurd h.symm (hoperator t s proper' ht hs renamed)
    · exact kindNames_inj (s.kind, _) (mem_kindNames renamed hs) (t.kind, _)
        (mem_kindNames renamed' ht) h

/-- A conversion is named by its direction. -/
theorem memberName_of_conversion (kind : s.kind = .conversion) :
    memberName s =
      if s.name = "explicit".toList then "op_Explicit".toList else "op_Implicit".toList := by
  unfold memberName
  rw [kind]

/-- Members of one renamed kind are shown alike only as homonyms. -/
theorem homonyms_of_renamed (proper : ProperlyNamed s) (proper' : ProperlyNamed t)
    (renamed : s.kind.isRenamed = true) (kind : s.kind = t.kind)
    (h : memberName s = memberName t) : Homonyms s t := by
  by_cases hfixed : s.kind ∈ [.constructor, .staticConstructor, .destructor, .indexer]
  · exact .unnamed kind hfixed
  have hcases : s.kind = .operator ∨ s.kind = .conversion := by
    clear h kind proper proper'
    cases hkind : s.kind <;> simp_all [SymbolKind.isRenamed]
  rcases hcases with hs | hs
  · have ht : t.kind = .operator := kind ▸ hs
    obtain ⟨x, hx, m, hm, hx', hname, hone⟩ := proper.exists_operatorName hs
    obtain ⟨y, hy, n, hn, hy', hname', hone'⟩ := proper'.exists_operatorName ht
    rw [hname, hname'] at h
    obtain ⟨htoken, hsign⟩ := operatorName_table_inj x hx y hy m hm n hn h
    refine .operators hs ht (hx'.symm.trans (htoken.trans hy')) ?_
    intro hmem
    rw [hone, hone', hsign (hx' ▸ hmem)]
  · have ht : t.kind = .conversion := kind ▸ hs
    rw [memberName_of_conversion hs, memberName_of_conversion ht] at h
    refine .conversions hs ht ⟨fun hd => ?_, fun hd => ?_⟩
    · by_contra hd'
      rw [if_pos hd, if_neg hd'] at h
      exact absurd h (by decide)
    · by_contra hd'
      rw [if_pos hd, if_neg hd'] at h
      exact absurd h (by decide)

/-- A member called by its own name is shown as one of a renamed kind only where its name is the one
that the documentation ID has for that. -/
theorem name_eq_of_memberName_eq (proper : ProperlyNamed s) (proper' : ProperlyNamed t)
    (renamed : s.kind.isRenamed = true) (member' : t.kind.isType = false)
    (own' : t.kind.isRenamed = false) (h : memberName s = memberName t) :
    s.kind ∈ [.destructor, .indexer, .operator, .conversion] ∧ t.name = memberName s := by
  rw [memberName_of_own member' own'] at h
  have hname := proper'.own own'
  have hmem : s.kind ∈ [.destructor, .indexer, .operator, .conversion] := by
    -- a constructor is shown with a number sign first, as no proper name is
    have hhead : (memberName s).head? ≠ some '#' := by
      rw [h, shownName_eq_map, List.head?_map]
      cases hfirst : t.name.head? with
      | none => simp
      | some c =>
        have hhash : c ≠ '#' := by
          rintro rfl
          exact hname.first hfirst
        have hdot : c ≠ '.' := by
          rintro rfl
          exact hname.marks '.' (by simp) (List.mem_of_mem_head? hfirst)
        rw [Option.map_some]
        unfold shownChar
        grind
    rcases mem_or_constructor renamed with hmem | ⟨-, hctor⟩ | ⟨-, hctor⟩
    · exact hmem
    · rw [hctor] at hhead
      exact absurd rfl hhead
    · rw [hctor] at hhead
      exact absurd rfl hhead
  refine ⟨hmem, ?_⟩
  have hwords := proper.all_isWordChar hmem
  have hplain : ∀ c ∈ ['.', '\x7b', '\x7d'], c ∉ memberName s := by
    intro c hc hin
    have hchar := List.all_eq_true.1 hwords c hin
    simp only [List.mem_cons, List.not_mem_nil, or_false] at hc
    rcases hc with rfl | rfl | rfl <;> cases hchar
  rw [← shownName_of_words hwords] at h
  exact (shownName_inj_of_plain hplain hname.plain h).symm

/-- **Proper members whose IDs begin alike are shown by one name exactly when they are homonyms.**
-/
theorem memberName_eq_iff (proper : ProperlyNamed s) (proper' : ProperlyNamed t)
    (member : s.kind.isType = false) (member' : t.kind.isType = false) :
    memberName s = memberName t ↔ Homonyms s t := by
  constructor
  · intro h
    cases own : s.kind.isRenamed with
    | false =>
      cases own' : t.kind.isRenamed with
      | false =>
        rw [memberName_of_own member own, memberName_of_own member' own'] at h
        exact .named own own'
          (shownName_inj_of_plain (proper.own own).plain (proper'.own own').plain h)
      | true =>
        obtain ⟨hmem, hname⟩ := name_eq_of_memberName_eq proper' proper own' member own h.symm
        exact .metadata' own hmem hname
    | true =>
      cases own' : t.kind.isRenamed with
      | false =>
        obtain ⟨hmem, hname⟩ := name_eq_of_memberName_eq proper proper' own member' own' h
        exact .metadata hmem own' hname
      | true =>
        exact homonyms_of_renamed proper proper' own
          (kind_eq_of_memberName_eq proper proper' own own' h) h
  · have hmetadata : ∀ u v : Symbol, ProperlyNamed u → v.kind.isType = false →
        u.kind ∈ [.destructor, .indexer, .operator, .conversion] → v.kind.isRenamed = false →
        v.name = memberName u → memberName u = memberName v := by
      intro u v hu hv hmem hown hname
      rw [memberName_of_own hv hown, hname, shownName_of_words (hu.all_isWordChar hmem)]
    intro h
    cases h with
    | named own own' name => rw [memberName_of_own member own, memberName_of_own member' own', name]
    | unnamed kind mem =>
      unfold memberName
      rw [← kind]
      simp only [List.mem_cons, List.not_mem_nil, or_false] at mem
      rcases mem with hkind | hkind | hkind | hkind <;> rw [hkind]
    | operators kind kind' token sign =>
      have hname : operatorName s.name s.parameters.length =
          operatorName s.name t.parameters.length := by
        by_cases hsign : s.name ∈ [['+'], ['-']]
        · exact operatorName_congr (.inl (sign hsign))
        · simp only [List.mem_cons, List.not_mem_nil, or_false, not_or] at hsign
          exact operatorName_congr (.inr hsign)
      unfold memberName
      rw [kind, kind', ← token]
      exact hname
    | conversions kind kind' direction =>
      rw [memberName_of_conversion kind, memberName_of_conversion kind']
      simp only [direction]
    | metadata mem own name => exact hmetadata s t proper member' mem own name
    | metadata' own mem name => exact (hmetadata t s proper' member mem own name).symm

/-! ## Parameters -/

/-- A tilde in the spelling of a type stands in its text. -/
theorem mem_of_mem_encodeType {context : TypeContext} {text : Text}
    (h : '~' ∈ encodeType context text) : '~' ∈ text := by
  unfold encodeType at h
  cases hread : TypeRef.ofText? text with
  | some type =>
    simp only [hread] at h
    have hspelled := (TypeRef.built_of_ofText? hread).spelled_encode context _ h
    rcases hspelled with hchar | hmark
    · exact absurd hchar (by decide)
    · exact absurd hmark (by decide)
  | none =>
    simp only [hread] at h
    unfold encodeUnread at h
    obtain ⟨hmem, -⟩ := List.mem_filter.1 h
    rw [Text.replace_singleton, Text.replace_singleton, List.map_map] at hmem
    obtain ⟨c, hc, hshown⟩ := List.mem_map.1 hmem
    simp only [Function.comp_apply] at hshown
    grind

/-- Parameters whose types have no tilde are shown without one. -/
theorem not_mem_parameterList (context : TypeContext) (h : ∀ p ∈ s.parameters, '~' ∉ p.type) :
    '~' ∉ parameterList context s := by
  have hparameters : '~' ∉ encodeParameters context s.parameters := by
    intro hmem
    unfold encodeParameters at hmem
    rcases Text.mem_of_mem_joinWith hmem with hcomma | ⟨x, hx, hin⟩
    · exact absurd hcomma (by decide)
    · obtain ⟨p, hp, rfl⟩ := List.mem_map.1 hx
      unfold encodeParameter at hin
      rcases List.mem_append.1 hin with hin | hin
      · exact h p hp (mem_of_mem_encodeType hin)
      · split at hin <;> simp at hin
  unfold parameterList
  split
  · simp [hparameters]
  · simp

end PartialDocs
