import PartialDocs.Proofs.TypeRef.Readability

/-!
# Built-in types under their keywords and their full names

A built-in type may be written with its keyword or with its full name.  Two types that differ in
nothing else have one spelling in a documentation ID as long as no question mark is concerned
(`encode_eq_of_valueMarks_eq`).  A question mark makes a built-in value type nullable only where it
stands right behind the keyword, so that the spelling also shows which question marks do
(`Synonymous.encode_eq_iff`).
-/

set_option autoImplicit false

namespace PartialDocs.TypeRef

open NormalType (dotted dotted_inj length_dotted)

/-! ## Spellings that mean the same -/

/-- Whether a type names a built-in type of the namespace System, by a keyword or by its full
name. -/
inductive NamesBuiltIn (name : Text) : TypeRef → Prop
  | keyword {k : Text} {isValue : Bool} :
      builtInType? k = some ("System.".toList ++ name, isValue) → NamesBuiltIn name (word k)
  | fullName {k : Text} {isValue : Bool} :
      builtInType? k = some ("System.".toList ++ name, isValue) →
        NamesBuiltIn name (.named [.mk "System".toList [], .mk name []])

mutual

/-- Whether two types differ at most in how they spell built-in types. -/
inductive Synonymous : TypeRef → TypeRef → Prop
  | builtIn {name : Text} {t u : TypeRef} :
      NamesBuiltIn name t → NamesBuiltIn name u → Synonymous t u
  | named {ss us : List TypeSegment} :
      SynonymousSegments ss us → Synonymous (.named ss) (.named us)
  | nullable {t u : TypeRef} : Synonymous t u → Synonymous (.nullable t) (.nullable u)
  | array {t u : TypeRef} (rank : Nat) :
      Synonymous t u → Synonymous (.array t rank) (.array u rank)
  | pointer {t u : TypeRef} : Synonymous t u → Synonymous (.pointer t) (.pointer u)
  | tuple {es fs : List TypeRef} : SynonymousAll es fs → Synonymous (.tuple es) (.tuple fs)

/-- Whether dotted names differ at most in how their type arguments spell built-in types. -/
inductive SynonymousSegments : List TypeSegment → List TypeSegment → Prop
  | nil : SynonymousSegments [] []
  | cons {name : Text} {as bs : List TypeRef} {ss us : List TypeSegment} :
      SynonymousAll as bs → SynonymousSegments ss us →
        SynonymousSegments (.mk name as :: ss) (.mk name bs :: us)

/-- Whether types differ one by one at most in how they spell built-in types. -/
inductive SynonymousAll : List TypeRef → List TypeRef → Prop
  | nil : SynonymousAll [] []
  | cons {t u : TypeRef} {ts us : List TypeRef} :
      Synonymous t u → SynonymousAll ts us → SynonymousAll (t :: ts) (u :: us)

end

mutual

/-- For every question mark in a type, from left to right, whether it stands right behind the
keyword for a built-in value type. -/
def valueMarks : TypeRef → List Bool
  | named segments => valueMarksOfSegments segments
  | nullable inner => inner.valueMarks ++ [inner.isBuiltInValue]
  | array element _ => element.valueMarks
  | pointer target => target.valueMarks
  | tuple elements => valueMarksOfAll elements

/-- The same for the question marks in segments. -/
def valueMarksOfSegments : List TypeSegment → List Bool
  | [] => []
  | s :: ss => valueMarksOfSegment s ++ valueMarksOfSegments ss

/-- The same for the question marks in one segment. -/
def valueMarksOfSegment : TypeSegment → List Bool
  | .mk _ arguments => valueMarksOfAll arguments

/-- The same for the question marks in several types. -/
def valueMarksOfAll : List TypeRef → List Bool
  | [] => []
  | t :: ts => t.valueMarks ++ valueMarksOfAll ts

end

mutual

/-- Types are synonymous either way. -/
theorem Synonymous.symm : ∀ {t u : TypeRef}, Synonymous t u → Synonymous u t
  | _, _, .builtIn ht hu => .builtIn hu ht
  | _, _, .named h => .named h.symm
  | _, _, .nullable h => .nullable h.symm
  | _, _, .array rank h => .array rank h.symm
  | _, _, .pointer h => .pointer h.symm
  | _, _, .tuple h => .tuple h.symm

/-- Segments are synonymous either way. -/
theorem SynonymousSegments.symm : ∀ {ss us : List TypeSegment}, SynonymousSegments ss us →
    SynonymousSegments us ss
  | _, _, .nil => .nil
  | _, _, .cons has hss => .cons has.symm hss.symm

/-- Types are synonymous one by one either way. -/
theorem SynonymousAll.symm : ∀ {ts us : List TypeRef}, SynonymousAll ts us → SynonymousAll us ts
  | _, _, .nil => .nil
  | _, _, .cons ht hts => .cons ht.symm hts.symm

end

/-! ## Single words -/

/-- Every built-in type is a type of the namespace System. -/
theorem exists_system_name {k fullName : Text} {isValue : Bool}
    (h : builtInType? k = some (fullName, isValue)) :
    ∃ name, fullName = "System.".toList ++ name ∧ '.' ∉ name := by
  have htable : ∀ x ∈ builtInTypes, x.2.1.toList = "System.".toList ++ x.2.1.toList.drop 7 ∧
      '.' ∉ x.2.1.toList.drop 7 := by decide +kernel
  unfold builtInType? at h
  rw [Option.map_eq_some_iff] at h
  obtain ⟨x, hx, hpair⟩ := h
  cases hpair
  exact ⟨_, htable x (List.mem_of_find?_eq_some hx)⟩

/-- The keyword for a value type names a built-in type. -/
theorem exists_namesBuiltIn {t : TypeRef} (h : t.isBuiltInValue = true) :
    ∃ name, NamesBuiltIn name t := by
  unfold isBuiltInValue at h
  split at h
  · rename_i k
    cases hk : builtInType? k with
    | none => simp [hk] at h
    | some x =>
      obtain ⟨fullName, isValue⟩ := x
      obtain ⟨name, rfl, -⟩ := exists_system_name hk
      exact ⟨name, .keyword hk⟩
  · cases h

section
variable {name : Text} {t u : TypeRef} (context : TypeContext)

/-- The name of a built-in type has no nullable values in it. -/
theorem NamesBuiltIn.valueMarks_eq (h : NamesBuiltIn name t) : t.valueMarks = [] := by
  cases h <;> rfl

/-- Either name of a built-in type is encoded by its full name. -/
theorem NamesBuiltIn.encode_eq (h : NamesBuiltIn name t) :
    t.encode context = "System.".toList ++ name := by
  cases h with
  | @keyword k isValue hk =>
    have hspelled : (word k).encode context = (context.meaning? k).getD k := rfl
    have hmeaning : context.meaning? k = some ("System.".toList ++ name) := by
      unfold TypeContext.meaning?
      rw [hk]
      rfl
    rw [hspelled, hmeaning]
    rfl
  | fullName _ => rfl

/-- The name of a built-in type has no dot. -/
theorem NamesBuiltIn.not_mem (h : NamesBuiltIn name t) : '.' ∉ name := by
  have hdots : ∀ {k : Text} {isValue : Bool},
      builtInType? k = some ("System.".toList ++ name, isValue) → '.' ∉ name := by
    intro k isValue hk
    obtain ⟨name', heq, hname'⟩ := exists_system_name hk
    rwa [List.append_cancel_left heq]
  cases h with
  | keyword hk => exact hdots hk
  | fullName hk => exact hdots hk

/-- Keyword and full name have one normal form. -/
theorem NamesBuiltIn.normal_eq (h : NamesBuiltIn name t) :
    t.normal context = .named [.mk "System".toList [], .mk name []] := by
  have hname : Text.splitOn '.' name = [name] := Text.splitOn_of_not_mem h.not_mem
  cases h with
  | @keyword k isValue hk =>
    have hsystem : "System.".toList ++ name = "System".toList ++ '.' :: name := rfl
    have hpieces : Text.splitOn '.' ("System.".toList ++ name) = ["System".toList, name] := by
      rw [hsystem, Text.splitOn_append_cons, hname,
        Text.splitOn_of_not_mem (by decide : '.' ∉ "System".toList)]
      rfl
    have hnormal : (word k).normal context = context.normalWord k := rfl
    rw [hnormal]
    unfold TypeContext.normalWord dotted
    rw [hk]
    simp only [hpieces]
    rfl
  | fullName _ =>
    rw [normal_named context (by simp), normalSegments, normalSegments, normalSegments,
      normalSegment, normalSegment, normalAll]
    unfold dotted
    rw [hname]
    rfl

/-- A single word is spelled differently only where it names a built-in type. -/
theorem SynonymousSegments.word_iff {ss us : List TypeSegment} (h : SynonymousSegments ss us)
    (name : Text) :
    ss = [.mk name []] ↔ us = [.mk name []] := by
  have hleft : ∀ {ss us : List TypeSegment}, SynonymousSegments ss us → ss = [.mk name []] →
      us = [.mk name []] := by
    rintro ss us h rfl
    cases h with
    | cons has hss =>
      cases has
      cases hss
      rfl
  exact ⟨hleft h, hleft h.symm⟩

/-- What the keyword for a value type is spelled like names that type. -/
theorem Synonymous.exists_namesBuiltIn (h : Synonymous t u) (ht : t.isBuiltInValue = true) :
    ∃ name, NamesBuiltIn name t ∧ NamesBuiltIn name u := by
  cases h with
  | builtIn ht hu => exact ⟨_, ht, hu⟩
  | named h =>
    obtain ⟨name, hname⟩ := TypeRef.exists_namesBuiltIn ht
    cases hname with
    | keyword hk =>
      rw [(h.word_iff _).1 rfl]
      exact ⟨name, .keyword hk, .keyword hk⟩
    | fullName _ => cases ht
  | nullable h => cases ht
  | array rank h => cases ht
  | pointer h => cases ht
  | tuple h => cases ht

end

/-! ## Question marks decide -/

mutual

/-- Synonymous types have as many nullable types in them. -/
theorem Synonymous.length_valueMarks : ∀ {t u : TypeRef}, Synonymous t u →
    t.valueMarks.length = u.valueMarks.length
  | _, _, .builtIn ht hu => by rw [ht.valueMarks_eq, hu.valueMarks_eq]
  | _, _, .named h => h.length_valueMarks
  | _, _, .nullable h => by
    rw [valueMarks, valueMarks, List.length_append, List.length_append, h.length_valueMarks]
    rfl
  | _, _, .array _ h => h.length_valueMarks
  | _, _, .pointer h => h.length_valueMarks
  | _, _, .tuple h => h.length_valueMarks

/-- Synonymous segments have as many nullable types in them. -/
theorem SynonymousSegments.length_valueMarks : ∀ {ss us : List TypeSegment},
    SynonymousSegments ss us →
    (valueMarksOfSegments ss).length = (valueMarksOfSegments us).length
  | _, _, .nil => rfl
  | _, _, .cons has hss => by
    rw [valueMarksOfSegments, valueMarksOfSegments, List.length_append, List.length_append,
      hss.length_valueMarks, valueMarksOfSegment, valueMarksOfSegment, has.length_valueMarks]

/-- Types that are synonymous one by one have as many nullable types in them. -/
theorem SynonymousAll.length_valueMarks : ∀ {ts us : List TypeRef}, SynonymousAll ts us →
    (valueMarksOfAll ts).length = (valueMarksOfAll us).length
  | _, _, .nil => rfl
  | _, _, .cons ht hts => by
    rw [valueMarksOfAll, valueMarksOfAll, List.length_append, List.length_append,
      ht.length_valueMarks, hts.length_valueMarks]

end

mutual

/-- **A built-in type is spelled alike under its keyword and its full name**, as long as the same
question marks stand right behind the keyword for a value type. -/
theorem Synonymous.encode_eq (context : TypeContext) : ∀ {t u : TypeRef}, Synonymous t u →
    t.valueMarks = u.valueMarks → t.encode context = u.encode context
  | _, _, .builtIn ht hu, _ => by rw [ht.encode_eq context, hu.encode_eq context]
  | .named ss, .named us, .named h, hmarks => by
    by_cases hword : ∃ name, ss = [.mk name []]
    · obtain ⟨name, rfl⟩ := hword
      rw [(h.word_iff name).1 rfl]
    · rw [not_exists] at hword
      rw [encode_named context hword,
        encode_named context fun name hus => hword name ((h.word_iff name).2 hus),
        h.encode_eq context hmarks]
  | .nullable t, .nullable u, .nullable h, hmarks => by
    obtain ⟨hinner, hlast⟩ := List.append_inj' hmarks rfl
    rw [encode_nullable, encode_nullable, h.encode_eq context hinner,
      (List.cons.inj hlast).1]
  | _, _, .array rank h, hmarks => by
    rw [encode_array, encode_array, h.encode_eq context hmarks]
  | _, _, .pointer h, hmarks => by
    rw [encode_pointer, encode_pointer, h.encode_eq context hmarks]
  | _, _, .tuple h, hmarks => by
    rw [encode_tuple, encode_tuple, h.encode_eq context hmarks]

/-- Synonymous segments with the same marks have one encoding. -/
theorem SynonymousSegments.encode_eq (context : TypeContext) : ∀ {ss us : List TypeSegment},
    SynonymousSegments ss us → valueMarksOfSegments ss = valueMarksOfSegments us →
    encodeSegments context ss = encodeSegments context us
  | _, _, .nil, _ => rfl
  | _, _, @SynonymousSegments.cons name as bs _ _ has hss, hmarks => by
    obtain ⟨hargs, hothers⟩ := List.append_inj hmarks has.length_valueMarks
    have hencoded := has.encode_eq context hargs
    have hfirst : encodeSegment context (.mk name as) = encodeSegment context (.mk name bs) := by
      cases has with
      | nil => rfl
      | cons ht hts => rw [encodeSegment, encodeSegment, hencoded]
    rw [encodeSegments, encodeSegments, hfirst, hss.encode_eq context hothers]

/-- Types that are synonymous one by one and have the same marks have one encoding. -/
theorem SynonymousAll.encode_eq (context : TypeContext) : ∀ {ts us : List TypeRef},
    SynonymousAll ts us →
    valueMarksOfAll ts = valueMarksOfAll us → encodeAll context ts = encodeAll context us
  | _, _, .nil, _ => rfl
  | _, _, .cons ht hts, hmarks => by
    obtain ⟨hfirst, hothers⟩ := List.append_inj hmarks ht.length_valueMarks
    rw [encodeAll, encodeAll, ht.encode_eq context hfirst, hts.encode_eq context hothers]

end

/-! ## The spelling shows the question marks -/

/-- A nullable built-in value type has no normal form of a built-in type. -/
theorem Synonymous.normal_nullable_ne {t u : TypeRef} (h : Synonymous t u)
    (ht : t.isBuiltInValue = true) (hu : u.isBuiltInValue = false) (context : TypeContext) :
    normal context (.nullable t) ≠ normal context (.nullable u) := by
  obtain ⟨name, -, hname⟩ := h.exists_namesBuiltIn ht
  rw [normal, normal, if_pos ht, if_neg (by simp [hu]), hname.normal_eq context]
  simp [NormalType.system]

mutual

/-- Synonymous types of one normal form have the same marks. -/
theorem Synonymous.valueMarks_eq (context : TypeContext) : ∀ {t u : TypeRef}, Synonymous t u →
    t.normal context = u.normal context → t.valueMarks = u.valueMarks
  | _, _, .builtIn ht hu, _ => by rw [ht.valueMarks_eq, hu.valueMarks_eq]
  | .named ss, .named us, .named h, hnormal => by
    by_cases hword : ∃ name, ss = [.mk name []]
    · obtain ⟨name, rfl⟩ := hword
      rw [(h.word_iff name).1 rfl]
    · rw [not_exists] at hword
      rw [normal_named context hword,
        normal_named context fun name hus => hword name ((h.word_iff name).2 hus)] at hnormal
      exact h.valueMarks_eq context (NormalType.named.inj hnormal)
  | .nullable t, .nullable u, .nullable h, hnormal => by
    -- by the outermost mark, since a nullable value type is none itself
    have hsame : t.isBuiltInValue = u.isBuiltInValue := by
      cases ht : t.isBuiltInValue <;> cases hu : u.isBuiltInValue
      · rfl
      · exact absurd hnormal.symm (h.symm.normal_nullable_ne hu ht context)
      · exact absurd hnormal (h.normal_nullable_ne ht hu context)
      · rfl
    have hinner : t.normal context = u.normal context := by
      rw [normal, normal, hsame] at hnormal
      split at hnormal
      · simpa [NormalType.system] using hnormal
      · exact hnormal
    rw [valueMarks, valueMarks, h.valueMarks_eq context hinner, hsame]
  | .array t _, .array u _, .array rank h, hnormal => by
    rw [normal, normal, NormalType.array.injEq] at hnormal
    exact h.valueMarks_eq context hnormal.1
  | .pointer t, .pointer u, .pointer h, hnormal => by
    rw [normal, normal, NormalType.pointer.injEq] at hnormal
    exact h.valueMarks_eq context hnormal
  | .tuple es, .tuple fs, .tuple h, hnormal => by
    rw [normal, normal] at hnormal
    exact h.valueMarks_eq context (by simpa [NormalType.system] using hnormal)

/-- Synonymous segments of one normal form have the same marks. -/
theorem SynonymousSegments.valueMarks_eq (context : TypeContext) : ∀ {ss us : List TypeSegment},
    SynonymousSegments ss us → normalSegments context ss = normalSegments context us →
    valueMarksOfSegments ss = valueMarksOfSegments us
  | _, _, .nil, _ => rfl
  | _, _, @SynonymousSegments.cons name as bs ss us has hss, hnormal => by
    rw [normalSegments, normalSegments, normalSegment, normalSegment] at hnormal
    obtain ⟨hfirst, hothers⟩ := List.append_inj hnormal (length_dotted name _ _)
    have hargs := dotted_inj hfirst
    rw [valueMarksOfSegments, valueMarksOfSegments, valueMarksOfSegment, valueMarksOfSegment,
      has.valueMarks_eq context hargs, hss.valueMarks_eq context hothers]

/-- Types that are synonymous one by one and of one normal form have the same marks. -/
theorem SynonymousAll.valueMarks_eq (context : TypeContext) : ∀ {ts us : List TypeRef},
    SynonymousAll ts us →
    normalAll context ts = normalAll context us → valueMarksOfAll ts = valueMarksOfAll us
  | _, _, .nil, _ => rfl
  | _, _, .cons ht hts, hnormal => by
    rw [normalAll, normalAll, List.cons.injEq] at hnormal
    rw [valueMarksOfAll, valueMarksOfAll, ht.valueMarks_eq context hnormal.1,
      hts.valueMarks_eq context hnormal.2]

end

/-- Types that have been read and differ in nothing but the spelling of built-in types are encoded
alike exactly where the same question marks stand right behind the keyword for a value type. -/
theorem Synonymous.encode_eq_iff {t u : TypeRef} (h : Synonymous t u) (ht : Built IsName t)
    (hu : Built IsName u) (context : TypeContext) :
    t.encode context = u.encode context ↔ t.valueMarks = u.valueMarks := by
  constructor
  · intro hencode
    rw [ht.encode_eq_spelling context, hu.encode_eq_spelling context] at hencode
    exact h.valueMarks_eq context (NormalType.spelling_injective (ht.proper_normal context)
      (hu.proper_normal context) hencode)
  · exact h.encode_eq context

end PartialDocs.TypeRef
