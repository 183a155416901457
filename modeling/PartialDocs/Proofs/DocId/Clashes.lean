import PartialDocs.Proofs.DocId.Homonyms
import PartialDocs.Proofs.DocId.Paths

/-!
# Symbols with one documentation ID

Nothing in the index compares documentation IDs, and symbols with different keys may have
one ID.  `Clash` lists all the ways in which this happens, and `placedDocId_eq_iff` says
that there is no other: different symbols of a sound builder have one ID exactly when they
clash.
-/

set_option autoImplicit false

namespace PartialDocs

/-- What may differ between two members of one type whose IDs say the same. -/
inductive Overlooked (symbols : List Symbol) (s t : Symbol) : Prop where
  /-- A kind or a name that the ID writes alike, as a destructor and a method Finalize. -/
  | renamed (differ : s.kind ≠ t.kind ∨ s.name ≠ t.name)
  /-- The parameters of a kind for which the ID shows none. -/
  | parameters (kind : s.kind = t.kind) (hidden : s.kind.showsParameters = false)
  /-- The arity of a member that is no method. -/
  | arity (kind : s.kind = t.kind) (notMethod : s.kind ≠ .method) (differ : s.arity ≠ t.arity)
  /-- The end of the parameters of a conversion, where their spelling has a tilde of its own. -/
  | tilde (kind : s.kind = .conversion)
      (mem : '~' ∈ parameterList (contextOf symbols s) s ∨
        '~' ∈ parameterList (contextOf symbols t) t)

/-- Whether IDs begin alike and say the same after the names of the types. -/
inductive SameText (symbols : List Symbol) (s t : Symbol) : Prop where
  /-- The members are shown by one name, with one arity, one parameter list and one target. -/
  | parts (idPrefix : s.kind.idPrefix = t.kind.idPrefix) (alike : PartsAlike symbols s t)
  /-- A name or a parameter list can be taken to end earlier than it does. -/
  | undelimited (idPrefix : s.kind.idPrefix = t.kind.idPrefix)
      (text : memberText symbols s = memberText symbols t)
      (odd : ¬ Delimited (memberName s) ∨ ¬ Delimited (memberName t) ∨
        '~' ∈ parameterList (contextOf symbols s) s ∨ '~' ∈ parameterList (contextOf symbols t) t)

/-- Whether the text of one member goes on into the dotted name of the type around the other. -/
structure Spliced (symbols : List Symbol) (s t : Symbol) : Prop where
  idPrefix : s.kind.idPrefix = t.kind.idPrefix
  text : ∃ x, dottedName (chainAround symbols t) = dottedName (chainAround symbols s) ++ '.' :: x ∧
    memberText symbols s = x ++ '.' :: memberText symbols t

/-- Different paths of nested types that are spelled alike. -/
structure SpelledAlike (chain other : List Symbol) : Prop where
  path : typePath chain ≠ typePath other
  spelling : dottedName chain = dottedName other

/-- The ways in which different symbols come to have one documentation ID. -/
inductive Clash (symbols : List Symbol) (s t : Symbol) : Prop where
  /-- Types with different paths that are spelled alike. -/
  | types (type : s.kind.isType = true) (type' : t.kind.isType = true)
      (alike : SpelledAlike (s :: chainAround symbols s) (t :: chainAround symbols t))
  /-- Members of one type that differ in what the ID overlooks. -/
  | members (member : s.kind.isType = false) (member' : t.kind.isType = false)
      (container : s.container = t.container) (same : SameText symbols s t)
      (overlooked : Overlooked symbols s t)
  /-- Members of types with different paths that are spelled alike. -/
  | nested (member : s.kind.isType = false) (member' : t.kind.isType = false)
      (alike : SpelledAlike (chainAround symbols s) (chainAround symbols t))
      (same : SameText symbols s t)
  /-- Members of which one has a text that goes on into the type around the other. -/
  | spliced (member : s.kind.isType = false) (member' : t.kind.isType = false)
      (spliced : Spliced symbols s t ∨ Spliced symbols t s)

variable {symbols : List Symbol} {s t : Symbol}

/-! ## Members of one text -/

/-- Symbols of one text have one letter. -/
theorem SameText.idPrefix_eq (h : SameText symbols s t) : s.kind.idPrefix = t.kind.idPrefix := by
  cases h with
  | parts idPrefix alike => exact idPrefix
  | undelimited idPrefix text odd => exact idPrefix

/-- Symbols of one text show the same. -/
theorem SameText.memberText_eq (h : SameText symbols s t) :
    memberText symbols s = memberText symbols t := by
  cases h with
  | parts idPrefix alike => exact alike.memberText_eq
  | undelimited idPrefix text odd => exact text

/-- Members of one text have like parts, unless a name or a parameter list is not delimited. -/
theorem sameText_of_memberText_eq (idPrefix : s.kind.idPrefix = t.kind.idPrefix)
    (text : memberText symbols s = memberText symbols t) : SameText symbols s t := by
  by_cases odd : ¬ Delimited (memberName s) ∨ ¬ Delimited (memberName t) ∨
      '~' ∈ parameterList (contextOf symbols s) s ∨ '~' ∈ parameterList (contextOf symbols t) t
  · exact .undelimited idPrefix text odd
  · simp only [not_or, Decidable.not_not] at odd
    obtain ⟨hs, ht, tilde, tilde'⟩ := odd
    exact .parts idPrefix (partsAlike_of_memberText_eq hs ht tilde tilde' text)

/-- Members of one type that have one text but not one key differ in what the ID overlooks. -/
theorem overlooked_of_text_eq {b : IndexBuilder} (hs : Placed b.symbols s)
    (member : s.kind.isType = false) (member' : t.kind.isType = false)
    (container : s.container = t.container) (text : memberText b.symbols s = memberText b.symbols t)
    (key : b.key s ≠ b.key t) : Overlooked b.symbols s t := by
  by_cases hrenamed : s.kind ≠ t.kind ∨ s.name ≠ t.name
  · exact .renamed hrenamed
  rw [not_or, Decidable.not_not, Decidable.not_not] at hrenamed
  obtain ⟨hkind, hname⟩ := hrenamed
  cases shows : s.kind.showsParameters with
  | false => exact .parameters hkind shows
  | true =>
    rw [memberText_eq, memberText_eq] at text
    rw [memberName_of_append_eq hkind hname text, List.append_cancel_left_eq] at text
    -- only methods show their arity, and then it is the same
    by_cases hmethod : s.kind ≠ .method ∧ s.arity ≠ t.arity
    · exact .arity hkind hmethod.1 hmethod.2
    have harity : s.arity = t.arity := by
      by_cases hm : s.kind = .method
      · have hshown := shownArity_of_append_eq text
        unfold shownArity at hshown
        rwa [if_pos hm, if_pos (hkind ▸ hm)] at hshown
      · exact Decidable.byContradiction fun hne => hmethod ⟨hm, hne⟩
    rw [arityMark_congr hkind harity, List.append_cancel_left_eq] at text
    by_cases htilde : s.kind = .conversion ∧
        ('~' ∈ parameterList (contextOf b.symbols s) s ∨
          '~' ∈ parameterList (contextOf b.symbols t) t)
    · exact .tilde htilde.1 htilde.2
    have hlist : parameterList (contextOf b.symbols s) s =
        parameterList (contextOf b.symbols t) t := by
      by_cases hc : s.kind = .conversion
      · have hnone := not_or.1 fun hmem => htilde ⟨hc, hmem⟩
        exact parameterList_of_append_eq hnone.1 hnone.2 text
      · rw [target?_of_ne_conversion hc, target?_of_ne_conversion (hkind ▸ hc)] at text
        exact List.append_cancel_right text
    -- nothing is left that the keys could differ in
    have hspelling := spelling_of_parameterList_eq hkind shows hlist
    obtain ⟨c, hc⟩ := hs.exists_container member
    refine absurd ?_ key
    rw [b.key_of_member member hc, b.key_of_member member' (container ▸ hc), hkind, hname, harity,
      signature_eq hc, signature_eq (container ▸ hc), hspelling]

/-! ## All symbols -/

/-- The letter tells types from members. -/
theorem isType_eq_of_idPrefix_eq (h : s.kind.idPrefix = t.kind.idPrefix) :
    s.kind.isType = t.kind.isType := by
  rw [Bool.eq_iff_iff, SymbolKind.isType_iff_idPrefix, SymbolKind.isType_iff_idPrefix, h]

/-- A documentation ID begins with the letter of the kind. -/
theorem exists_placedDocId_eq (symbols : List Symbol) (s : Symbol) :
    ∃ x, placedDocId symbols s = s.kind.idPrefix ++ x := by
  cases type : s.kind.isType with
  | true => exact ⟨_, placedDocId_of_type type⟩
  | false => exact ⟨_, placedDocId_of_member type⟩

/-- Texts around a dot that are one text have the dot in one place, or one of them goes on with the
dot of the other. -/
theorem append_dot_cases {x y x' y' : Text} (h : x ++ '.' :: y = x' ++ '.' :: y') :
    (x = x' ∧ y = y') ∨ (∃ z, x' = x ++ '.' :: z ∧ y = z ++ '.' :: y') ∨
      ∃ z, x = x' ++ '.' :: z ∧ y' = z ++ '.' :: y := by
  rcases List.append_eq_append_iff.1 h with ⟨z, hx, hy⟩ | ⟨z, hx, hy⟩
  · cases z with
    | nil => exact .inl ⟨by simpa using hx.symm, by simpa using hy⟩
    | cons c z =>
      rw [List.cons_append, List.cons.injEq] at hy
      exact .inr (.inl ⟨z, hy.1 ▸ hx, hy.2⟩)
  · cases z with
    | nil => exact .inl ⟨by simpa using hx, by simpa using hy.symm⟩
    | cons c z =>
      rw [List.cons_append, List.cons.injEq] at hy
      exact .inr (.inr ⟨z, hy.1 ▸ hx, hy.2⟩)

/-- Symbols that clash have one documentation ID. -/
theorem Clash.placedDocId_eq (h : Clash symbols s t) :
    placedDocId symbols s = placedDocId symbols t := by
  cases h with
  | types type type' alike =>
    rw [placedDocId_of_type type, placedDocId_of_type type', alike.spelling,
      (SymbolKind.isType_iff_idPrefix s.kind).1 type,
      (SymbolKind.isType_iff_idPrefix t.kind).1 type']
  | members member member' container same =>
    rw [placedDocId_of_member member, placedDocId_of_member member', same.idPrefix_eq,
      same.memberText_eq, chainAround_congr container]
  | nested member member' alike same =>
    rw [placedDocId_of_member member, placedDocId_of_member member', same.idPrefix_eq,
      same.memberText_eq, alike.spelling]
  | spliced member member' spliced =>
    rw [placedDocId_of_member member, placedDocId_of_member member']
    rcases spliced with ⟨hbegin, x, hname, htext⟩ | ⟨hbegin, x, hname, htext⟩
    · rw [hbegin, hname, htext, List.append_assoc, List.cons_append]
    · rw [hbegin, hname, htext, List.append_assoc, List.cons_append]

section Builder

variable {b : IndexBuilder} {i j : Nat}

/-- Different types with one documentation ID have different paths. -/
theorem clash_of_types (h : b.Sound) (hs : b.symbols[i]? = some s) (ht : b.symbols[j]? = some t)
    (hij : i ≠ j) (type : s.kind.isType = true) (type' : t.kind.isType = true)
    (spelling : dottedName (s :: chainAround b.symbols s) =
      dottedName (t :: chainAround b.symbols t)) : Clash b.symbols s t := by
  refine .types type type' ⟨?_, spelling⟩
  intro hpath
  exact hij (h.eq_of_typePath_eq hs ht type type' hpath)

/-- Different members with one documentation ID differ in what it overlooks, or the types around
them have different paths. -/
theorem clash_of_members (h : b.Sound) (hs : b.symbols[i]? = some s)
    (ht : b.symbols[j]? = some t) (hij : i ≠ j) (member : s.kind.isType = false)
    (member' : t.kind.isType = false) (same : SameText b.symbols s t)
    (spelling : dottedName (chainAround b.symbols s) = dottedName (chainAround b.symbols t)) :
    Clash b.symbols s t := by
  have hplaced := h.placed.placed hs
  obtain ⟨c, hc⟩ := hplaced.exists_container member
  obtain ⟨d, hd⟩ := (h.placed.placed ht).exists_container member'
  obtain ⟨o, ho, htype, hchain⟩ := exists_outer h.placed hs hc
  obtain ⟨q, hq, htype', hchain'⟩ := exists_outer h.placed ht hd
  by_cases hpath : typePath (chainAround b.symbols s) = typePath (chainAround b.symbols t)
  · -- one path means one type around both, so that only their keys can differ
    rw [hchain, hchain'] at hpath
    have hcontainer : s.container = t.container := by
      rw [hc, hd, h.eq_of_typePath_eq ho hq htype htype' hpath]
    have hkey : b.key s ≠ b.key t := fun hkey => hij (h.eq_of_key_eq hs ht hkey)
    exact .members member member' hcontainer same
      (overlooked_of_text_eq hplaced member member' hcontainer same.memberText_eq hkey)
  · exact .nested member member' ⟨hpath, spelling⟩ same

/-- **Symbols of a sound builder have one documentation ID exactly when they are the same symbol or
clash.** -/
theorem placedDocId_eq_iff (h : b.Sound) (hs : b.symbols[i]? = some s)
    (ht : b.symbols[j]? = some t) :
    placedDocId b.symbols s = placedDocId b.symbols t ↔ i = j ∨ Clash b.symbols s t := by
  constructor
  · intro heq
    by_cases hij : i = j
    · exact .inl hij
    refine .inr ?_
    obtain ⟨x, hx⟩ := exists_placedDocId_eq b.symbols s
    obtain ⟨y, hy⟩ := exists_placedDocId_eq b.symbols t
    have hsort : s.kind.isType = t.kind.isType := by
      rw [hx, hy] at heq
      exact isType_eq_of_idPrefix_eq (idPrefix_of_append_eq heq).1
    cases type : s.kind.isType with
    | true =>
      have type' : t.kind.isType = true := hsort.symm.trans type
      rw [placedDocId_of_type type, placedDocId_of_type type'] at heq
      exact clash_of_types h hs ht hij type type' (idPrefix_of_append_eq heq).2
    | false =>
      have type' : t.kind.isType = false := hsort.symm.trans type
      rw [placedDocId_of_member type, placedDocId_of_member type'] at heq
      obtain ⟨hbegin, hrest⟩ := idPrefix_of_append_eq heq
      rcases append_dot_cases hrest with ⟨hname, htext⟩ | hspliced | hspliced
      · have hsame : SameText b.symbols s t := sameText_of_memberText_eq hbegin htext
        exact clash_of_members h hs ht hij type type' hsame hname
      · exact .spliced type type' (.inl ⟨hbegin, hspliced⟩)
      · exact .spliced type type' (.inr ⟨hbegin.symm, hspliced⟩)
  · rintro (rfl | hclash)
    · rw [hs, Option.some.injEq] at ht
      rw [ht]
    · exact hclash.placedDocId_eq

end Builder

end PartialDocs
