import PartialDocs.Proofs.TypeRef.Alphabet

/-!
# Names of tuple elements

The elements of a tuple may have names.  `Named N ts us t` says that tokens `ts` derive a type once
the names of its tuple elements, which are of the kind `N`, are left out as in `us`.  The reader
leaves out a name that is a single word (`Named.spells`), and no other one (`Named.plain`).  A type
with another name is not read at all, and its spelling keeps a character that no spelling of a type
has, so it is a wrong one (`elementNames_ignored`).
-/

set_option autoImplicit false

namespace PartialDocs

open TypeToken (escaped mark)

/-- Whether a text is a name of the language: an at sign or none, and behind it characters of which
none is blank, a mark of types or another at sign. -/
def IsWrittenName (s : Text) : Prop :=
  ∃ w, (s = w ∨ s = '@' :: w) ∧ w ≠ [] ∧
    ∀ c ∈ w, isBlankChar c = false ∧ c ∉ typeMarks ∧ c ≠ '@'

namespace TypeRef

/-! ## Kinds of names -/

/-- The tokens of any name that the language allows for a tuple element, or of none. -/
inductive AnyName : List TypeToken → Prop
  | missing : AnyName []
  | written {s : Text} : IsWrittenName s → AnyName (TypeToken.ofText s)

/-- An identifier, with or without an at sign, is the written name of an element. -/
theorem isWrittenName_of_isIdentifier {s w : Text} (hw : IsIdentifier w)
    (hs : s = w ∨ s = '@' :: w) : IsWrittenName s := by
  refine ⟨w, hs, hw.1, fun c hc => ⟨?_, ?_, ?_⟩⟩
  · rw [Bool.eq_false_iff]
    intro hblank
    exact not_mem_of_isIdentifier hw (isIdentifierChar_of_isBlankChar hblank) hc
  · intro hmark
    have hnone : typeMarks.all (fun d => !isIdentifierChar d) = true := by decide +kernel
    have hc' : isIdentifierChar c = false := by simpa using List.all_eq_true.1 hnone c hmark
    exact not_mem_of_isIdentifier hw hc' hc
  · rintro rfl
    exact not_mem_of_isIdentifier hw (by decide +kernel) hc

/-- A word is a name. -/
theorem anyName_word {w : Text} (hw : IsIdentifier w) : AnyName [.word w] := by
  have hname := AnyName.written (isWrittenName_of_isIdentifier hw (.inl rfl))
  have htokens := TypeToken.ofText_word hw (s := []) rfl
  rw [List.append_nil] at htokens
  rwa [htokens] at hname

/-- A word behind an at sign is a name. -/
theorem anyName_escaped {w : Text} (hw : IsIdentifier w) : AnyName [escaped w] := by
  have hname := AnyName.written (isWrittenName_of_isIdentifier hw (.inr rfl))
  have htokens := TypeToken.ofText_escaped hw (s := []) rfl
  rw [List.append_nil] at htokens
  rwa [htokens] at hname

/-- A name is one that the reader leaves out, a word behind an at sign, or one with a character
that no type has. -/
theorem AnyName.cases {name : List TypeToken} (h : AnyName name) :
    ElementName name ∨ (∃ w, name = [escaped w]) ∨ ∃ c, mark c ∈ name ∧ c ∉ typeMarks := by
  cases h with
  | missing => exact .inl .missing
  | written h =>
    rename_i s
    obtain ⟨w, hs, hne, hchars⟩ := h
    -- the language has names with characters that end a word for the reader
    by_cases hw : ∀ c ∈ w, isIdentifierChar c = true
    · rcases hs with rfl | rfl
      · have htokens := TypeToken.ofText_word ⟨hne, hw⟩ (s := []) rfl
        rw [List.append_nil] at htokens
        rw [htokens]
        exact .inl (.word _)
      · have htokens := TypeToken.ofText_escaped ⟨hne, hw⟩ (s := []) rfl
        rw [List.append_nil] at htokens
        exact .inr (.inl ⟨w, htokens⟩)
    · simp only [not_forall, Bool.not_eq_true] at hw
      obtain ⟨c, hc, hword⟩ := hw
      obtain ⟨hblank, hmark, hat⟩ := hchars c hc
      have hmem : c ∈ s := by
        rcases hs with rfl | rfl
        · exact hc
        · exact List.mem_cons_of_mem _ hc
      exact .inr (.inr ⟨c, (TypeToken.written_ofText s).mark_mem hmem hblank hword hat, hmark⟩)

/-! ## Types with named elements -/

section

variable (N : List TypeToken → Prop)

mutual

/-- The tokens of a type whose tuple elements have names of a kind, its tokens without these names,
and the type. -/
inductive Named : List TypeToken → List TypeToken → TypeRef → Prop
  | tuple {ts us : List TypeToken} {es : List TypeRef} :
      NamedElements ts us es →
        Named (mark '(' :: ts ++ [mark ')']) (mark '(' :: us ++ [mark ')']) (.tuple es)
  | named {ts us : List TypeToken} {ss : List TypeSegment} :
      NamedSegments ts us ss → Named ts us (.named ss)
  | nullable {ts us : List TypeToken} {t : TypeRef} :
      Named ts us t → Named (ts ++ [mark '?']) (us ++ [mark '?']) (.nullable t)
  | pointer {ts us : List TypeToken} {t : TypeRef} :
      Named ts us t → Named (ts ++ [mark '*']) (us ++ [mark '*']) (.pointer t)
  | array {ts us : List TypeToken} {t : TypeRef} (commas : Nat) :
      Named ts us t →
        Named (ts ++ mark '[' :: (List.replicate commas (mark ',') ++ [mark ']']))
          (us ++ mark '[' :: (List.replicate commas (mark ',') ++ [mark ']']))
          (.array t (commas + 1))

/-- The tokens of tuple elements with and without their names. -/
inductive NamedElements : List TypeToken → List TypeToken → List TypeRef → Prop
  | last {ts us name : List TypeToken} {t : TypeRef} :
      Named ts us t → N name → NamedElements (ts ++ name) us [t]
  | more {ts us name ts' us' : List TypeToken} {t : TypeRef} {es : List TypeRef} :
      Named ts us t → N name → NamedElements ts' us' es →
        NamedElements (ts ++ (name ++ mark ',' :: ts')) (us ++ mark ',' :: us') (t :: es)

/-- The tokens of type arguments with and without the names in them. -/
inductive NamedArguments : List TypeToken → List TypeToken → List TypeRef → Prop
  | last {ts us : List TypeToken} {t : TypeRef} : Named ts us t → NamedArguments ts us [t]
  | more {ts us ts' us' : List TypeToken} {t : TypeRef} {as : List TypeRef} :
      Named ts us t → NamedArguments ts' us' as →
        NamedArguments (ts ++ mark ',' :: ts') (us ++ mark ',' :: us') (t :: as)

/-- The tokens of type arguments in angle brackets, with and without the names in them. -/
inductive NamedBracketed : List TypeToken → List TypeToken → List TypeRef → Prop
  | missing : NamedBracketed [] [] []
  | given {ts us : List TypeToken} {as : List TypeRef} :
      NamedArguments ts us as →
        NamedBracketed (mark '<' :: ts ++ [mark '>']) (mark '<' :: us ++ [mark '>']) as

/-- The tokens of a dotted name, with and without the names of elements in its arguments. -/
inductive NamedSegments : List TypeToken → List TypeToken → List TypeSegment → Prop
  | last {ts us us' : List TypeToken} {name : Text} {as : List TypeRef} :
      SpellsName ts name → NamedBracketed us us' as →
        NamedSegments (ts ++ us) (ts ++ us') [.mk name as]
  | more {ts us us' vs vs' : List TypeToken} {name : Text} {as : List TypeRef}
      {ss : List TypeSegment} :
      SpellsName ts name → NamedBracketed us us' as → NamedSegments vs vs' ss →
        NamedSegments (ts ++ (us ++ mark '.' :: vs)) (ts ++ (us' ++ mark '.' :: vs'))
          (.mk name as :: ss)

end

end

variable {N : List TypeToken → Prop} {ts us : List TypeToken} {t : TypeRef}

mutual

/-- Without the names of elements a type is derived as well. -/
theorem Named.bare : ∀ {ts us : List TypeToken} {t : TypeRef}, Named N ts us t → SpellsType us t
  | _, _, _, .tuple h => .tuple h.bare
  | _, _, _, .named h => .named h.bare
  | _, _, _, .nullable h => .nullable h.bare
  | _, _, _, .pointer h => .pointer h.bare
  | _, _, _, .array commas h => .array commas h.bare

/-- Tuple elements without their names are spelled. -/
theorem NamedElements.bare : ∀ {ts us : List TypeToken} {es : List TypeRef},
    NamedElements N ts us es → SpellsElements us es
  | _, _, _, .last h _ => (SpellsArguments.last h.bare).elements
  | _, _, _, .more h _ hmore => .more h.bare .missing hmore.bare

/-- Type arguments without the names of elements are spelled. -/
theorem NamedArguments.bare : ∀ {ts us : List TypeToken} {as : List TypeRef},
    NamedArguments N ts us as → SpellsArguments us as
  | _, _, _, .last h => .last h.bare
  | _, _, _, .more h hmore => .more h.bare hmore.bare

/-- Arguments between angle brackets without the names of elements are spelled. -/
theorem NamedBracketed.bare : ∀ {ts us : List TypeToken} {as : List TypeRef},
    NamedBracketed N ts us as → SpellsBracketed us as
  | _, _, _, .missing => .missing
  | _, _, _, .given h => .given h.bare

/-- Segments without the names of elements are spelled. -/
theorem NamedSegments.bare : ∀ {ts us : List TypeToken} {ss : List TypeSegment},
    NamedSegments N ts us ss → SpellsSegments us ss
  | _, _, _, .last hname h => .last hname h.bare
  | _, _, _, .more hname h hmore => .more hname h.bare hmore.bare

end

mutual

/-- The reader leaves out names that are single words. -/
theorem Named.spells : ∀ {ts us : List TypeToken} {t : TypeRef}, Named ElementName ts us t →
    SpellsType ts t
  | _, _, _, .tuple h => .tuple h.spells
  | _, _, _, .named h => .named h.spells
  | _, _, _, .nullable h => .nullable h.spells
  | _, _, _, .pointer h => .pointer h.spells
  | _, _, _, .array commas h => .array commas h.spells

/-- Tuple elements with names that are read are spelled. -/
theorem NamedElements.spells : ∀ {ts us : List TypeToken} {es : List TypeRef},
    NamedElements ElementName ts us es → SpellsElements ts es
  | _, _, _, .last h hname => .last h.spells hname
  | _, _, _, .more h hname hmore => .more h.spells hname hmore.spells

/-- Type arguments with names that are read are spelled. -/
theorem NamedArguments.spells : ∀ {ts us : List TypeToken} {as : List TypeRef},
    NamedArguments ElementName ts us as → SpellsArguments ts as
  | _, _, _, .last h => .last h.spells
  | _, _, _, .more h hmore => .more h.spells hmore.spells

/-- Arguments between angle brackets with names that are read are spelled. -/
theorem NamedBracketed.spells : ∀ {ts us : List TypeToken} {as : List TypeRef},
    NamedBracketed ElementName ts us as → SpellsBracketed ts as
  | _, _, _, .missing => .missing
  | _, _, _, .given h => .given h.spells

/-- Segments with names that are read are spelled. -/
theorem NamedSegments.spells : ∀ {ts us : List TypeToken} {ss : List TypeSegment},
    NamedSegments ElementName ts us ss → SpellsSegments ts ss
  | _, _, _, .last hname h => .last hname h.spells
  | _, _, _, .more hname h hmore => .more hname h.spells hmore.spells

end

/-! ## Names that the reader leaves out -/

/-- Behind a type and among steady tokens, every name is one that the reader leaves out. -/
theorem AnyName.elementName {name rest : List TypeToken} (h : AnyName name) (ht : SpellsType ts t)
    (hsteady : Steady (ts ++ (name ++ rest))) : ElementName name := by
  rcases h.cases with hname | ⟨w, rfl⟩ | ⟨c, hc, hmark⟩
  · exact hname
  · obtain ⟨last, hlast, hend⟩ := ht.endsInType
    have hchain := (List.isChain_append.1 hsteady.escapes).2.2 last hlast (escaped w) rfl
    exact absurd rfl (hchain hend w)
  · exact absurd (hsteady.right.left.marks c hc) hmark

mutual

/-- Where the tokens are steady, every name is one that the reader leaves out. -/
theorem Named.plain : ∀ {ts us : List TypeToken} {t : TypeRef}, Named AnyName ts us t →
    Steady ts → Named ElementName ts us t
  | _, _, _, .tuple h, hts => .tuple (h.plain hts.left.tail)
  | _, _, _, .named h, hts => .named (h.plain hts)
  | _, _, _, .nullable h, hts => .nullable (h.plain hts.left)
  | _, _, _, .pointer h, hts => .pointer (h.plain hts.left)
  | _, _, _, .array commas h, hts => .array commas (h.plain hts.left)

/-- In steady tokens the names of tuple elements are plain words. -/
theorem NamedElements.plain : ∀ {ts us : List TypeToken} {es : List TypeRef},
    NamedElements AnyName ts us es → Steady ts → NamedElements ElementName ts us es
  | _, _, _, @NamedElements.last _ ts us name _ h hname, hts => by
    have helement := h.plain hts.left
    have hlast : Steady (ts ++ (name ++ [])) := by rwa [List.append_nil]
    exact .last helement (hname.elementName helement.spells hlast)
  | _, _, _, .more h hname hmore, hts => by
    have helement := h.plain hts.left
    exact .more helement (hname.elementName helement.spells hts) (hmore.plain hts.right.right.tail)

/-- In steady tokens the names within type arguments are plain words. -/
theorem NamedArguments.plain : ∀ {ts us : List TypeToken} {as : List TypeRef},
    NamedArguments AnyName ts us as → Steady ts → NamedArguments ElementName ts us as
  | _, _, _, .last h, hts => .last (h.plain hts)
  | _, _, _, .more h hmore, hts => .more (h.plain hts.left) (hmore.plain hts.right.tail)

/-- In steady tokens the names within angle brackets are plain words. -/
theorem NamedBracketed.plain : ∀ {ts us : List TypeToken} {as : List TypeRef},
    NamedBracketed AnyName ts us as → Steady ts → NamedBracketed ElementName ts us as
  | _, _, _, .missing, _ => .missing
  | _, _, _, .given h, hts => .given (h.plain hts.left.tail)

/-- In steady tokens the names within segments are plain words. -/
theorem NamedSegments.plain : ∀ {ts us : List TypeToken} {ss : List TypeSegment},
    NamedSegments AnyName ts us ss → Steady ts → NamedSegments ElementName ts us ss
  | _, _, _, .last hname h, hts => .last hname (h.plain hts.right)
  | _, _, _, .more hname h hmore, hts =>
    .more hname (h.plain hts.right.left) (hmore.plain hts.right.right.tail)

end

/-! ## The law -/

variable {bare s s' : Text}

/-- Whether a text writes the type of another one, with names of a kind for the elements of its
tuples. -/
def NamesElements (N : List TypeToken → Prop) (bare s : Text) : Prop :=
  ∃ t, Named N (TypeToken.ofText s) (TypeToken.ofText bare) t

/-- A type is encoded without its names as what is read. -/
theorem Named.encodeType_bare (h : Named N ts (TypeToken.ofText bare) t) (context : TypeContext) :
    encodeType context bare = t.encode context := by
  unfold encodeType
  rw [ofText?_eq_some_iff_spells.2 h.bare]

/-- Names of tuple elements that are read do not matter to the encoding. -/
theorem NamesElements.encodeType_eq (h : NamesElements ElementName bare s) (context : TypeContext) :
    encodeType context s = encodeType context bare := by
  obtain ⟨t, h⟩ := h
  rw [h.encodeType_bare context]
  unfold encodeType
  rw [ofText?_eq_some_iff_spells.2 h.spells]

/-- A text with a name that is no single word is not read as a type. -/
theorem NamesElements.encodeType_unread (h : NamesElements AnyName bare s)
    (hnames : ¬ NamesElements ElementName bare s) (context : TypeContext) :
    encodeType context s = encodeUnread s ∧ encodeUnread s ≠ encodeType context bare := by
  obtain ⟨t, h⟩ := h
  have hsteady : ¬ Steady (TypeToken.ofText s) := fun hs => hnames ⟨t, h.plain hs⟩
  constructor
  · unfold encodeType
    cases hread : ofText? s with
    | none => rfl
    | some u => exact absurd (ofText?_eq_some_iff_spells.1 hread).steady hsteady
  · obtain ⟨c, hc, hodd⟩ := exists_odd_of_not_steady hsteady
    have hbuilt := h.bare.built (words_isIdentifier_ofText bare)
    rw [h.encodeType_bare context]
    intro heq
    exact hodd (hbuilt.spelled_encode context c (heq ▸ hc))

/-- **The names of tuple elements do not matter exactly where each of them is a single word.**
Whatever the language allows otherwise, in particular a name behind an at sign, keeps the type from
being read, and its spelling is the text as written. -/
theorem elementNames_ignored (context : TypeContext) (h : NamesElements AnyName bare s)
    (h' : NamesElements AnyName bare s') :
    (encodeType context s = encodeType context bare ↔ NamesElements ElementName bare s) ∧
    (NamesElements ElementName bare s →
      (encodeType context s = encodeType context s' ↔ NamesElements ElementName bare s')) ∧
    (¬ NamesElements ElementName bare s → encodeType context s = encodeUnread s) := by
  have hexactly : ∀ {r : Text}, NamesElements AnyName bare r →
      (encodeType context r = encodeType context bare ↔ NamesElements ElementName bare r) := by
    intro r hr
    constructor
    · intro heq
      by_contra hnames
      obtain ⟨hunread, hne⟩ := hr.encodeType_unread hnames context
      exact hne (hunread ▸ heq)
    · intro hnames
      exact hnames.encodeType_eq context
  refine ⟨hexactly h, ?_, ?_⟩
  · intro hnames
    rw [hnames.encodeType_eq context, ← hexactly h', eq_comm]
  · intro hnames
    exact (h.encodeType_unread hnames context).1

/-! ## Tuples with names -/

/-- The tokens of a pair with any names of its elements. -/
def pairTokens (first second a b : List TypeToken) : List TypeToken :=
  mark '(' :: (first ++ (a ++ mark ',' :: (second ++ b))) ++ [mark ')']

/-- A pair with two names. -/
theorem named_pair {first first' second second' a b : List TypeToken} {t u : TypeRef}
    (ht : Named N first first' t) (hu : Named N second second' u) (ha : N a) (hb : N b) :
    Named N (pairTokens first second a b) (pairTokens first' second' [] []) (.tuple [t, u]) := by
  have hpair := Named.tuple (.more ht ha (.last hu hb))
  simpa [pairTokens] using hpair

/-- A single word has no names in it. -/
theorem named_word (N : List TypeToken → Prop) (w : Text) :
    Named N [.word w] [.word w] (word w) :=
  .named (.last (.word rfl) .missing)

/-- The tokens of an integer and an array of pairs of a string and a list of integers. -/
def nestedPairTokens (a b c d : List TypeToken) : List TypeToken :=
  pairTokens [.word "int".toList]
    (pairTokens [.word "string".toList]
      ([.word "List".toList] ++ (mark '<' :: [.word "int".toList] ++ [mark '>'])) a b ++
        mark '[' :: [mark ']']) c d

/-- A pair whose second element is a pair. -/
def nestedPair : TypeRef :=
  .tuple [word "int".toList,
    .array (.tuple [word "string".toList, .named [.mk "List".toList [word "int".toList]]]) 1]

/-- A pair of pairs with four names. -/
theorem named_nestedPair {a b c d : List TypeToken} (ha : N a) (hb : N b) (hc : N c) (hd : N d) :
    Named N (nestedPairTokens a b c d) (nestedPairTokens [] [] [] []) nestedPair := by
  have hlist : Named N _ _ (.named [.mk "List".toList [word "int".toList]]) :=
    .named (.last (@SpellsName.word (.word "List".toList) _ rfl)
      (.given (.last (named_word N "int".toList))))
  have harray := Named.array 0 (named_pair (named_word N "string".toList) hlist ha hb)
  exact named_pair (named_word N "int".toList) harray hc hd

/-- Names in nested tuples may be added, changed and left out. -/
theorem elementNames_ignored_nestedPair :
    NamesElements AnyName "(int, (string, List<int>)[])".toList
      "(int a, (string, List<int> b)[] c)".toList ∧
    NamesElements AnyName "(int, (string, List<int>)[])".toList
      "(int, (string name, List<int>)[])".toList ∧
    encodeType ⟨[], []⟩ "(int a, (string, List<int> b)[] c)".toList =
      encodeType ⟨[], []⟩ "(int, (string name, List<int>)[])".toList := by
  have hbare : TypeToken.ofText "(int, (string, List<int>)[])".toList =
      nestedPairTokens [] [] [] [] := by
    decide +kernel
  have hfirst : TypeToken.ofText "(int a, (string, List<int> b)[] c)".toList =
      nestedPairTokens [] [.word "b".toList] [.word "a".toList] [.word "c".toList] := by
    decide +kernel
  have hsecond : TypeToken.ofText "(int, (string name, List<int>)[])".toList =
      nestedPairTokens [.word "name".toList] [] [] [] := by
    decide +kernel
  -- the same derivation for names as the language has them and as the reader has them
  have hnames : ∀ {N : List TypeToken → Prop}, N [] →
      (∀ w ∈ ["a".toList, "b".toList, "c".toList, "name".toList], N [.word w]) →
      NamesElements N "(int, (string, List<int>)[])".toList
        "(int a, (string, List<int> b)[] c)".toList ∧
      NamesElements N "(int, (string, List<int>)[])".toList
        "(int, (string name, List<int>)[])".toList := by
    intro N hmissing hword
    unfold NamesElements
    rw [hbare, hfirst, hsecond]
    have ha := hword "a".toList (by simp)
    have hb := hword "b".toList (by simp)
    have hc := hword "c".toList (by simp)
    have hname := hword "name".toList (by simp)
    exact ⟨⟨_, named_nestedPair hmissing hb ha hc⟩,
      ⟨_, named_nestedPair hname hmissing hmissing hmissing⟩⟩
  have hidentifiers : ∀ w ∈ ["a".toList, "b".toList, "c".toList, "name".toList],
      IsIdentifier w := by
    decide +kernel
  obtain ⟨h, h'⟩ := hnames .missing fun w hw => anyName_word (hidentifiers w hw)
  obtain ⟨hplain, hplain'⟩ := hnames .missing fun w _ => ElementName.word w
  exact ⟨h, h', ((elementNames_ignored ⟨[], []⟩ h h').2.1 hplain).2 hplain'⟩

/-- A name behind an at sign is kept in the spelling. -/
theorem verbatim_elementName_kept :
    NamesElements AnyName "(int, string)".toList "(int a, string b)".toList ∧
    NamesElements AnyName "(int, string)".toList "(int @class, string b)".toList ∧
    encodeType ⟨[], []⟩ "(int a, string b)".toList =
      "System.ValueTuple\x7bSystem.Int32,System.String\x7d".toList ∧
    encodeType ⟨[], []⟩ "(int @class, string b)".toList = "(int@class,stringb)".toList := by
  have hbare : TypeToken.ofText "(int, string)".toList =
      pairTokens [.word "int".toList] [.word "string".toList] [] [] := by
    decide +kernel
  have hplain : TypeToken.ofText "(int a, string b)".toList =
      pairTokens [.word "int".toList] [.word "string".toList] [.word "a".toList]
        [.word "b".toList] := by
    decide +kernel
  have hverbatim : TypeToken.ofText "(int @class, string b)".toList =
      pairTokens [.word "int".toList] [.word "string".toList] [escaped "class".toList]
        [.word "b".toList] := by
    decide +kernel
  have hb : AnyName [.word "b".toList] := anyName_word (by decide +kernel)
  have hpair : ∀ {a : List TypeToken}, AnyName a →
      Named AnyName (pairTokens [.word "int".toList] [.word "string".toList] a [.word "b".toList])
        (pairTokens [.word "int".toList] [.word "string".toList] [] [])
        (.tuple [word "int".toList, word "string".toList]) := fun ha =>
    named_pair (named_word AnyName _) (named_word AnyName _) ha hb
  unfold NamesElements
  rw [hbare, hplain, hverbatim]
  exact ⟨⟨_, hpair (anyName_word (by decide +kernel))⟩,
    ⟨_, hpair (anyName_escaped (by decide +kernel))⟩, by decide +kernel, by decide +kernel⟩

end TypeRef

end PartialDocs
