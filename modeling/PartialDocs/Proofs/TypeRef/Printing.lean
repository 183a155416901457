import PartialDocs.Proofs.TypeRef.Grammar

/-!
# Writing types

A type that is built from identifiers has tokens that derive it (`Built.spells`), and no two of
these are neighbouring words, so that it is read back however its tokens are spaced.  With the
grammar this says exactly which texts are read, and as which type (`read_iff_derived`).
-/

set_option autoImplicit false

namespace PartialDocs.TypeRef

open TypeToken (mark Written Words IsProper Printable words_mark words_ofText written_iff
  written_spaced printable_nil printable_word)

/-! ## Types from names -/

mutual

/-- Whether a type is built from names with a property: dotted names have a segment, tuples an
element and arrays a dimension at least. -/
inductive Built (P : Text → Prop) : TypeRef → Prop
  | named {ss : List TypeSegment} :
      ss ≠ [] → (∀ s ∈ ss, BuiltSegment P s) → Built P (.named ss)
  | nullable {t : TypeRef} : Built P t → Built P (.nullable t)
  | pointer {t : TypeRef} : Built P t → Built P (.pointer t)
  | array {t : TypeRef} (commas : Nat) : Built P t → Built P (.array t (commas + 1))
  | tuple {es : List TypeRef} : es ≠ [] → (∀ e ∈ es, Built P e) → Built P (.tuple es)

/-- Whether a segment is built from names with a property. -/
inductive BuiltSegment (P : Text → Prop) : TypeSegment → Prop
  | mk {name : Text} {as : List TypeRef} :
      P name → (∀ a ∈ as, Built P a) → BuiltSegment P (.mk name as)

end

/-- The names that tokens can spell: identifiers, of which two may stand around a dot. -/
def IsName (name : Text) : Prop :=
  IsIdentifier name ∨ ∃ v w, IsIdentifier v ∧ IsIdentifier w ∧ name = v ++ '.' :: w

variable {ts : List TypeToken}

/-- What holds of the words of tokens beside each other. -/
theorem words_append {P : Text → Prop} {ts us : List TypeToken} :
    Words P (ts ++ us) ↔ Words P ts ∧ Words P us :=
  List.forall_mem_append

/-- What is spelled by identifiers is a name. -/
theorem SpellsName.isName {name : Text} (h : SpellsName ts name) (hts : Words IsIdentifier ts) :
    IsName name := by
  cases h with
  | word hw => exact .inl (hts _ (by simp) _ hw)
  | global _ hw => exact .inl (hts _ (by simp) _ hw)
  | aliased hv _ hw => exact .inr ⟨_, _, hts _ (by simp) _ hv, hts _ (by simp) _ hw, rfl⟩

mutual

/-- What tokens derive is built from names. -/
theorem SpellsType.built : ∀ {ts : List TypeToken} {t : TypeRef}, SpellsType ts t →
    Words IsIdentifier ts → Built IsName t
  | _, _, .tuple h, hts => by
    rw [words_append, words_mark] at hts
    obtain ⟨hne, hall⟩ := h.built hts.1
    exact .tuple hne hall
  | _, _, .named h, hts => by
    obtain ⟨hne, hall⟩ := h.built hts
    exact .named hne hall
  | _, _, .nullable h, hts => .nullable (h.built (words_append.1 hts).1)
  | _, _, .pointer h, hts => .pointer (h.built (words_append.1 hts).1)
  | _, _, .array commas h, hts => .array commas (h.built (words_append.1 hts).1)

/-- Tuple elements that are spelled by identifiers are built of names. -/
theorem SpellsElements.built : ∀ {ts : List TypeToken} {es : List TypeRef}, SpellsElements ts es →
    Words IsIdentifier ts → es ≠ [] ∧ ∀ e ∈ es, Built IsName e
  | _, _, .last h _, hts => by
    rw [words_append] at hts
    exact ⟨List.cons_ne_nil _ _, List.forall_mem_singleton.2 (h.built hts.1)⟩
  | _, _, .more h _ hmore, hts => by
    rw [words_append, words_append, words_mark] at hts
    exact ⟨List.cons_ne_nil _ _,
      List.forall_mem_cons.2 ⟨h.built hts.1, (hmore.built hts.2.2).2⟩⟩

/-- Type arguments that are spelled by identifiers are built of names. -/
theorem SpellsArguments.built : ∀ {ts : List TypeToken} {as : List TypeRef},
    SpellsArguments ts as → Words IsIdentifier ts → ∀ a ∈ as, Built IsName a
  | _, _, .last h, hts => List.forall_mem_singleton.2 (h.built hts)
  | _, _, .more h hmore, hts => by
    rw [words_append, words_mark] at hts
    exact List.forall_mem_cons.2 ⟨h.built hts.1, hmore.built hts.2⟩

/-- Arguments between angle brackets that are spelled by identifiers are built of names. -/
theorem SpellsBracketed.built : ∀ {ts : List TypeToken} {as : List TypeRef},
    SpellsBracketed ts as → Words IsIdentifier ts → ∀ a ∈ as, Built IsName a
  | _, _, .missing, _ => List.forall_mem_nil _
  | _, _, .given h, hts => by
    rw [words_append, words_mark] at hts
    exact h.built hts.1

/-- Segments that are spelled by identifiers are built of names. -/
theorem SpellsSegments.built : ∀ {ts : List TypeToken} {ss : List TypeSegment},
    SpellsSegments ts ss → Words IsIdentifier ts → ss ≠ [] ∧ ∀ s ∈ ss, BuiltSegment IsName s
  | _, _, .last hname h, hts => by
    rw [words_append] at hts
    exact ⟨List.cons_ne_nil _ _,
      List.forall_mem_singleton.2 (.mk (hname.isName hts.1) (h.built hts.2))⟩
  | _, _, .more hname h hmore, hts => by
    rw [words_append, words_append, words_mark] at hts
    obtain ⟨hused, hargs, hothers⟩ := hts
    exact ⟨List.cons_ne_nil _ _, List.forall_mem_cons.2
      ⟨.mk (hname.isName hused) (h.built hargs), (hmore.built hothers).2⟩⟩

end

/-- The words of a text are identifiers. -/
theorem words_isIdentifier_ofText (s : Text) : Words IsIdentifier (TypeToken.ofText s) := by
  apply words_ofText
  · intro c hc
    exact ⟨List.cons_ne_nil c [], List.forall_mem_singleton.2 hc⟩
  · intro c w hc hw
    exact ⟨List.cons_ne_nil c w, List.forall_mem_cons.2 ⟨hc, hw.2⟩⟩

/-- **A type that has been read is built from names.** -/
theorem built_of_ofText? {s : Text} {t : TypeRef} (h : ofText? s = some t) : Built IsName t :=
  (ofText?_eq_some_iff_spells.1 h).built (words_isIdentifier_ofText s)

/-! ## The tokens of a type -/

mutual

/-- The tokens of a type that is built from identifiers. -/
def tokens : TypeRef → List TypeToken
  | named segments => tokensOfSegments segments
  | nullable inner => inner.tokens ++ [mark '?']
  | pointer target => target.tokens ++ [mark '*']
  | array element rank =>
    element.tokens ++ mark '[' :: (List.replicate (rank - 1) (mark ',') ++ [mark ']'])
  | tuple elements => mark '(' :: tokensOfAll elements ++ [mark ')']

/-- The tokens of types with commas between them. -/
def tokensOfAll : List TypeRef → List TypeToken
  | [] => []
  | t :: ts =>
    match ts with
    | [] => t.tokens
    | _ :: _ => t.tokens ++ mark ',' :: tokensOfAll ts

/-- The tokens of segments with dots between them. -/
def tokensOfSegments : List TypeSegment → List TypeToken
  | [] => []
  | s :: ss =>
    match ss with
    | [] => tokensOfSegment s
    | _ :: _ => tokensOfSegment s ++ mark '.' :: tokensOfSegments ss

/-- The tokens of one segment. -/
def tokensOfSegment : TypeSegment → List TypeToken
  | .mk name arguments =>
    match arguments with
    | [] => [.word name]
    | _ :: _ => [.word name] ++ (mark '<' :: tokensOfAll arguments ++ [mark '>'])

end

/-- The marks of types are proper tokens. -/
theorem isProper_of_mem {c : Char} (h : c ∈ ['(', ')', ',', '?', '*', '[', ']', '<', '>', '.']) :
    IsProper (mark c) := by
  have hall : (['(', ')', ',', '?', '*', '[', ']', '<', '>', '.'].all fun d =>
      !isBlankChar d && !isIdentifierChar d && d != '@') = true := by decide +kernel
  simpa [IsProper, and_assoc] using List.all_eq_true.1 hall c h

/-- The commas and the bracket of an array can be printed. -/
theorem printable_dimensions (commas : Nat) :
    Printable (List.replicate commas (mark ',') ++ [mark ']']) := by
  induction commas with
  | zero => exact printable_nil.append_mark printable_nil (isProper_of_mem (by simp))
  | succ commas ih => exact printable_nil.append_mark ih (isProper_of_mem (by simp))

/-- Type arguments are tuple elements without names. -/
theorem SpellsArguments.elements : ∀ {ts : List TypeToken} {as : List TypeRef},
    SpellsArguments ts as → SpellsElements ts as
  | ts, _, .last h => by
    have hlast := SpellsElements.last h .missing
    rwa [List.append_nil] at hlast
  | _, _, .more h hmore => .more h .missing hmore.elements

mutual

/-- A type that is built from identifiers is derived by its tokens. -/
theorem Built.spells : ∀ {t : TypeRef}, Built IsIdentifier t → SpellsType t.tokens t
  | .named _, .named hne hall => .named (spells_tokensOfSegments hne hall)
  | .nullable _, .nullable h => .nullable h.spells
  | .pointer _, .pointer h => .pointer h.spells
  | .array _ _, .array commas h => .array commas h.spells
  | .tuple _, .tuple hne hall => .tuple (spells_tokensOfAll hne hall).elements

/-- Types are spelled by their tokens. -/
theorem spells_tokensOfAll : ∀ {ts : List TypeRef}, ts ≠ [] → (∀ t ∈ ts, Built IsIdentifier t) →
    SpellsArguments (tokensOfAll ts) ts
  | [], hne, _ => absurd rfl hne
  | [t], _, hall => .last (hall t List.mem_cons_self).spells
  | t :: u :: us, _, hall => by
    obtain ⟨ht, hus⟩ := List.forall_mem_cons.1 hall
    exact .more ht.spells (spells_tokensOfAll (List.cons_ne_nil u us) hus)

/-- Segments are spelled by their tokens. -/
theorem spells_tokensOfSegments : ∀ {ss : List TypeSegment}, ss ≠ [] →
    (∀ s ∈ ss, BuiltSegment IsIdentifier s) → SpellsSegments (tokensOfSegments ss) ss
  | [], hne, _ => absurd rfl hne
  | [.mk name []], _, hall => .last (.word rfl) .missing
  | [.mk name (a :: as)], _, hall => by
    obtain ⟨-, has⟩ := hall _ List.mem_cons_self
    exact .last (.word rfl) (.given (spells_tokensOfAll (List.cons_ne_nil a as) has))
  | .mk name [] :: s :: ss, _, hall =>
    .more (.word rfl) .missing
      (spells_tokensOfSegments (List.cons_ne_nil s ss) (List.forall_mem_cons.1 hall).2)
  | .mk name (a :: as) :: s :: ss, _, hall => by
    obtain ⟨⟨-, has⟩, hothers⟩ := List.forall_mem_cons.1 hall
    have hmore := SpellsSegments.more (@SpellsName.word (.word name) name rfl)
      (.given (spells_tokensOfAll (List.cons_ne_nil a as) has))
      (spells_tokensOfSegments (List.cons_ne_nil s ss) hothers)
    simpa [tokensOfSegments, tokensOfSegment] using hmore

end

mutual

/-- The tokens of a type can be printed. -/
theorem Built.printable : ∀ {t : TypeRef}, Built IsIdentifier t → Printable t.tokens
  | .named _, .named _ hall => printable_tokensOfSegments hall
  | .nullable _, .nullable h => h.printable.append_mark printable_nil (isProper_of_mem (by simp))
  | .pointer _, .pointer h => h.printable.append_mark printable_nil (isProper_of_mem (by simp))
  | .array _ _, .array commas h =>
    h.printable.append_mark (printable_dimensions commas) (isProper_of_mem (by simp))
  | .tuple _, .tuple _ hall => by
    have hes := printable_tokensOfAll hall
    have hclosed := hes.append_mark printable_nil (c := ')') (isProper_of_mem (by simp))
    exact printable_nil.append_mark hclosed (isProper_of_mem (by simp))

/-- The tokens of types can be printed. -/
theorem printable_tokensOfAll : ∀ {ts : List TypeRef}, (∀ t ∈ ts, Built IsIdentifier t) →
    Printable (tokensOfAll ts)
  | [], _ => printable_nil
  | [t], hall => (hall t List.mem_cons_self).printable
  | t :: u :: us, hall => by
    obtain ⟨ht, hus⟩ := List.forall_mem_cons.1 hall
    exact ht.printable.append_mark (printable_tokensOfAll hus) (isProper_of_mem (by simp))

/-- The tokens of segments can be printed. -/
theorem printable_tokensOfSegments : ∀ {ss : List TypeSegment},
    (∀ s ∈ ss, BuiltSegment IsIdentifier s) → Printable (tokensOfSegments ss)
  | [], _ => printable_nil
  | [s], hall => printable_tokensOfSegment (hall s List.mem_cons_self)
  | s :: u :: us, hall => by
    obtain ⟨hs, hus⟩ := List.forall_mem_cons.1 hall
    exact (printable_tokensOfSegment hs).append_mark (printable_tokensOfSegments hus)
      (isProper_of_mem (by simp))

/-- The tokens of a segment can be printed. -/
theorem printable_tokensOfSegment : ∀ {s : TypeSegment}, BuiltSegment IsIdentifier s →
    Printable (tokensOfSegment s)
  | .mk name [], .mk hname _ => printable_word hname
  | .mk name (a :: as), .mk hname has => by
    have hargs := printable_tokensOfAll has
    have hclosed := hargs.append_mark printable_nil (c := '>') (isProper_of_mem (by simp))
    exact (printable_word hname).append_mark hclosed (isProper_of_mem (by simp))

end

/-- A type that is built from identifiers is read back, whatever blanks its tokens are written
with. -/
theorem ofText?_spaced {t : TypeRef} (ht : Built IsIdentifier t) {parts : List (Text × TypeToken)}
    {tail : Text} (hparts : parts.map Prod.snd = t.tokens)
    (hgaps : ∀ part ∈ parts, Text.isBlank part.1 = true) (htail : Text.isBlank tail = true) :
    ofText? (TypeToken.spaced parts tail) = some t := by
  have hprintable : Printable (parts.map Prod.snd) := hparts ▸ ht.printable
  have hwritten := (written_spaced hprintable hgaps htail).ofText_eq
  rw [ofText?_eq_some_iff_spells, hwritten, hparts]
  exact ht.spells

/-- **The texts that are read as a type are those that the grammar derives.**  In particular a type
that is built from identifiers is read back from its tokens with any blanks between them. -/
theorem read_iff_derived :
    (∀ (s : Text) (t : TypeRef),
      ofText? s = some t ↔ ∃ ts, Written ts s ∧ SpellsType ts t) ∧
    ∀ (t : TypeRef) (parts : List (Text × TypeToken)) (tail : Text), Built IsIdentifier t →
      parts.map Prod.snd = t.tokens → (∀ part ∈ parts, Text.isBlank part.1 = true) →
      Text.isBlank tail = true → ofText? (TypeToken.spaced parts tail) = some t := by
  constructor
  · intro s t
    rw [ofText?_eq_some_iff_spells]
    constructor
    · intro h
      exact ⟨_, TypeToken.written_ofText s, h⟩
    · rintro ⟨ts, hwritten, hspells⟩
      rwa [hwritten.ofText_eq]
  · intro t parts tail ht hparts hgaps htail
    exact ofText?_spaced ht hparts hgaps htail

/-- A type with every kind of suffix in a tuple with names. -/
def nestedTuple : TypeRef :=
  .tuple [.nullable (.named [.mk "A".toList [], .mk "B".toList [.array (word "x.y".toList) 2]]),
    .pointer (word "C".toList)]

/-- A tuple of a nullable generic type and a pointer, written with many blanks. -/
def nestedTupleText : Text := "\t( global :: A.@B < x::y [ ,] > ? first, C* ) ".toList

/-- The tokens of the tuple. -/
def nestedTupleTokens : List TypeToken :=
  [mark '(', .word "global".toList, mark ':', mark ':', .word "A".toList, mark '.',
    .escaped "B".toList, mark '<', .word "x".toList, mark ':', mark ':', .word "y".toList, mark '[',
    mark ',', mark ']', mark '>', mark '?', .word "first".toList, mark ',', .word "C".toList,
    mark '*', mark ')']

/-- A type that is built from identifiers alone, with its tokens behind gaps. -/
def genericArray : TypeRef := .array (.named [.mk "A".toList [word "T".toList]]) 1

/-- An array of a generic type in its parts, each with the blanks in front of it. -/
def genericArrayParts : List (Text × TypeToken) :=
  [([], .word "A".toList), (" ".toList, mark '<'), ([], .word "T".toList), ("\n ".toList, mark '>'),
    ([], mark '['), ("\t".toList, mark ']')]

/-- Blanks, names of elements and an alias before colons do not matter. -/
theorem read_iff_derived_nestedTuple :
    Written nestedTupleTokens nestedTupleText ∧ SpellsType nestedTupleTokens nestedTuple ∧
    ofText? nestedTupleText = some nestedTuple ∧
    Built IsIdentifier genericArray ∧ genericArrayParts.map Prod.snd = genericArray.tokens ∧
    (∀ part ∈ genericArrayParts, Text.isBlank part.1 = true) ∧ Text.isBlank "  ".toList = true ∧
    ofText? "A <T\n >[\t]  ".toList = some genericArray := by
  have hwritten : Written nestedTupleTokens nestedTupleText := by
    rw [written_iff]
    decide +kernel
  have hx : SpellsName [.word "x".toList, mark ':', mark ':', .word "y".toList] "x.y".toList :=
    @SpellsName.aliased _ _ "x".toList "y".toList rfl (by decide) rfl
  have hA : SpellsName [.word "global".toList, mark ':', mark ':', .word "A".toList] "A".toList :=
    .global rfl rfl
  have harray := SpellsType.array 1 (.named (.last hx .missing))
  have hfirst := SpellsType.nullable (.named (.more hA .missing (.last
    (@SpellsName.word (.escaped "B".toList) _ rfl) (.given (.last harray)))))
  have hsecond := SpellsType.pointer (.named (.last (@SpellsName.word (.word "C".toList) _ rfl)
    .missing))
  have hspells : SpellsType nestedTupleTokens nestedTuple :=
    .tuple (.more hfirst (.word "first".toList) (.last hsecond .missing))
  have hbuilt : Built IsIdentifier genericArray := by
    have hT : Built IsIdentifier (word "T".toList) :=
      .named (by decide) (List.forall_mem_singleton.2 (.mk (by decide +kernel) (by simp)))
    exact .array 0 (.named (by decide)
      (List.forall_mem_singleton.2 (.mk (by decide +kernel) (List.forall_mem_singleton.2 hT))))
  have hgaps : ∀ part ∈ genericArrayParts, Text.isBlank part.1 = true := by decide
  refine ⟨hwritten, hspells, ?_, hbuilt, rfl, hgaps, by decide, ?_⟩
  · exact (read_iff_derived.1 _ _).2 ⟨_, hwritten, hspells⟩
  · exact read_iff_derived.2 genericArray genericArrayParts "  ".toList hbuilt rfl hgaps (by decide)

end PartialDocs.TypeRef
