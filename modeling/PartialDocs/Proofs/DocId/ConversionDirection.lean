import PartialDocs.Proofs.Compilation.Asides
import PartialDocs.Proofs.DocId.FormalParameters
import PartialDocs.Proofs.Text.Words

/-!
# The direction of a conversion

A conversion operator is called after its direction, for which it has a keyword.  It is taken to be
explicit also when the word explicit stands anywhere in its text before the word operator first
occurs, in an attribute or a comment as well (`conversionDirection_eq_iff`).  Where it does not, the
keyword alone decides (`conversion_direction_of_keyword`), and where it does, an implicit conversion
is taken for an explicit one (`implicit_taken_for_explicit`).
-/

set_option autoImplicit false

namespace PartialDocs

/-- The name of a conversion of the given direction in a documentation ID. -/
def conversionName (direction : Text) : Text :=
  if direction = "explicit".toList then "op_Explicit".toList else "op_Implicit".toList

namespace Declaration

open PartialDocs.Tree (textIn hasModifier)

variable {source source' : Text} {t c : Tree} {d : Text}

/-! ## Keywords -/

/-- The word that a child of a declaration is, where it is a keyword or a modifier. -/
def keywordOf (source : Text) (c : Tree) : Text :=
  if c.kind = "modifier" then textIn source c else c.kind.toList

/-- The directions for which a conversion operator has keywords. -/
def directions (source : Text) (t : Tree) : List Text :=
  (t.children.map (keywordOf source)).filter ["implicit".toList, "explicit".toList].contains

/-- A modifier is a child with its keyword. -/
theorem hasModifier_iff {keyword : String} (hkeyword : keyword.toList ≠ [])
    (hmodifier : keyword ≠ "modifier") :
    hasModifier source t keyword = true ↔
      ∃ c ∈ t.children, keywordOf source c = keyword.toList := by
  unfold hasModifier
  rw [List.any_eq_true]
  refine exists_congr fun c => and_congr_right fun _ => ?_
  unfold keywordOf textIn Text.slice
  split
  · rename_i hkind
    rw [hkind]
    cases Text.slice? source c.start c.stop with
    | none => simp [hkeyword.symm, hmodifier.symm]
    | some w => simp [hmodifier.symm]
  · rename_i hkind
    simp [hkind, String.toList_inj]

/-- A keyword for explicit is found among the modifiers. -/
theorem hasModifier_explicit_iff :
    hasModifier source t "explicit" = true ↔ "explicit".toList ∈ directions source t := by
  rw [hasModifier_iff (by decide) (by decide), directions, List.mem_filter, List.mem_map]
  exact (and_iff_left (by decide)).symm

/-- Whether the word explicit stands in a conversion operator before the word operator first
occurs. -/
def MentionsExplicit (source : Text) (t : Tree) : Prop :=
  "explicit".toList ∈ Text.words (Text.beforeFirst "operator".toList (textIn source t))

instance (source : Text) (t : Tree) : Decidable (MentionsExplicit source t) :=
  inferInstanceAs (Decidable (_ ∈ _))

/-- What is mentioned before the first word operator is mentioned before any other one. -/
theorem MentionsExplicit.stands_in (h : MentionsExplicit source t) {front rest : Text}
    (htext : textIn source t = front ++ ("operator".toList ++ rest)) :
    "explicit".toList <:+: front := by
  unfold MentionsExplicit at h
  rw [htext] at h
  have hfront := Text.beforeFirst_prefix (by decide : "operator".toList ≠ []) front rest
  exact (Text.infix_of_mem_words h).trans hfront.isInfix

/-- A conversion is taken for explicit when a keyword or a word in front says so. -/
theorem conversionDirection_eq_explicit_iff :
    conversionDirection source t = "explicit".toList ↔
      "explicit".toList ∈ directions source t ∨ MentionsExplicit source t := by
  unfold conversionDirection
  simp only
  split <;> rename_i h <;>
    rw [Bool.or_eq_true, hasModifier_explicit_iff, List.contains_iff_mem] at h
  · exact iff_of_true rfl h
  · exact iff_of_false (by decide) h

/-- A conversion is taken for implicit or explicit. -/
theorem conversionDirection_eq_or (source : Text) (t : Tree) :
    conversionDirection source t = "implicit".toList ∨
      conversionDirection source t = "explicit".toList := by
  unfold conversionDirection
  simp only
  split
  · exact .inr rfl
  · exact .inl rfl

/-- **With one keyword the direction is that of the keyword, unless the keyword is implicit and the
word explicit is mentioned.** -/
theorem conversionDirection_eq_iff (h : directions source t = [d]) :
    conversionDirection source t = d ↔ d = "explicit".toList ∨ ¬ MentionsExplicit source t := by
  have hd : d ∈ ["implicit".toList, "explicit".toList] := by
    have hmem : d ∈ directions source t := h ▸ List.mem_singleton_self d
    simpa using (List.mem_filter.1 hmem).2
  have hexplicit : conversionDirection source t = "explicit".toList ↔
      "explicit".toList ∈ directions source t ∨ MentionsExplicit source t :=
    conversionDirection_eq_explicit_iff
  rw [h, List.mem_singleton] at hexplicit
  rcases List.mem_pair.1 hd with rfl | rfl
  · -- the direction is implicit where it is not explicit
    have himplicit : conversionDirection source t = "implicit".toList ↔
        ¬ conversionDirection source t = "explicit".toList := by
      rcases conversionDirection_eq_or source t with hc | hc <;>
        rw [hc] <;> decide
    rw [himplicit, hexplicit]
    simp
  · rw [hexplicit]
    simp

/-! ## The same conversion elsewhere -/

/-- Whether the keyword alone decides about the direction. -/
def DecidedByKeyword (source : Text) (t : Tree) : Prop :=
  MentionsExplicit source t → "explicit".toList ∈ directions source t

instance (source : Text) (t : Tree) : Decidable (DecidedByKeyword source t) :=
  inferInstanceAs (Decidable (_ → _))

/-- Whether a conversion operator has in another text, where its bytes have moved, the modifiers and
the target that it had, whatever else stands in it. -/
@[mk_iff]
structure SameConversion (m : Nat → Nat) (source source' : Text) (t : Tree) : Prop where
  modifier : ∀ c ∈ t.children, c.kind = "modifier" →
    Text.slice? source' (m c.start) (m c.stop) = Text.slice? source c.start c.stop
  target : ∀ c ∈ t.childByField? "type", spacedText source' (c.move m) = spacedText source c
  decided : DecidedByKeyword source t
  decided' : DecidedByKeyword source' (t.move m)

variable {m : Nat → Nat}

instance : Decidable (SameConversion m source source' t) :=
  decidable_of_iff' _ (sameConversion_iff m source source' t)

/-- A conversion with the same keywords keeps its direction. -/
theorem SameConversion.conversionDirection_eq (h : SameConversion m source source' t) :
    conversionDirection source' (t.move m) = conversionDirection source t := by
  have hkeyword : "explicit".toList ∈ directions source' (t.move m) ↔
      "explicit".toList ∈ directions source t := by
    rw [← hasModifier_explicit_iff, ← hasModifier_explicit_iff, hasModifier_move h.modifier]
  have hexplicit : conversionDirection source' (t.move m) = "explicit".toList ↔
      conversionDirection source t = "explicit".toList := by
    rw [conversionDirection_eq_explicit_iff, conversionDirection_eq_explicit_iff,
      or_iff_left_of_imp h.decided, or_iff_left_of_imp h.decided', hkeyword]
  rcases conversionDirection_eq_or source t with hc | hc
  · rcases conversionDirection_eq_or source' (t.move m) with hc' | hc'
    · rw [hc, hc']
    · rw [hexplicit.1 hc'] at hc
      exact absurd hc (by decide)
  · rw [hexplicit.2 hc, hc]

/-- A conversion with the same keywords and target says what it said. -/
theorem SameConversion.rereads (h : SameConversion m source source' t)
    (kind : t.kind = "conversion_operator_declaration") : Rereads .same m source source' t where
  modifier := h.modifier
  name hname := by
    rw [kind] at hname
    cases hname
  member k hk := by
    have hconversion : memberKind source k t = .conversion := by
      rw [kind] at hk
      obtain rfl := Option.some.inj hk
      rfl
    rw [hconversion]
    exact h.conversionDirection_eq
  typeParameter hkind := by
    rw [kind] at hkind
    exact absurd hkind (by decide)
  parameter hkind := by
    rw [kind] at hkind
    exact absurd hkind (by decide)
  target _ c hc := (h.target c hc).symm

/-- Whether a node says in another text what it said, a conversion operator by its own keyword. -/
def AgreesOnConversions (m : Nat → Nat) (source source' : Text) (t : Tree) : Prop :=
  if t.kind = "conversion_operator_declaration" then SameConversion m source source' t
  else Rereads .same m source source' t

/-- A node agrees when the stretches of the text off which it is read are the same, of a conversion
operator its modifiers and its target. -/
theorem AgreesOnConversions.of_wording
    (other : t.kind ≠ "conversion_operator_declaration" → SameWording m source source' t)
    (own : t.kind = "conversion_operator_declaration" → SameConversion m source source' t) :
    AgreesOnConversions m source source' t := by
  unfold AgreesOnConversions
  split
  · exact own ‹_›
  · exact (other ‹_›).rereads

/-- A node that agrees says what it said. -/
theorem AgreesOnConversions.rereads (h : AgreesOnConversions m source source' t) :
    Rereads .same m source source' t := by
  unfold AgreesOnConversions at h
  split at h
  · rename_i kind
    exact h.rereads kind
  · exact h

/-- A conversion is made by a conversion operator, after whose direction it is called. -/
theorem Makes.conversion {file : Nat} {s : Symbol} {p : Piece} (h : Makes file source t s p)
    (hs : s.kind = .conversion) :
    t.kind = "conversion_operator_declaration" ∧ s.name = conversionDirection source t := by
  cases h with
  | @type kind node nameSpace role =>
    have htype := SymbolKind.isType_of_ofTypeNode? node
    rw [show kind = .conversion from hs] at htype
    cases htype
  | value => cases hs
  | @member kind node single =>
    have hkind : memberKind source kind t = .conversion := hs
    refine ⟨kind_of_conversion node hkind, ?_⟩
    change memberSymbolName source (memberKind source kind t) t = _
    rw [hkind]
    rfl
  | @declarator kind name node several mem =>
    have hnone := not_takesParameters_of_hasDeclarators several node
    rw [show kind = .conversion from hs] at hnone
    cases hnone

end Declaration

namespace Compilation

open Declaration (directions MentionsExplicit AgreesOnConversions)

variable {moves : Nat → Nat → Nat} {files files' : List SourceFile} {id : SymbolId} {s : Symbol}
  {p : Piece} {f : SourceFile} {t : Tree} {d : Text}

/-- A symbol of a compilation has been handed over. -/
theorem exists_handed_of_symbol (hs : (ofFiles files).index.symbol id = .ok s) :
    ∃ p, (s, p) ∈ handed files := by
  rw [SymbolIndex.symbol_eq_ok_iff, symbols_ofFiles, builderOf_eq_addAll] at hs
  rcases IndexBuilder.mem_symbols_addAll (List.mem_of_getElem? hs) with hmem | hmem
  · simp [IndexBuilder.symbols, IndexBuilder.empty] at hmem
  · exact hmem

/-- A conversion is made by the node of one and has its direction for a name. -/
theorem MadeBy.conversion (made : MadeBy files (s, p) f t) (hs : s.kind = .conversion) :
    t.kind = "conversion_operator_declaration" ∧
      s.name = Declaration.conversionDirection f.text t := by
  obtain ⟨-, -, s', hmakes, hsymbol⟩ := made
  have hkind : s.kind = s'.kind := (congrArg Symbol.kind hsymbol :)
  have hname : s.name = s'.name := (congrArg Symbol.name hsymbol :)
  rw [hname]
  exact hmakes.conversion (hkind ▸ hs)

/-- What a documentation ID shows of a conversion behind its name. -/
def conversionTail (files : List SourceFile) (s : Symbol) : Text :=
  parameterList (contextOf (ofFiles files).index.symbols s) s ++
    targetMark (target? (contextOf (ofFiles files).index.symbols s) s)

/-- The documentation ID of a conversion shows its direction. -/
theorem docId_of_conversion (hs : (ofFiles files).index.symbol id = .ok s)
    (hkind : s.kind = .conversion) :
    (ofFiles files).index.docId id = .ok ("M:".toList ++
      (dottedName (chainAround (ofFiles files).index.symbols s) ++
        '.' :: (conversionName s.name ++ conversionTail files s))) := by
  have hmember : s.kind.isType = false := by
    rw [hkind]
    rfl
  have hname : memberName s = conversionName s.name := by
    unfold memberName
    rw [hkind]
    rfl
  have harity : arityMark s = [] := if_neg fun h => by simp [hkind] at h
  rw [docId_ofFiles hs, placedDocId_of_member hmember, memberText_eq, hname, harity, hkind]
  rfl

/-- What decides about the direction of a conversion. -/
structure ConversionDirections (moves : Nat → Nat → Nat) (files files' : List SourceFile) :
    Prop where
  /-- A conversion operator has made every conversion. -/
  made {id : SymbolId} {s : Symbol} : (ofFiles files).index.symbol id = .ok s →
    s.kind = .conversion → ∃ p f t, MadeBy files (s, p) f t
  /-- With one keyword the name is that keyword, unless the word explicit is mentioned. -/
  name {s : Symbol} {p : Piece} {f : SourceFile} {t : Tree} {d : Text} :
    MadeBy files (s, p) f t → s.kind = .conversion → directions f.text t = [d] →
    (s.name = d ↔ d = "explicit".toList ∨ ¬ MentionsExplicit f.text t)
  docId {id : SymbolId} {s : Symbol} : (ofFiles files).index.symbol id = .ok s →
    s.kind = .conversion → (ofFiles files).index.docId id = .ok ("M:".toList ++
      (dottedName (chainAround (ofFiles files).index.symbols s) ++
        '.' :: (conversionName s.name ++ conversionTail files s)))
  /-- The word is mentioned only where its letters stand in front of every word operator. -/
  mentioned (source : Text) {t : Tree} {front rest : Text} : MentionsExplicit source t →
    Tree.textIn source t = front ++ ("operator".toList ++ rest) → "explicit".toList <:+: front
  /-- Other attributes and comments make no difference where the keyword alone decides. -/
  same : SameSymbols (relocate moves files') files files'

/-- **The keyword of a conversion operator decides about its direction, as long as an implicit
conversion does not mention the word explicit.** -/
theorem conversion_direction_of_keyword (moves : Nat → Nat → Nat) (files files' : List SourceFile)
    (h : Redecorated AgreesOnConversions moves files files') :
    ConversionDirections moves files files' where
  made hs _ := by
    obtain ⟨p, hp⟩ := exists_handed_of_symbol hs
    obtain ⟨f, t, made⟩ := exists_madeBy hp
    exact ⟨p, f, t, made⟩
  name made hkind hd := by
    rw [(made.conversion hkind).2]
    exact Declaration.conversionDirection_eq_iff hd
  docId hs hkind := docId_of_conversion hs hkind
  mentioned _ _ _ _ hmentions htext := hmentions.stands_in htext
  same := h.sameSymbols AgreesOnConversions.rereads

/-- An implicit conversion operator to a type of three letters, with the given attributes in front
of its modifiers, whose first byte is given. -/
def implicitOperator (front : List Tree) (start modifiers : Nat) : Tree :=
  .named "conversion_operator_declaration" start (modifiers + 46) none
    (front ++
      [.named "modifier" modifiers (modifiers + 6) none [],
       .named "modifier" (modifiers + 7) (modifiers + 13) none [],
       .token "implicit" (modifiers + 14) (modifiers + 22),
       .token "operator" (modifiers + 23) (modifiers + 31),
       .named "predefined_type" (modifiers + 32) (modifiers + 35) (some "type") [],
       .named "parameter_list" (modifiers + 35) (modifiers + 40) (some "parameters")
        [.token "(" (modifiers + 35) (modifiers + 36),
         .named "parameter" (modifiers + 36) (modifiers + 39) none
          [.named "identifier" (modifiers + 36) (modifiers + 37) (some "type") [],
           .named "identifier" (modifiers + 38) (modifiers + 39) (some "name") []],
         .token ")" (modifiers + 39) (modifiers + 40)],
       .named "arrow_expression_clause" (modifiers + 41) (modifiers + 45) (some "body") [],
       .token ";" (modifiers + 45) (modifiers + 46)])

/-- A class with an implicit conversion. -/
def plainConversion : SourceFile :=
  classOfMember "class A \x7b public static implicit operator int(A a) => 1; \x7d"
    (implicitOperator [] 10 10)

/-- The same conversion behind an attribute. -/
def attributedConversion : SourceFile :=
  classOfMember "class A \x7b [X(\"a b\")] public static implicit operator int(A a) => 1; \x7d"
    (implicitOperator [.named "attribute_list" 10 20 none []] 10 21)

/-- The attribute may be taken out. -/
theorem conversion_direction_of_keyword_attributed :
    Redecorated AgreesOnConversions (fun _ n => if n ≤ 10 then n else n - 11)
      [attributedConversion] [plainConversion] ∧
    (ofFiles [attributedConversion]).index.docId 1 =
      .ok "M:A.op_Implicit(A)~System.Int32".toList ∧
    (ofFiles [plainConversion]).index.docId 1 =
      .ok "M:A.op_Implicit(A)~System.Int32".toList := by
  have hnodes : ∀ u ∈ attributedConversion.tree.bare.nodes,
      (u.kind ≠ "conversion_operator_declaration" → Declaration.SameWording
        (fun n => if n ≤ 10 then n else n - 11) attributedConversion.text plainConversion.text u) ∧
      (u.kind = "conversion_operator_declaration" → Declaration.SameConversion
        (fun n => if n ≤ 10 then n else n - 11) attributedConversion.text
          plainConversion.text u) := by
    decide +kernel
  have hfiles : Redecorated AgreesOnConversions (fun _ n => if n ≤ 10 then n else n - 11)
      [attributedConversion] [plainConversion] :=
    .singleton ⟨rfl, fun u hu =>
      .of_wording (hnodes u hu.mem_nodes).1 (hnodes u hu.mem_nodes).2⟩
  have hdocId : (ofFiles [attributedConversion]).index.docId 1 =
      .ok "M:A.op_Implicit(A)~System.Int32".toList := by
    decide +kernel
  refine ⟨hfiles, hdocId, ?_⟩
  rw [(conversion_direction_of_keyword _ _ _ hfiles).same.docId, hdocId]

/-- An implicit conversion operator behind an attribute that mentions the word explicit. -/
def mentioningOperator : Tree :=
  implicitOperator [.named "attribute_list" 10 34 none []] 10 35

/-- A class with an implicit conversion whose attribute mentions the other direction. -/
def mentioningConversion : SourceFile :=
  classOfMember
    "class A \x7b [X(\"not explicit here\")] public static implicit operator int(A a) => 1; \x7d"
    mentioningOperator

/-- The conversion is taken to be explicit, and without the attribute it is implicit. -/
theorem implicit_taken_for_explicit :
    directions mentioningConversion.text mentioningOperator = ["implicit".toList] ∧
    Declaration.conversionDirection mentioningConversion.text mentioningOperator =
      "explicit".toList ∧
    plainConversion.tree.bare =
      mentioningConversion.tree.bare.move (fun n => if n ≤ 10 then n else n - 25) ∧
    (ofFiles [mentioningConversion]).index.docId 1 =
      .ok "M:A.op_Explicit(A)~System.Int32".toList ∧
    (ofFiles [plainConversion]).index.docId 1 =
      .ok "M:A.op_Implicit(A)~System.Int32".toList := by
  refine ⟨by decide +kernel, by decide +kernel, rfl, by decide +kernel, by decide +kernel⟩

end Compilation

end PartialDocs
