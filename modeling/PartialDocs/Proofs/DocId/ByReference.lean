import PartialDocs.Proofs.Compilation.Asides
import PartialDocs.Proofs.DocId.FormalParameters
import PartialDocs.Proofs.Text.Words

/-!
# Parameters passed by reference

A parameter is recorded as passed by reference when one of the words in front of its type is ref,
out or in, or when its type begins with such a word.  Where blanks keep its modifiers apart from
what surrounds them, the words in front of the type are the modifiers and the words of the
stretches around them, in which attributes and comments stand (`byRef_iff`).  As long as no word of
these stretches is ref, out or in, attributes and comments make no difference
(`by_reference_of_own_modifiers`), and otherwise they are taken for modifiers
(`attribute_taken_for_modifier`).
-/

set_option autoImplicit false

namespace PartialDocs

namespace Declaration

open PartialDocs.Tree (textIn)

/-- Whether a child of a parameter is one of its modifiers. -/
def isModifierToken (t : Tree) : Bool := t.kind == "modifier" || refWords.contains t.kind.toList

/-- The modifiers of a parameter. -/
def modifierTokens (t : Tree) : List Tree := t.children.filter isModifierToken

/-- The modifiers have moved with the parameter. -/
theorem modifierTokens_move (m : Nat → Nat) (t : Tree) :
    modifierTokens (t.move m) = (modifierTokens t).map (Tree.move m) := by
  unfold modifierTokens
  rw [Tree.children_move]
  refine Tree.filter_map_move m (fun c => ?_) _
  unfold isModifierToken
  rw [Tree.kind_move]

/-! ## Nodes between two bytes -/

section

variable (source : Text) (stop : Nat)

/-- The stretches of the source around some nodes between two bytes. -/
def stretches (start : Nat) : List Tree → List Text
  | [] => [Text.slice source start stop]
  | c :: cs => Text.slice source start c.start :: stretches c.stop cs

/-- Whether some nodes between two bytes are words, which blanks keep apart from what surrounds
them. -/
def StandAlone (start : Nat) : List Tree → Prop
  | [] => (Text.slice? source start stop).isSome = true
  | c :: cs =>
    (∃ s ∈ Text.slice? source start c.start, Text.EndsBlank s) ∧
      (∃ w ∈ Text.slice? source c.start c.stop, Text.IsWord w) ∧
      Text.StartsBlank (Text.slice source c.stop stop) ∧ StandAlone c.stop cs

/-- Whether nodes stand alone can be checked from the first one on. -/
def decideStandAlone (start : Nat) : (cs : List Tree) → Decidable (StandAlone source stop start cs)
  | [] => inferInstanceAs (Decidable (_ = true))
  | c :: cs =>
    have := decideStandAlone c.stop cs
    inferInstanceAs (Decidable (_ ∧ _ ∧ _ ∧ _))

instance (start : Nat) (cs : List Tree) : Decidable (StandAlone source stop start cs) :=
  decideStandAlone source stop start cs

end

variable {source source' : Text} {start stop : Nat} {cs : List Tree} {w : Text}

/-- A slice that there is. -/
theorem slice_eq {s : Text} (h : Text.slice? source start stop = some s) :
    Text.slice source start stop = s := by
  unfold Text.slice
  rw [h, Option.getD_some]

/-- A stretch in which modifiers stand alone is a slice. -/
theorem StandAlone.exists_slice (h : StandAlone source stop start cs) :
    ∃ s, Text.slice? source start stop = some s := by
  induction cs generalizing start with
  | nil => exact Option.isSome_iff_exists.1 h
  | cons c cs ih =>
    obtain ⟨⟨s, hs, -⟩, ⟨w, hw, -⟩, -, hrest⟩ := h
    obtain ⟨rest, hslice⟩ := ih hrest
    exact ⟨s ++ (w ++ rest), Text.slice?_trans hs (Text.slice?_trans hw hslice)⟩

/-- **The words around nodes that stand alone are the nodes and the words of the stretches.** -/
theorem StandAlone.mem_words_iff (h : StandAlone source stop start cs) :
    w ∈ Text.words (Text.slice source start stop) ↔
      (∃ c ∈ cs, textIn source c = w) ∨
        ∃ s ∈ stretches source stop start cs, w ∈ Text.words s := by
  induction cs generalizing start with
  | nil => simp [stretches]
  | cons c cs ih =>
    obtain ⟨⟨s, hs, hend⟩, ⟨v, hv, hword⟩, hstart, hrest⟩ := h
    obtain ⟨rest, hslice⟩ := hrest.exists_slice
    have hwhole := slice_eq (Text.slice?_trans hs (Text.slice?_trans hv hslice))
    have htext : textIn source c = v := slice_eq hv
    rw [slice_eq hslice] at hstart
    have hwords : Text.words (Text.slice source start stop) =
        Text.words s ++ v :: Text.words (Text.slice source c.stop stop) := by
      rw [hwhole, Text.words_append_of_getLast hend, Text.words_append_of_head hstart,
        Text.words_of_isWord hword, slice_eq hslice]
      rfl
    rw [hwords, stretches, List.mem_append, List.mem_cons, ih hrest, slice_eq hs]
    simp only [List.mem_cons, exists_eq_or_imp, htext, eq_comm (a := w)]
    rw [or_assoc, or_left_comm, or_left_comm (a := w ∈ Text.words s)]

/-! ## What the record says -/

/-- Taking words from the front of a type says that it is passed by reference when there are any. -/
theorem stripRefWords_byRef (p : Parameter) :
    (stripRefWords p).byRef = true ↔
      p.byRef = true ∨ ∃ w ∈ refWords, w ++ [' '] <+: p.type := by
  unfold stripRefWords
  generalize refWords = ws
  induction ws generalizing p with
  | nil => simp
  | cons w ws ih =>
    rw [List.foldl_cons, ih]
    cases hstrip : Text.stripPrefix? (w ++ [' ']) p.type with
    | some rest =>
      have hfront : w ++ [' '] <+: p.type := ⟨rest, (Text.stripPrefix?_eq_some_iff.1 hstrip).symm⟩
      simp [hfront]
    | none =>
      have hnot : ¬ w ++ [' '] <+: p.type := by
        rintro ⟨rest, hrest⟩
        rw [← hrest, Text.stripPrefix?_append] at hstrip
        cases hstrip
      simp [hnot]

variable {t type : Tree}

/-- Whether a parameter says that it is passed by reference, in a modifier or where its type
begins. -/
def PassesByRef (source : Text) (t type : Tree) : Prop :=
  (∃ c ∈ modifierTokens t, textIn source c ∈ refWords) ∨
    ∃ w ∈ refWords, w ++ [' '] <+: spacedText source type

/-- Whether a word around the modifiers of a parameter would pass it by reference. -/
def HasStrayRefWord (source : Text) (t type : Tree) : Prop :=
  ∃ s ∈ stretches source type.start t.start (modifierTokens t), ∃ w ∈ Text.words s, w ∈ refWords

instance (source : Text) (t type : Tree) : Decidable (PassesByRef source t type) :=
  inferInstanceAs (Decidable (_ ∨ _))

instance (source : Text) (t type : Tree) : Decidable (HasStrayRefWord source t type) :=
  inferInstanceAs (Decidable (∃ s ∈ _, ∃ w ∈ _, _))

/-- Whether the modifiers of a parameter stand alone in front of its type. -/
def ModifiersStandAlone (source : Text) (t type : Tree) : Prop :=
  StandAlone source type.start t.start (modifierTokens t)

instance (source : Text) (t type : Tree) : Decidable (ModifiersStandAlone source t type) :=
  inferInstanceAs (Decidable (StandAlone ..))

/-- Among words that stand alone, the modifiers and the stray words count. -/
theorem any_words_iff (alone : ModifiersStandAlone source t type) :
    (Text.words (Text.slice source t.start type.start)).any refWords.contains = true ↔
      (∃ c ∈ modifierTokens t, textIn source c ∈ refWords) ∨ HasStrayRefWord source t type := by
  have hmem : ∀ w, w ∈ Text.words (Text.slice source t.start type.start) ↔ _ :=
    fun w => alone.mem_words_iff
  simp only [List.any_eq_true, List.contains_iff_mem, hmem]
  constructor
  · rintro ⟨w, ⟨c, hc, rfl⟩ | ⟨s, hs, hw⟩, href⟩
    · exact .inl ⟨c, hc, href⟩
    · exact .inr ⟨s, hs, w, hw, href⟩
  · rintro (⟨c, hc, href⟩ | ⟨s, hs, w, hw, href⟩)
    · exact ⟨_, .inl ⟨c, hc, rfl⟩, href⟩
    · exact ⟨w, .inr ⟨s, hs, hw⟩, href⟩

/-- **A parameter whose modifiers stand alone is recorded as passed by reference when it says so,
or when a stray word does.** -/
theorem byRef_iff (htype : t.childByField? "type" = some type)
    (alone : ModifiersStandAlone source t type) :
    (parameterOf source t).byRef = true ↔
      PassesByRef source t type ∨ HasStrayRefWord source t type := by
  unfold parameterOf
  rw [htype, stripRefWords_byRef, any_words_iff alone]
  exact or_right_comm

/-! ## The same parameter elsewhere -/

/-- Whether the modifiers of a parameter stand alone and no stray word is one of them. -/
def ClearFront (source : Text) (t : Tree) : Prop :=
  ∀ type ∈ t.childByField? "type",
    ModifiersStandAlone source t type ∧ ¬ HasStrayRefWord source t type

instance (source : Text) (t : Tree) : Decidable (ClearFront source t) :=
  inferInstanceAs (Decidable (∀ type ∈ _, _))

/-- Whether a parameter has in another text, where its bytes have moved, the modifiers and the type
that it had, whatever else stands in front of the type. -/
@[mk_iff]
structure SameParameter (m : Nat → Nat) (source source' : Text) (t : Tree) : Prop where
  modifier : ∀ c ∈ modifierTokens t,
    Text.slice? source' (m c.start) (m c.stop) = Text.slice? source c.start c.stop
  type : ∀ c ∈ t.childByField? "type", spacedText source' (c.move m) = spacedText source c
  clear : ClearFront source t
  clear' : ClearFront source' (t.move m)

variable {m : Nat → Nat}

instance : Decidable (SameParameter m source source' t) :=
  decidable_of_iff' _ (sameParameter_iff m source source' t)

/-- A parameter with the same modifiers and type is passed as before. -/
theorem SameParameter.parameterOf_eq (h : SameParameter m source source' t) :
    parameterOf source' (t.move m) = parameterOf source t := by
  unfold parameterOf
  rw [Tree.childByField?_move]
  cases htype : t.childByField? "type" with
  | none => rfl
  | some type =>
    obtain ⟨alone, hclear⟩ := h.clear type htype
    obtain ⟨alone', hclear'⟩ := h.clear' (type.move m) (by rw [Tree.childByField?_move, htype]; rfl)
    have hmodifiers : ∀ c ∈ modifierTokens t, textIn source' (c.move m) = textIn source c := by
      intro c hc
      unfold textIn Text.slice
      rw [Tree.start_move, Tree.stop_move, h.modifier c hc]
    -- in front of either type the modifiers are all that counts
    have hwords : (Text.words (Text.slice source' (t.move m).start (type.move m).start)).any
        refWords.contains = (Text.words (Text.slice source t.start type.start)).any
          refWords.contains := by
      rw [Bool.eq_iff_iff, any_words_iff alone', any_words_iff alone, or_iff_left hclear',
        or_iff_left hclear, modifierTokens_move]
      simp only [List.mem_map, exists_exists_and_eq_and]
      exact exists_congr fun c => and_congr_right fun hc => by rw [hmodifiers c hc]
    simp only [Option.map_some]
    rw [h.type type htype, hwords]

/-- A parameter with the same modifiers and type says what it said. -/
theorem SameParameter.rereads (h : SameParameter m source source' t) (kind : t.kind = "parameter") :
    Rereads .same m source source' t where
  modifier c hc hkind := h.modifier c (List.mem_filter.2 ⟨hc, by simp [isModifierToken, hkind]⟩)
  name hname := by
    rw [kind] at hname
    cases hname
  member k hk := by
    rw [kind] at hk
    cases hk
  typeParameter hkind := by
    rw [kind] at hkind
    exact absurd hkind (by decide)
  parameter _ := h.parameterOf_eq.symm
  target hkind := by
    rw [kind] at hkind
    exact absurd hkind (by decide)

/-- Whether a node says in another text what it said, a parameter by its own modifiers and type. -/
def AgreesOnParameters (m : Nat → Nat) (source source' : Text) (t : Tree) : Prop :=
  if t.kind = "parameter" then SameParameter m source source' t
  else Rereads .same m source source' t

/-- A node agrees when the stretches of the text off which it is read are the same, of a parameter
its modifiers and its type. -/
theorem AgreesOnParameters.of_wording
    (other : t.kind ≠ "parameter" → SameWording m source source' t)
    (own : t.kind = "parameter" → SameParameter m source source' t) :
    AgreesOnParameters m source source' t := by
  unfold AgreesOnParameters
  split
  · exact own ‹_›
  · exact (other ‹_›).rereads

/-- A node that agrees says what it said. -/
theorem AgreesOnParameters.rereads (h : AgreesOnParameters m source source' t) :
    Rereads .same m source source' t := by
  unfold AgreesOnParameters at h
  split at h
  · rename_i kind
    exact h.rereads kind
  · exact h

end Declaration

namespace Compilation

open Declaration (takesParameters parametersOf parameterOf PassesByRef HasStrayRefWord
  ModifiersStandAlone AgreesOnParameters)

/-- What tells parameters that are passed by reference from others. -/
structure ByReference (moves : Nat → Nat → Nat) (files files' : List SourceFile) : Prop where
  /-- A declaration has the parameters that its node records. -/
  recorded : ∀ x ∈ handed files, takesParameters x.1.kind = true →
    ∃ f t, MadeBy files x f t ∧ x.1.parameters = parametersOf f.text t
  /-- Among words that stand alone, the modifiers of a parameter and those around them count. -/
  flag (source : Text) {t type : Tree} : t.childByField? "type" = some type →
    ModifiersStandAlone source t type →
    ((parameterOf source t).byRef = true ↔
      PassesByRef source t type ∨ HasStrayRefWord source t type)
  /-- The record is what the parameter says itself exactly where no stray word adds to it. -/
  own (source : Text) {t type : Tree} : t.childByField? "type" = some type →
    ModifiersStandAlone source t type →
    (((parameterOf source t).byRef = true ↔ PassesByRef source t type) ↔
      (HasStrayRefWord source t type → PassesByRef source t type))
  /-- Other attributes and comments make no difference where no stray word does. -/
  same : SameSymbols (relocate moves files') files files'

/-- **Attributes and comments do not matter to how parameters are passed, as long as modifiers
stand alone and no other word in front of a type is one of them.** -/
theorem by_reference_of_own_modifiers (moves : Nat → Nat → Nat) (files files' : List SourceFile)
    (h : Redecorated AgreesOnParameters moves files files') : ByReference moves files files' where
  recorded x hx takes := by
    obtain ⟨f, t, made⟩ := exists_madeBy hx
    exact ⟨f, t, made, made.parameters_eq takes⟩
  flag _ _ _ htype alone := Declaration.byRef_iff htype alone
  own _ _ _ htype alone := by
    rw [Declaration.byRef_iff htype alone]
    exact or_iff_left_iff_imp
  same := h.sameSymbols AgreesOnParameters.rereads

/-- A class with one method, whose parameter list ends at the given byte. -/
def classOfMethod (text : String) (close : Nat) (parameters : List Tree) : SourceFile :=
  classOfMember text (overload 10 close parameters)

/-- A parameter with a name of one letter, whose type is a keyword of three. -/
def intParameter (start type : Nat) (front : List Tree) : Tree :=
  .named "parameter" start (type + 5) none
    (front ++ [.named "predefined_type" type (type + 3) (some "type") [],
      .named "identifier" (type + 4) (type + 5) (some "name") []])

/-- A method with a parameter that is passed by reference and another one. -/
def plainParameters : SourceFile :=
  classOfMethod "class A \x7b void M(ref int x, int y) \x7b \x7d \x7d" 33
    [intParameter 17 21 [.named "modifier" 17 20 none []], .token "," 26 27, intParameter 28 28 []]

/-- The same parameters behind an attribute and a comment. -/
def decoratedParameters : SourceFile :=
  classOfMethod "class A \x7b void M([X(\"a b\")] ref int x, /* c */ int y) \x7b \x7d \x7d" 52
    [intParameter 17 32 [.named "attribute_list" 17 27 none [], .named "modifier" 28 31 none []],
     .token "," 37 38, .named "comment" 39 46 none [], intParameter 47 47 []]

/-- Where a byte stands when the attribute and the comment are taken out. -/
def withoutAsides (n : Nat) : Nat := if n ≤ 17 then n else if n ≤ 38 then n - 11 else n - 19

/-- The attribute and the comment may be taken out. -/
theorem by_reference_of_own_modifiers_decorated :
    Redecorated AgreesOnParameters (fun _ => withoutAsides) [decoratedParameters]
      [plainParameters] ∧
    (ofFiles [plainParameters]).index.docId 1 = .ok "M:A.M(System.Int32@,System.Int32)".toList ∧
    (ofFiles [decoratedParameters]).index.docId 1 =
      .ok "M:A.M(System.Int32@,System.Int32)".toList := by
  have hnodes : ∀ u ∈ decoratedParameters.tree.bare.nodes,
      (u.kind ≠ "parameter" → Declaration.SameWording withoutAsides decoratedParameters.text
        plainParameters.text u) ∧
      (u.kind = "parameter" → Declaration.SameParameter withoutAsides decoratedParameters.text
        plainParameters.text u) := by
    decide +kernel
  have hfiles : Redecorated AgreesOnParameters (fun _ => withoutAsides) [decoratedParameters]
      [plainParameters] :=
    .singleton ⟨rfl, fun u hu =>
      .of_wording (hnodes u hu.mem_nodes).1 (hnodes u hu.mem_nodes).2⟩
  have hdocId : (ofFiles [decoratedParameters]).index.docId 1 =
      .ok "M:A.M(System.Int32@,System.Int32)".toList := by
    decide +kernel
  refine ⟨hfiles, ?_, hdocId⟩
  rw [(by_reference_of_own_modifiers _ _ _ hfiles).same.docId, hdocId]

/-- A parameter behind an attribute whose argument holds the word ref. -/
def attributedParameter : Tree := intParameter 17 32 [.named "attribute_list" 17 31 none []]

/-- The method with this parameter. -/
def attributedMethod : SourceFile :=
  classOfMethod "class A \x7b void M([X(\"a ref b\")] int x) \x7b \x7d \x7d" 37
    [attributedParameter]

/-- The method with the parameter without its attribute. -/
def unattributedMethod : SourceFile :=
  classOfMethod "class A \x7b void M(int x) \x7b \x7d \x7d" 22 [intParameter 17 17 []]

/-- The word of the attribute is taken for a modifier, so that the documentation ID is another one
without the attribute. -/
theorem attribute_taken_for_modifier :
    (∃ type ∈ attributedParameter.childByField? "type",
      ¬ PassesByRef attributedMethod.text attributedParameter type) ∧
    parameterOf attributedMethod.text attributedParameter = ⟨"int".toList, true⟩ ∧
    unattributedMethod.tree.bare =
      attributedMethod.tree.bare.move (fun n => if n ≤ 17 then n else n - 15) ∧
    (ofFiles [attributedMethod]).index.docId 1 = .ok "M:A.M(System.Int32@)".toList ∧
    (ofFiles [unattributedMethod]).index.docId 1 = .ok "M:A.M(System.Int32)".toList := by
  refine ⟨by decide +kernel, by decide +kernel, rfl, by decide +kernel, by decide +kernel⟩

end Compilation

end PartialDocs
