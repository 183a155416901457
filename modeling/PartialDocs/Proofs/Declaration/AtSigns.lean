import PartialDocs.Proofs.Declaration.Wording
import PartialDocs.Proofs.TypeRef.Spacing
import PartialDocs.Proofs.TypeRef.VerbatimPrefix

/-!
# Declarations with at signs in front of words

A declaration keeps its meaning when at signs are written in front of words of its types, and in
front of type parameters to which none of these types refers (`Likeness.verbatim`).  That a node is
such a declaration in another text is told by the stretches off which it is read (`EscapedWording`).
Where at signs are written into a text itself, it is told by the bytes in front of which they are
written (`TakesAtSigns`).
-/

set_option autoImplicit false

namespace PartialDocs

/-- Whether a type is another one with at signs in front of words, none of which is a chosen one. -/
structure EscapedType (chosen : Text → Prop) (type type' : Text) : Prop where
  prefixed : TypeRef.PrefixedText type type'
  /-- What has at signs can still be read. -/
  read : type' ≠ type → (TypeRef.ofText? type').isSome = true
  unchosen : ∀ t ∈ TypeRef.ofText? type', ∀ w ∈ t.words, ¬ chosen w

/-- Whether a parameter is another one with at signs in front of words of its type. -/
structure EscapedParameter (chosen : Text → Prop) (p p' : Parameter) : Prop where
  byRef : p'.byRef = p.byRef
  type : EscapedType chosen p.type p'.type

/-- Declarations are alike but for at signs in front of the declared names of chosen type parameters
and of words in types that do not refer to them. -/
def Likeness.verbatim (chosen : Text → Prop) : Likeness :=
  ⟨DeclaredAs chosen, EscapedParameter chosen, EscapedType chosen⟩

variable {chosen : Text → Prop}

/-! ## Spacing -/

/-- Spacing does not tell types with at signs from the types without. -/
theorem EscapedType.respace {s s' : Text} (h : EscapedType chosen s s') :
    EscapedType chosen (TypeText.respace s) (TypeText.respace s') where
  prefixed := by
    unfold TypeRef.PrefixedText TypeText.respace
    rw [TypeText.ofText_respaceAfter, TypeText.ofText_respaceAfter]
    exact h.prefixed
  read hne := by
    rw [TypeText.ofText?_respace]
    apply h.read
    rintro rfl
    exact hne rfl
  unchosen := by
    rw [TypeText.ofText?_respace]
    exact h.unchosen

/-- A type that is as it was has no further at signs. -/
theorem EscapedType.refl {s : Text}
    (unchosen : ∀ t ∈ TypeRef.ofText? s, ∀ w ∈ t.words, ¬ chosen w) : EscapedType chosen s s where
  prefixed := List.forall₂_same.2 fun token _ => .same token
  read hne := absurd rfl hne
  unchosen := unchosen

/-- An at sign in front of a word is not spaced from it. -/
theorem respace_at_cons {c : Char} (hc : isIdentifierChar c = true) (s : Text) :
    TypeText.respace ('@' :: c :: s) = '@' :: TypeText.respace (c :: s) := by
  have hblank : isBlankChar c = false := by
    rw [Bool.eq_false_iff]
    intro hblank
    rw [isIdentifierChar_of_isBlankChar hblank] at hc
    cases hc
  have hat : isBlankChar '@' = false := by decide +kernel
  simp [TypeText.respace, TypeText.respaceAfter, hblank, hat]

namespace Declaration

open PartialDocs.Tree (textIn)
open TypeRef (PrefixedText)

/-- Whether a type does not begin with a word that passes by reference. -/
def BeginsPlain (type : Text) : Prop :=
  ∀ token ∈ (TypeToken.ofText type).head?, ∀ w ∈ refWords, token ≠ .word w

instance (type : Text) : Decidable (BeginsPlain type) :=
  inferInstanceAs (Decidable (∀ token ∈ (TypeToken.ofText type).head?, _))

/-- At signs make no word that passes by reference. -/
theorem BeginsPlain.of_prefixed {type type' : Text} (h : BeginsPlain type)
    (hprefixed : PrefixedText type type') : BeginsPlain type' := by
  intro token htoken w hw heq
  subst heq
  unfold PrefixedText at hprefixed
  cases htokens : TypeToken.ofText type' with
  | nil =>
    rw [htokens] at htoken
    cases htoken
  | cons first rest =>
    rw [htokens] at htoken hprefixed
    cases htoken
    obtain ⟨first, _, hfirst, _, htype⟩ := List.forall₂_cons_right_iff.1 hprefixed
    refine h _ ?_ w hw hfirst.eq_word
    rw [htype]
    rfl

/-- Spacing makes none either. -/
theorem BeginsPlain.respace {type : Text} (h : BeginsPlain type) :
    BeginsPlain (TypeText.respace type) := by
  unfold BeginsPlain TypeText.respace
  rw [TypeText.ofText_respaceAfter]
  exact h

/-- Where no word stands in front of a type, none is taken away. -/
theorem stripRefWords_of_plain {p : Parameter} (h : BeginsPlain p.type) : stripRefWords p = p := by
  have hstrip : ∀ w ∈ refWords, Text.stripPrefix? (w ++ [' ']) p.type = none := by
    intro w hw
    have hidentifier : ∀ v ∈ refWords, IsIdentifier v := by decide +kernel
    rw [Option.eq_none_iff_forall_ne_some]
    intro rest hrest
    rw [Text.stripPrefix?_eq_some_iff, List.append_assoc] at hrest
    refine h (.word w) ?_ w hw rfl
    have hspace : TypeToken.startsWord ([' '] ++ rest) = false :=
      (by decide +kernel : isIdentifierChar ' ' = false)
    rw [hrest, TypeToken.ofText_word (hidentifier w hw) hspace]
    rfl
  unfold stripRefWords
  generalize refWords = ws at hstrip
  induction ws with
  | nil => rfl
  | cons w ws ih =>
    obtain ⟨hw, hws⟩ := List.forall_mem_cons.1 hstrip
    rw [List.foldl_cons, hw]
    exact ih hws

/-! ## The stretches of a declaration -/

/-- Whether the stretches of a text off which a node is read stand in another text as they did, but
for at signs in front of words of types and of chosen type parameters. -/
structure EscapedWording (chosen : Text → Prop) (m : Nat → Nat) (source source' : Text)
    (t : Tree) : Prop where
  head : SameHead m source source' t
  typeParameter : t.kind = "type_parameter" → ∀ c ∈ t.childByFieldOrKind? "name" "identifier",
    DeclaredAs chosen (spacedText source c) (spacedText source' (c.move m))
  parameter : t.kind = "parameter" → ∀ c ∈ t.childByField? "type",
    Kept m source source' t.start c.start ∧ BeginsPlain (textIn source c) ∧
      EscapedType chosen (textIn source c) (textIn source' (c.move m))
  target : t.kind = "conversion_operator_declaration" → ∀ c ∈ t.childByField? "type",
    EscapedType chosen (textIn source c) (textIn source' (c.move m))

variable {m : Nat → Nat} {source source' : Text} {t c : Tree}

/-- **A node says in another text what it said, but for at signs in front of words of types and of
chosen type parameters.** -/
theorem EscapedWording.rereads (h : EscapedWording chosen m source source' t) :
    Rereads (.verbatim chosen) m source source' t := by
  refine h.head.rereads ?_ ?_ ?_
  · intro kind
    have hname := h.typeParameter kind
    change DeclaredAs chosen _ _
    unfold nameOf
    rw [Tree.childByFieldOrKind?_move]
    cases hnode : t.childByFieldOrKind? "name" "identifier" with
    | none => exact .inl rfl
    | some c => exact hname c hnode
  · intro kind
    have hparameter := parameterOf_of_front fun c hc => (h.parameter kind c hc).1
    change EscapedParameter chosen _ _
    rw [hparameter]
    unfold parameterOf
    cases htype : t.childByField? "type" with
    | none =>
      have hunread : TypeRef.ofText? [] = none := by decide +kernel
      exact ⟨rfl, .refl fun t ht => by
        rw [hunread] at ht
        cases ht⟩
    | some c =>
      obtain ⟨-, hplain, hescaped⟩ := h.parameter kind c htype
      simp only
      rw [stripRefWords_of_plain hplain.respace,
        stripRefWords_of_plain (hplain.of_prefixed hescaped.prefixed).respace]
      exact ⟨rfl, hescaped.respace⟩
  · intro kind c hc
    exact (h.target kind c hc).respace

/-! ## At signs written into the text -/

open Text (withAtSigns WordAt Untouched)

/-- Whether at signs may be written into a type in front of the chosen bytes: the type can still be
read then, and it does not refer to a chosen type parameter. -/
@[mk_iff]
structure TypeTakesAtSigns (chosen : Text → Prop) (bytes : List Nat) (source : Text) (c : Tree) :
    Prop where
  stretch : (Text.slice? source c.start c.stop).isSome = true
  read : (∃ b ∈ bytes, c.start ≤ b ∧ b < c.stop) →
    (TypeRef.ofText? (withAtSigns bytes c.start (textIn source c))).isSome = true
  unchosen : ∀ t ∈ TypeRef.ofText? (textIn source c), ∀ w ∈ t.words, ¬ chosen w

/-- Whether at signs in front of the chosen bytes stand only in front of words of types and of
chosen type parameters, as far as a node is concerned. -/
@[mk_iff]
structure TakesAtSigns (chosen : Text → Prop) (bytes : List Nat) (source : Text) (t : Tree) :
    Prop where
  modifier : ∀ c ∈ t.children, c.kind = "modifier" → Untouched bytes source c.start c.stop
  name : t.kind ≠ "type_parameter" → ∀ c ∈ t.childByFieldOrKind? "name" "identifier",
    Untouched bytes source c.start c.stop
  interface : ∀ c ∈ t.childOfKind? "explicit_interface_specifier",
    Untouched bytes source c.start c.stop
  operator : t.kind = "operator_declaration" → ∀ c ∈ operatorNode? t,
    Untouched bytes source c.start c.stop
  /-- The words in front of the word operator stay. -/
  conversion : t.kind = "conversion_operator_declaration" →
    (Text.slice? source t.start t.stop).isSome = true ∧
      Text.beforeFirst "operator".toList (withAtSigns bytes t.start (textIn source t)) =
        Text.beforeFirst "operator".toList (textIn source t)
  typeParameter : t.kind = "type_parameter" → ∀ c ∈ t.childByFieldOrKind? "name" "identifier",
    (Text.slice? source c.start c.stop).isSome = true ∧
      ∀ b ∈ bytes, c.start ≤ b → b < c.stop → b = c.start ∧ chosen (spacedText source c)
  parameter : t.kind = "parameter" → ∀ c ∈ t.childByField? "type",
    Untouched bytes source t.start c.start ∧ BeginsPlain (textIn source c) ∧
      TypeTakesAtSigns chosen bytes source c
  target : t.kind = "conversion_operator_declaration" → ∀ c ∈ t.childByField? "type",
    TypeTakesAtSigns chosen bytes source c

instance [DecidablePred chosen] (bytes : List Nat) :
    Decidable (TypeTakesAtSigns chosen bytes source c) :=
  decidable_of_iff' _ (typeTakesAtSigns_iff chosen bytes source c)

instance [DecidablePred chosen] (bytes : List Nat) :
    Decidable (TakesAtSigns chosen bytes source t) :=
  decidable_of_iff' _ (takesAtSigns_iff chosen bytes source t)

/-- The text of a node that stands in the source, and how long it is. -/
theorem slice?_textIn (h : (Text.slice? source c.start c.stop).isSome = true) :
    Text.slice? source c.start c.stop = some (textIn source c) ∧
      c.stop = c.start + Text.byteLength (textIn source c) := by
  obtain ⟨s, hs⟩ := Option.isSome_iff_exists.1 h
  have htext : textIn source c = s := by
    unfold textIn Text.slice
    rw [hs, Option.getD_some]
  obtain ⟨before, after, -, hstart, hstop⟩ := Text.slice?_eq_some hs
  rw [htext]
  exact ⟨hs, by omega⟩

section

variable {bytes : List Nat} (nodup : bytes.Nodup) (words : ∀ b ∈ bytes, WordAt source b)

include nodup words

/-- What holds no chosen byte is kept. -/
theorem kept_of_untouched {start stop : Nat} (h : Untouched bytes source start stop) :
    Kept (behindAtSigns bytes) source (withAtSigns bytes 0 source) start stop :=
  h.slice?_eq nodup (Text.begins_of_wordAt words)

/-- A node has got its own at signs. -/
theorem textIn_withAtSigns (h : (Text.slice? source c.start c.stop).isSome = true) :
    textIn (withAtSigns bytes 0 source) (c.move (behindAtSigns bytes)) =
      withAtSigns bytes c.start (textIn source c) := by
  have hslice := Text.slice?_withAtSigns nodup (Text.begins_of_wordAt words) (slice?_textIn h).1
  unfold textIn Text.slice at hslice ⊢
  rw [Tree.start_move, Tree.stop_move, hslice, Option.getD_some]

/-- A type has got at signs in front of its words. -/
theorem TypeTakesAtSigns.escaped (h : TypeTakesAtSigns chosen bytes source c) :
    EscapedType chosen (textIn source c)
      (textIn (withAtSigns bytes 0 source) (c.move (behindAtSigns bytes))) := by
  rw [textIn_withAtSigns nodup words h.stretch]
  obtain ⟨hslice, hstop⟩ := slice?_textIn h.stretch
  have hprefixed := TypeRef.prefixedText_withAtSigns (Text.wordAt_of_slice? hslice words)
  refine ⟨hprefixed, fun hne => h.read ?_, fun t ht => h.unchosen t (hprefixed.ofText?_eq ht)⟩
  by_contra hnone
  refine hne (Text.withAtSigns_of_clear fun b hb => ?_)
  rw [← hstop]
  by_contra hwithin
  rw [not_or, not_lt, not_le] at hwithin
  exact hnone ⟨b, hb, hwithin⟩

/-- A type parameter has got an at sign if it is chosen. -/
theorem declaredAs_withAtSigns (stretch : (Text.slice? source c.start c.stop).isSome = true)
    (name : ∀ b ∈ bytes, c.start ≤ b → b < c.stop → b = c.start ∧ chosen (spacedText source c)) :
    DeclaredAs chosen (spacedText source c)
      (spacedText (withAtSigns bytes 0 source) (c.move (behindAtSigns bytes))) := by
  obtain ⟨hslice, hstop⟩ := slice?_textIn stretch
  have hword := Text.wordAt_of_slice? hslice words c.start
  unfold spacedText at name ⊢
  rw [textIn_withAtSigns nodup words stretch]
  generalize textIn source c = s at name hword hstop ⊢
  by_cases hmem : c.start ∈ bytes ∧ c.start < c.stop
  · obtain ⟨hstart, hlt⟩ := hmem
    obtain ⟨x, hx, ⟨d, hd, hidentifier⟩, -⟩ := hword hstart le_rfl (by omega)
    rw [Nat.sub_self] at hx
    cases s with
    | nil =>
      cases hx
      cases hd
    | cons e s =>
      cases hx
      cases hd
      rw [Text.byteLength_cons] at hstop
      have hpos := d.utf8Size_pos
      have hclear : ∀ b ∈ bytes,
          b < c.start + d.utf8Size ∨ c.start + d.utf8Size + Text.byteLength s ≤ b := by
        intro b hb
        have hfirst := name b hb
        omega
      rw [Text.withAtSigns_cons_of_clear hclear, if_pos hstart, respace_at_cons hidentifier]
      exact .inr ⟨(name _ hstart le_rfl hlt).2, rfl⟩
  · have hclear : withAtSigns bytes c.start s = s := by
      refine Text.withAtSigns_of_clear fun b hb => ?_
      by_contra hwithin
      rw [not_or, not_lt, not_le, ← hstop] at hwithin
      obtain ⟨rfl, -⟩ := name b hb hwithin.1 hwithin.2
      exact hmem ⟨hb, hwithin.2⟩
    rw [hclear]
    exact .inl rfl

/-- **A node has got at signs in front of words of types and of chosen type parameters where they
were written.** -/
theorem TakesAtSigns.escapedWording (h : TakesAtSigns chosen bytes source t) :
    EscapedWording chosen (behindAtSigns bytes) source (withAtSigns bytes 0 source) t where
  head :=
    { modifier := fun c hc hkind => kept_of_untouched nodup words (h.modifier c hc hkind)
      name := fun hkind c hc => kept_of_untouched nodup words (h.name hkind c hc)
      interface := fun c hc => kept_of_untouched nodup words (h.interface c hc)
      operator := fun hkind c hc => kept_of_untouched nodup words (h.operator hkind c hc)
      conversion := by
        intro hkind
        obtain ⟨hstretch, hhead⟩ := h.conversion hkind
        have hwhole := textIn_withAtSigns nodup words hstretch
        unfold textIn at hwhole hhead
        rw [Tree.start_move, Tree.stop_move] at hwhole
        rw [hwhole, hhead] }
  typeParameter hkind c hc :=
    declaredAs_withAtSigns nodup words (h.typeParameter hkind c hc).1 (h.typeParameter hkind c hc).2
  parameter hkind c hc := by
    obtain ⟨hfront, hplain, htype⟩ := h.parameter hkind c hc
    exact ⟨kept_of_untouched nodup words hfront, hplain, htype.escaped nodup words⟩
  target hkind c hc := (h.target hkind c hc).escaped nodup words

end

end Declaration

end PartialDocs
