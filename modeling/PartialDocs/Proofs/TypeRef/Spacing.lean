import Mathlib.Logic.Relation
import PartialDocs.Proofs.TypeRef.Tokens
import PartialDocs.TypeRef.Encoding
import PartialDocs.TypeRef.Spacing

/-!
# Blanks in a type as written

Blanks may be put in or left out at the ends of a type and beside its marks, and any other run of
blanks may be exchanged for another one.  Texts that differ in this way only are `SpacedAlike`, and
`respace` picks one text among them (`spacedAlike_iff`).  The reader finds the same tokens in all of
them (`ofText_respaceAfter`), so that a type that is read has one spelling however it is spaced
(`spacing_ignored`).
-/

set_option autoImplicit false

namespace PartialDocs.TypeText

open TypeToken (ofText startsWord)

/-! ## Marks -/

/-- A mark is neither blank nor part of a word. -/
theorem mark_facts {c : Char} (hc : isMark c = true) :
    isBlankChar c = false ∧ isIdentifierChar c = false ∧ c ≠ '@' := by
  have hall : "<>,[]()?*.:".toList.all
      (fun d => !isBlankChar d && !isIdentifierChar d && d != '@') = true := by
    decide +kernel
  have hmem : c ∈ "<>,[]()?*.:".toList := List.contains_iff_mem.1 hc
  have hfacts := List.all_eq_true.1 hall c hmem
  simpa [and_assoc] using hfacts

/-- Whether a blank between two texts carries no meaning: one of them has an end or a mark there. -/
def Loose (a b : Text) : Prop :=
  (∀ c ∈ a.getLast?, isMark c = true) ∨ ∀ c ∈ b.head?, isMark c = true

/-- One change of spacing: a run of blanks becomes another one, or blanks without meaning go. -/
inductive Respaces : Text → Text → Prop
  | exchange (a b : Text) {g h : Text} : g ≠ [] → h ≠ [] → Text.isBlank g = true →
      Text.isBlank h = true → Respaces (a ++ (g ++ b)) (a ++ (h ++ b))
  | drop {a b : Text} {g : Text} : Text.isBlank g = true → Loose a b →
      Respaces (a ++ (g ++ b)) (a ++ b)

/-- Texts that differ in spacing only. -/
def SpacedAlike (s t : Text) : Prop := Relation.EqvGen Respaces s t

variable {s t : Text}

/-! ## One text among those spaced alike -/

section Normal

variable {last : Option Char} {gap : Bool}

/-- Blanks are only a gap. -/
theorem respaceAfter_blanks {g : Text} (hne : g ≠ []) (hg : Text.isBlank g = true) (s : Text) :
    respaceAfter last gap (g ++ s) = respaceAfter last true s := by
  induction g generalizing gap with
  | nil => exact absurd rfl hne
  | cons c g ih =>
    rw [Text.isBlank, List.all_cons, Bool.and_eq_true] at hg
    rw [List.cons_append, respaceAfter, if_pos hg.1]
    cases g with
    | nil => rfl
    | cons d g => exact ih (List.cons_ne_nil d g) hg.2

/-- A mark is written without a space in front. -/
theorem respaceAfter_mark {c : Char} (hc : isMark c = true) (s : Text) :
    respaceAfter last gap (c :: s) = c :: respaceAfter (some c) false s := by
  simp [respaceAfter, hc, (mark_facts hc).1]

/-- Behind an end or a mark it does not matter whether blanks came before. -/
theorem respaceAfter_of_last (hlast : ∀ c ∈ last, isMark c = true) (gap' : Bool) (s : Text) :
    respaceAfter last gap s = respaceAfter last gap' s := by
  have hnone : (last.any fun p => !isMark p) = false := by
    cases last with
    | none => rfl
    | some c => simp [hlast c rfl]
  cases s with
  | nil => rfl
  | cons c s => simp [respaceAfter, hnone]

/-- Neither does it before an end or a mark. -/
theorem respaceAfter_of_head (hs : ∀ c ∈ s.head?, isMark c = true) (gap' : Bool) :
    respaceAfter last gap s = respaceAfter last gap' s := by
  cases s with
  | nil => rfl
  | cons c s => rw [respaceAfter_mark (hs c rfl), respaceAfter_mark (hs c rfl)]

/-- What is spaced alike is spaced alike behind anything. -/
theorem respaceAfter_congr {x y : Text}
    (h : ∀ last gap, respaceAfter last gap x = respaceAfter last gap y) (a : Text) :
    respaceAfter last gap (a ++ x) = respaceAfter last gap (a ++ y) := by
  induction a generalizing last gap with
  | nil => exact h last gap
  | cons c a ih =>
    rw [List.cons_append, List.cons_append, respaceAfter, respaceAfter]
    split
    · exact ih
    · split <;> rw [ih]

end Normal

/-- A single change of the spacing leaves the text as it is spaced. -/
theorem Respaces.respace_eq (h : Respaces s t) : respace s = respace t := by
  cases h with
  | exchange a b hg hh hgap hgap' =>
    refine respaceAfter_congr (fun last gap => ?_) a
    rw [respaceAfter_blanks hg hgap, respaceAfter_blanks hh hgap']
  | @drop a b g hgap hloose =>
    by_cases hg : g = []
    · rw [hg, List.nil_append]
    rcases hloose with hlast | hhead
    · -- the blanks stand behind an end or behind a mark
      rcases List.eq_nil_or_concat' a with rfl | ⟨a, c, rfl⟩
      · unfold respace
        rw [List.nil_append, List.nil_append, respaceAfter_blanks hg hgap]
        exact respaceAfter_of_last (by simp) _ _
      · have hc : isMark c = true := hlast c List.getLast?_concat
        have hlast' : ∀ d ∈ some c, isMark d = true := by
          rintro d ⟨⟩
          exact hc
        rw [List.append_assoc, List.append_assoc]
        refine respaceAfter_congr (fun last gap => ?_) a
        rw [List.singleton_append, List.singleton_append, respaceAfter_mark hc,
          respaceAfter_mark hc, respaceAfter_blanks hg hgap, respaceAfter_of_last hlast' false]
    · refine respaceAfter_congr (fun last gap => ?_) a
      rw [respaceAfter_blanks hg hgap, respaceAfter_of_head hhead]

/-- Texts that differ in spacing only are the same once they are respaced. -/
theorem SpacedAlike.respace_eq (h : SpacedAlike s t) : respace s = respace t := by
  induction h with
  | rel s t h => exact h.respace_eq
  | refl s => rfl
  | symm s t _ ih => exact ih.symm
  | trans s t u _ _ ih ih' => exact ih.trans ih'

/-- What is written so far, the blanks behind it and the rest are spaced like what is written in
the end. -/
theorem spacedAlike_respaceAfter (written g s : Text) (hg : Text.isBlank g = true) :
    SpacedAlike (written ++ (g ++ s))
      (written ++ respaceAfter written.getLast? (!g.isEmpty) s) := by
  induction s generalizing written g with
  | nil => exact .rel _ _ (.drop hg (.inr (by simp)))
  | cons c s ih =>
    rw [respaceAfter]
    split
    · rename_i hc
      -- one blank more
      have hgap : Text.isBlank (g ++ [c]) = true := by
        rw [Text.isBlank, List.all_append, Bool.and_eq_true]
        exact ⟨hg, by simpa using hc⟩
      have hmore := ih written (g ++ [c]) hgap
      have hsome : (!(g ++ [c]).isEmpty) = true := by simp
      rwa [hsome, List.append_assoc, List.singleton_append] at hmore
    · split
      · rename_i hkept
        rw [Bool.and_eq_true, Bool.and_eq_true, Bool.not_eq_true', List.isEmpty_eq_false_iff]
          at hkept
        have hone : Respaces (written ++ (g ++ c :: s)) (written ++ ([' '] ++ c :: s)) :=
          .exchange _ _ hkept.1.1 (List.cons_ne_nil _ _) hg rfl
        have hrest := ih (written ++ [' ', c]) [] rfl
        simp only [List.append_assoc, List.cons_append, List.nil_append, List.isEmpty_nil,
          Bool.not_true, List.getLast?_append, List.getLast?_cons_cons, List.getLast?_singleton,
          Option.some_or] at hrest
        exact .trans _ _ _ (.rel _ _ hone) hrest
      · rename_i hdropped
        have hnone : SpacedAlike (written ++ (g ++ c :: s)) (written ++ c :: s) := by
          by_cases hempty : g = []
          · rw [hempty, List.nil_append]
            exact .refl _
          · refine .rel _ _ (.drop hg ?_)
            simp only [Bool.and_eq_true, Bool.not_eq_true', List.isEmpty_eq_false_iff, hempty,
              not_false_eq_true, ne_eq, true_and, not_and_or, Bool.not_eq_true, Option.any_eq_false,
              Bool.not_eq_false'] at hdropped
            refine hdropped.imp (fun hlast d hd => ?_) (fun hhead d hd => ?_)
            · simpa using hlast d hd
            · rw [List.head?_cons, Option.mem_some] at hd
              simpa [← hd] using hhead
        have hrest := ih (written ++ [c]) [] rfl
        simp only [List.append_assoc, List.cons_append, List.nil_append, List.isEmpty_nil,
          Bool.not_true, List.getLast?_concat] at hrest
        exact .trans _ _ _ hnone hrest

/-- A text differs from itself respaced in spacing only. -/
theorem spacedAlike_respace (s : Text) : SpacedAlike s (respace s) :=
  spacedAlike_respaceAfter [] [] s rfl

/-- **Texts differ in spacing only exactly when they are the same once they are respaced.** -/
theorem spacedAlike_iff : SpacedAlike s t ↔ respace s = respace t := by
  constructor
  · exact SpacedAlike.respace_eq
  · intro h
    have ht := spacedAlike_respace t
    rw [← h] at ht
    exact .trans _ _ _ (spacedAlike_respace s) (.symm _ _ ht)

/-! ## What the reader finds -/

/-- Whether a word goes on is seen behind a character that is no mark. -/
theorem startsWord_respaceAfter {c : Char} (hc : isMark c = false) (gap : Bool) (s : Text) :
    startsWord (respaceAfter (some c) gap s) = (!gap && startsWord s) := by
  induction s generalizing gap with
  | nil => simp [respaceAfter, startsWord]
  | cons d s ih =>
    rw [respaceAfter]
    split
    · rename_i hd
      rw [ih, startsWord, isIdentifierChar_of_isBlankChar hd]
      simp
    · split
      · rename_i hkept
        have hspace : isIdentifierChar ' ' = false := isIdentifierChar_of_isBlankChar rfl
        rw [Bool.and_eq_true, Bool.and_eq_true] at hkept
        rw [startsWord, hspace, hkept.1.1]
        rfl
      · rename_i hdropped
        rw [startsWord, startsWord]
        cases gap with
        | false => rfl
        | true =>
          have hmark : isMark d = true := by simpa [hc] using hdropped
          rw [(mark_facts hmark).2.1]
          rfl

/-- What has the same tokens has the same ones behind a character, if a word goes on alike. -/
theorem ofText_cons_congr {c : Char} (h : ofText s = ofText t)
    (hstart : isMark c = false → startsWord s = startsWord t) :
    ofText (c :: s) = ofText (c :: t) := by
  rw [ofText, ofText, h]
  cases hc : isMark c with
  | true =>
    obtain ⟨-, hword, hat⟩ := mark_facts hc
    simp [hword, hat]
  | false => rw [hstart hc]

/-- **Spacing is not seen by the reader.** -/
theorem ofText_respaceAfter (last : Option Char) (gap : Bool) (s : Text) :
    ofText (respaceAfter last gap s) = ofText s := by
  induction s generalizing last gap with
  | nil => rfl
  | cons c s ih =>
    have hnext : ofText (c :: respaceAfter (some c) false s) = ofText (c :: s) :=
      ofText_cons_congr (ih _ _) fun hc => by simpa using startsWord_respaceAfter hc false s
    rw [respaceAfter]
    split
    · rename_i hc
      rw [ih, ofText, if_pos hc]
    · split
      · have hspace : isBlankChar ' ' = true := rfl
        rw [ofText, if_pos hspace, hnext]
      · exact hnext

/-- A type is read alike however it is spaced. -/
theorem ofText?_respace (s : Text) : TypeRef.ofText? (respace s) = TypeRef.ofText? s := by
  unfold TypeRef.ofText? respace
  rw [ofText_respaceAfter]

/-- Texts that differ in spacing only are read alike. -/
theorem SpacedAlike.ofText?_eq (h : SpacedAlike s t) : TypeRef.ofText? s = TypeRef.ofText? t := by
  rw [← ofText?_respace s, h.respace_eq, ofText?_respace]

/-! ## Types however they are spaced -/

/-- **Respacing is done once and for all, the reader does not see it, and a type that is read has
one spelling however it is spaced.** -/
theorem spacing_ignored (s : Text) :
    respace (respace s) = respace s ∧
    TypeRef.ofText? (respace s) = TypeRef.ofText? s ∧
    ∀ t, SpacedAlike s t →
      TypeRef.ofText? t = TypeRef.ofText? s ∧
      ∀ context, encodeType context (respace t) = encodeType context (respace s) ∧
        ((TypeRef.ofText? s).isSome = true →
          encodeType context (respace s) = encodeType context s ∧
            encodeType context t = encodeType context s) := by
  refine ⟨(spacedAlike_respace s).respace_eq.symm, ofText?_respace s, ?_⟩
  intro t hspaced
  have hread : TypeRef.ofText? t = TypeRef.ofText? s := hspaced.ofText?_eq.symm
  refine ⟨hread, ?_⟩
  intro context
  have hrespaced : encodeType context (respace t) = encodeType context (respace s) := by
    rw [hspaced.respace_eq]
  refine ⟨hrespaced, ?_⟩
  intro hsome
  obtain ⟨type, htype⟩ := Option.isSome_iff_exists.1 hsome
  unfold encodeType
  rw [ofText?_respace, hread, htype]
  exact ⟨rfl, rfl⟩

/-- A generic array type among lines, with an escaped name, is spelled as without the blanks. -/
theorem spacing_ignored_brokenLines :
    SpacedAlike " Map < ref\t@int ,\r\n string > [ , ] ".toList "Map<ref @int,string>[,]".toList ∧
    SpacedAlike "List\n<\u00a0@int >?".toList "List<@int>?".toList ∧
    (TypeRef.ofText? "List\n<\u00a0@int >?".toList).isSome = true ∧
    encodeType ⟨[], []⟩ "List<@int>?".toList = encodeType ⟨[], []⟩ "List\n<\u00a0@int >?".toList ∧
    encodeType ⟨[], []⟩ "List\n<\u00a0@int >?".toList = "List\x7bSystem.Int32\x7d".toList := by
  have hunread : SpacedAlike " Map < ref\t@int ,\r\n string > [ , ] ".toList
      "Map<ref @int,string>[,]".toList := spacedAlike_iff.2 (by decide +kernel)
  have hspaced : SpacedAlike "List\n<\u00a0@int >?".toList "List<@int>?".toList :=
    spacedAlike_iff.2 (by decide +kernel)
  have hread : (TypeRef.ofText? "List\n<\u00a0@int >?".toList).isSome = true := by decide +kernel
  obtain ⟨-, hsame⟩ := (spacing_ignored "List\n<\u00a0@int >?".toList).2.2 _ hspaced
  exact ⟨hunread, hspaced, hread, ((hsame ⟨[], []⟩).2 hread).2, by decide +kernel⟩

end PartialDocs.TypeText
