import Mathlib.Data.List.Chain
import PartialDocs.TypeRef.Parser

/-!
# Types as written and their tokens

`Written ts s` says that a text is a sequence of tokens with blanks wherever they are wanted,
where every word is a longest run of identifier characters.  The tokens of a text are the only
ones that it is written of (`written_iff`), and tokens of which no two neighbours are words may
be written with any blanks before them (`written_spaced`).
-/

set_option autoImplicit false

namespace PartialDocs

/-- A run of identifier characters. -/
def IsIdentifier (w : Text) : Prop := w ≠ [] ∧ ∀ c ∈ w, isIdentifierChar c = true

instance (w : Text) : Decidable (IsIdentifier w) :=
  decidable_of_iff ((!w.isEmpty && w.all isIdentifierChar) = true) (by simp [IsIdentifier])

/-- The blank characters. -/
def blankChars : List Char :=
  ([0x9, 0xA, 0xB, 0xC, 0xD, 0x20, 0x85, 0xA0, 0x1680, 0x2000, 0x2001, 0x2002, 0x2003, 0x2004,
    0x2005, 0x2006, 0x2007, 0x2008, 0x2009, 0x200A, 0x2028, 0x2029, 0x202F, 0x205F, 0x3000] :
      List Nat).map Char.ofNat

/-- Every blank character is among the ones listed. -/
theorem mem_blankChars {c : Char} (h : isBlankChar c = true) : c ∈ blankChars := by
  unfold blankChars
  rw [List.mem_map]
  refine ⟨c.toNat, ?_, Char.ofNat_toNat c⟩
  simp only [isBlankChar, Bool.or_eq_true, Bool.and_eq_true, decide_eq_true_eq, beq_iff_eq] at h
  simp only [List.mem_cons, List.not_mem_nil, or_false]
  omega

/-- No blank belongs to a word. -/
theorem isIdentifierChar_of_isBlankChar {c : Char} (h : isBlankChar c = true) :
    isIdentifierChar c = false := by
  have hall : blankChars.all (fun d => !isIdentifierChar d) = true := by decide +kernel
  simpa using List.all_eq_true.1 hall c (mem_blankChars h)

namespace TypeToken

/-! ## Words -/

/-- The word of a token, with or without an at sign. -/
def word? : TypeToken → Option Text
  | word w => some w
  | escaped w => some w
  | mark _ => none

/-- Whether all words among some tokens fulfil a condition. -/
def Words (P : Text → Prop) (ts : List TypeToken) : Prop :=
  ∀ token ∈ ts, ∀ w, token.word? = some w → P w

variable {P : Text → Prop}

/-- What holds of the words of a token and those behind it. -/
theorem words_cons {token : TypeToken} {ts : List TypeToken} :
    Words P (token :: ts) ↔ (∀ w, token.word? = some w → P w) ∧ Words P ts :=
  List.forall_mem_cons

/-- A mark has no word. -/
theorem words_mark {c : Char} {ts : List TypeToken} : Words P (mark c :: ts) ↔ Words P ts := by
  rw [words_cons]
  simp [word?]

/-- A character in front goes on with the first word or makes one. -/
theorem words_extendWord {c : Char} (one : P [c]) (more : ∀ w, P w → P (c :: w))
    {ts : List TypeToken} (h : Words P ts) : Words P (extendWord c ts) := by
  unfold extendWord
  split
  · rename_i w ts
    rw [words_cons] at h ⊢
    exact ⟨fun v hv => Option.some.inj hv ▸ more w (h.1 w rfl), h.2⟩
  · rw [words_cons]
    exact ⟨fun v hv => Option.some.inj hv ▸ one, h⟩

/-- An at sign in front does not change the words. -/
theorem words_escapeWord {ts : List TypeToken} (h : Words P ts) : Words P (escapeWord ts) := by
  unfold escapeWord
  split
  · rename_i w ts
    rw [words_cons] at h ⊢
    exact ⟨fun v hv => Option.some.inj hv ▸ h.1 w rfl, h.2⟩
  · rw [words_mark]
    exact h

/-- What holds for identifier characters and is kept when one more stands in front holds for all
words of a text. -/
theorem words_ofText (one : ∀ c, isIdentifierChar c = true → P [c])
    (more : ∀ c w, isIdentifierChar c = true → P w → P (c :: w)) (s : Text) :
    Words P (ofText s) := by
  fun_induction ofText s with
  | case1 => exact List.forall_mem_nil _
  | case2 c rest hblank ih => exact ih
  | case3 c rest hblank hword hstarts ih =>
    exact words_extendWord (one c hword) (fun w hw => more c w hword hw) ih
  | case4 c rest hblank hword hstarts ih =>
    rw [words_cons]
    exact ⟨fun v hv => Option.some.inj hv ▸ one c hword, ih⟩
  | case5 c rest hblank hword hat ih => exact words_escapeWord ih
  | case6 c rest hblank hword hat ih =>
    rw [words_mark]
    exact ih

/-! ## Texts and their tokens -/

/-- The characters of a token. -/
def text : TypeToken → Text
  | word w => w
  | escaped w => '@' :: w
  | mark c => [c]

/-- The tokens that a text is written of.  Blanks may stand before every token and at the end, but
not behind an at sign, and a word goes on as long as identifier characters follow. -/
inductive Written : List TypeToken → Text → Prop
  | nil : Written [] []
  | blank {c : Char} {ts : List TypeToken} {s : Text} :
      isBlankChar c = true → Written ts s → Written ts (c :: s)
  | word {w : Text} {ts : List TypeToken} {s : Text} :
      IsIdentifier w → startsWord s = false → Written ts s → Written (word w :: ts) (w ++ s)
  | escaped {w : Text} {ts : List TypeToken} {s : Text} :
      IsIdentifier w → startsWord s = false → Written ts s →
        Written (escaped w :: ts) ('@' :: w ++ s)
  | mark {c : Char} {ts : List TypeToken} {s : Text} :
      isBlankChar c = false → isIdentifierChar c = false → (c = '@' → startsWord s = false) →
        Written ts s → Written (mark c :: ts) (c :: s)

variable {w s : Text} {ts : List TypeToken}

/-! ## The tokens of a text -/

/-- A text with an identifier in front begins with a word. -/
theorem startsWord_append (hw : IsIdentifier w) (s : Text) : startsWord (w ++ s) = true := by
  obtain ⟨c, rest, rfl⟩ := List.exists_cons_of_ne_nil hw.1
  exact hw.2 c List.mem_cons_self

/-- A word in front of a text is its first token. -/
theorem ofText_word (hw : IsIdentifier w) (hs : startsWord s = false) :
    ofText (w ++ s) = word w :: ofText s := by
  induction w with
  | nil => exact absurd rfl hw.1
  | cons c rest ih =>
    obtain ⟨hc, hrest⟩ := List.forall_mem_cons.1 hw.2
    have hblank : isBlankChar c = false := by
      rw [Bool.eq_false_iff]
      intro h
      rw [isIdentifierChar_of_isBlankChar h] at hc
      cases hc
    rw [List.cons_append, ofText, if_neg (by simp [hblank]), if_pos hc]
    by_cases hne : rest = []
    · subst hne
      rw [List.nil_append, if_neg (by simp [hs])]
    · rw [if_pos (startsWord_append ⟨hne, hrest⟩ s), ih ⟨hne, hrest⟩]
      rfl

/-- A word behind an at sign in front of a text is its first token. -/
theorem ofText_escaped (hw : IsIdentifier w) (hs : startsWord s = false) :
    ofText ('@' :: w ++ s) = escaped w :: ofText s := by
  have hstarts := startsWord_append hw s
  rw [List.cons_append, ofText, if_neg (by decide), if_neg (by decide),
    if_pos (by simp [hstarts]), ofText_word hw hs]
  rfl

/-- A text has the tokens that it is written of. -/
theorem Written.ofText_eq (h : Written ts s) : ofText s = ts := by
  induction h with
  | nil => rfl
  | blank hc _ ih => rw [ofText, if_pos hc, ih]
  | word hw hs _ ih => rw [ofText_word hw hs, ih]
  | escaped hw hs _ ih => rw [ofText_escaped hw hs, ih]
  | mark hblank hword hat _ ih =>
    rw [ofText, if_neg (by simp [hblank]), if_neg (by simp [hword]), if_neg, ih]
    simp only [Bool.and_eq_true, beq_iff_eq, not_and, Bool.not_eq_true]
    exact hat

/-- The first word of a text that begins with one, and what the text is written of behind it. -/
theorem Written.exists_word (h : Written ts s) (hstarts : startsWord s = true) :
    ∃ w us rest, ts = .word w :: us ∧ s = w ++ rest ∧ IsIdentifier w ∧ startsWord rest = false ∧
      Written us rest := by
  cases h with
  | nil => cases hstarts
  | blank hc =>
    rw [startsWord, isIdentifierChar_of_isBlankChar hc] at hstarts
    cases hstarts
  | word hw hs h => exact ⟨_, _, _, rfl, rfl, hw, hs, h⟩
  | escaped => cases hstarts
  | mark _ hword =>
    rw [startsWord, hword] at hstarts
    cases hstarts

/-- A text is written of its tokens. -/
theorem written_ofText (s : Text) : Written (ofText s) s := by
  fun_induction ofText s with
  | case1 => exact .nil
  | case2 c rest hblank ih => exact .blank hblank ih
  | case3 c rest hblank hword hstarts ih =>
    obtain ⟨w, us, after, hts, rfl, hw, hafter, hus⟩ := ih.exists_word hstarts
    rw [hts]
    have hlonger : IsIdentifier (c :: w) :=
      ⟨List.cons_ne_nil c w, List.forall_mem_cons.2 ⟨hword, hw.2⟩⟩
    exact .word hlonger hafter hus
  | case4 c rest hblank hword hstarts ih =>
    have hone : IsIdentifier [c] := ⟨List.cons_ne_nil c [], List.forall_mem_singleton.2 hword⟩
    exact .word hone (by simpa using hstarts) ih
  | case5 c rest hblank hword hat ih =>
    rw [Bool.and_eq_true, beq_iff_eq] at hat
    obtain ⟨rfl, hstarts⟩ := hat
    obtain ⟨w, us, after, hts, rfl, hw, hafter, hus⟩ := ih.exists_word hstarts
    rw [hts]
    exact .escaped hw hafter hus
  | case6 c rest hblank hword hat ih =>
    refine .mark (by simpa using hblank) (by simpa using hword) ?_ ih
    intro hc
    simpa [hc] using hat

/-- **A text is written of its own tokens and of no others.** -/
theorem written_iff : Written ts s ↔ ofText s = ts := by
  constructor
  · exact Written.ofText_eq
  · rintro rfl
    exact written_ofText s

/-! ## Writing tokens -/

/-- Whether a token can be written: a word is an identifier, and a mark is no character of a word,
no blank and no at sign. -/
def IsProper : TypeToken → Prop
  | word w => IsIdentifier w
  | escaped w => IsIdentifier w
  | mark c => isBlankChar c = false ∧ isIdentifierChar c = false ∧ c ≠ '@'

/-- Whether no two words are neighbours. -/
def Separate (ts : List TypeToken) : Prop := ts.IsChain fun a b => a.word? = none ∨ b.word? = none

/-- Whether tokens may be written with any blanks between them. -/
def Printable (ts : List TypeToken) : Prop := (∀ t ∈ ts, t.IsProper) ∧ Separate ts

/-- No tokens can be printed. -/
theorem printable_nil : Printable [] := ⟨List.forall_mem_nil _, .nil⟩

/-- An identifier can be printed. -/
theorem printable_word (hw : IsIdentifier w) : Printable [word w] :=
  ⟨List.forall_mem_singleton.2 hw, .singleton _⟩

/-- A mark may stand beside any token. -/
theorem Printable.append_mark {us : List TypeToken} {c : Char} (hts : Printable ts)
    (hus : Printable us) (hc : (mark c).IsProper) : Printable (ts ++ mark c :: us) := by
  constructor
  · rw [List.forall_mem_append, List.forall_mem_cons]
    exact ⟨hts.1, hc, hus.1⟩
  · rw [Separate, List.isChain_append]
    refine ⟨hts.2, ?_, ?_⟩
    · rw [List.isChain_cons]
      exact ⟨fun _ _ => .inl rfl, hus.2⟩
    · intro a _ b hb
      rw [List.head?_cons, Option.mem_some] at hb
      exact .inr (hb ▸ rfl)

/-- Tokens, each behind its own gap, and a last gap. -/
def spaced (parts : List (Text × TypeToken)) (tail : Text) : Text :=
  parts.foldr (fun part s => part.1 ++ (part.2.text ++ s)) tail

/-- Blanks in front do not matter. -/
theorem Written.append_blank {gap : Text} (hgap : Text.isBlank gap = true) (h : Written ts s) :
    Written ts (gap ++ s) := by
  induction gap with
  | nil => exact h
  | cons c rest ih =>
    rw [Text.isBlank, List.all_cons, Bool.and_eq_true] at hgap
    exact .blank hgap.1 (ih hgap.2)

/-- Behind blanks no word goes on. -/
theorem startsWord_of_isBlank {gap : Text} (hgap : Text.isBlank gap = true)
    (hs : startsWord s = false) : startsWord (gap ++ s) = false := by
  cases gap with
  | nil => exact hs
  | cons c rest =>
    rw [Text.isBlank, List.all_cons, Bool.and_eq_true] at hgap
    exact isIdentifierChar_of_isBlankChar hgap.1

/-- A proper token without a word begins no word. -/
theorem startsWord_text {t : TypeToken} (ht : t.IsProper) (hword : t.word? = none) (s : Text) :
    startsWord (t.text ++ s) = false := by
  cases t with
  | word w => cases hword
  | escaped w => cases hword
  | mark c => exact ht.2.1

/-- **Tokens of which no two neighbours are words may be written with any blanks between them.** -/
theorem written_spaced {parts : List (Text × TypeToken)} {tail : Text}
    (hparts : Printable (parts.map Prod.snd))
    (hgaps : ∀ part ∈ parts, Text.isBlank part.1 = true) (htail : Text.isBlank tail = true) :
    Written (parts.map Prod.snd) (spaced parts tail) := by
  induction parts with
  | nil =>
    have hnil := Written.append_blank htail .nil
    rwa [List.append_nil] at hnil
  | cons part rest ih =>
    obtain ⟨gap, t⟩ := part
    obtain ⟨hgap, hgaps⟩ := List.forall_mem_cons.1 hgaps
    obtain ⟨hproper, hseparate⟩ := hparts
    obtain ⟨ht, hproper⟩ := List.forall_mem_cons.1 hproper
    have hrest := ih ⟨hproper, hseparate.of_cons⟩ hgaps
    have hends : t.word? ≠ none → startsWord (spaced rest tail) = false := by
      intro hword
      cases rest with
      | nil =>
        have hend := startsWord_of_isBlank (s := []) htail rfl
        rwa [List.append_nil] at hend
      | cons next rest =>
        have hnext : next.2.word? = none := by
          rw [List.map_cons, List.map_cons, Separate, List.isChain_cons_cons] at hseparate
          exact hseparate.1.resolve_left hword
        exact startsWord_of_isBlank (hgaps _ List.mem_cons_self)
          (startsWord_text (hproper _ (List.mem_map_of_mem List.mem_cons_self)) hnext _)
    apply Written.append_blank hgap
    cases t with
    | word w => exact .word ht (hends (by simp [word?])) hrest
    | escaped w => exact .escaped ht (hends (by simp [word?])) hrest
    | mark c => exact .mark ht.1 ht.2.1 (fun hc => absurd hc ht.2.2) hrest

end TypeToken

end PartialDocs
