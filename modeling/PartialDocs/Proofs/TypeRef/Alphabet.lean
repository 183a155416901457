import PartialDocs.Proofs.TypeRef.NormalForm

/-!
# The alphabet of types

A type that can be read has no other marks than those of the grammar, and a word with an at sign
never stands right behind a token that may be the last one of a type (`SpellsType.steady`).  Its
spelling is made of identifier characters and marks (`Built.spelled_encode`).  A text whose tokens
are not of this form is therefore read as no type, and it keeps a character that no spelling of a
type has (`exists_odd_of_not_steady`).
-/

set_option autoImplicit false

namespace PartialDocs

open TypeToken (escaped mark)

/-! ## Characters of types -/

/-- The marks that a type or its spelling is written with. -/
def typeMarks : List Char := "()<>[],.?*:\x7b\x7d\x60".toList

/-- The characters of spellings. -/
def SpellingChar (c : Char) : Prop := isIdentifierChar c = true ∨ c ∈ typeMarks

namespace TypeToken

variable {s : Text} {ts : List TypeToken}

/-- Where a mark among the tokens of a text comes from. -/
theorem Written.mem_of_mark (h : Written ts s) {c : Char} (hc : TypeToken.mark c ∈ ts) :
    c ∈ s ∧ isBlankChar c = false ∧ isIdentifierChar c = false := by
  induction h with
  | nil => cases hc
  | blank _ _ ih =>
    obtain ⟨hmem, hkind⟩ := ih hc
    exact ⟨List.mem_cons_of_mem _ hmem, hkind⟩
  | word _ _ _ ih =>
    obtain ⟨hmem, hkind⟩ := ih (List.mem_of_ne_of_mem (by simp) hc)
    exact ⟨List.mem_append_right _ hmem, hkind⟩
  | escaped _ _ _ ih =>
    obtain ⟨hmem, hkind⟩ := ih (List.mem_of_ne_of_mem (by simp) hc)
    exact ⟨List.mem_append_right _ hmem, hkind⟩
  | mark hblank hword _ _ ih =>
    rcases List.mem_cons.1 hc with hc | hc
    · cases hc
      exact ⟨List.mem_cons_self, hblank, hword⟩
    · obtain ⟨hmem, hkind⟩ := ih hc
      exact ⟨List.mem_cons_of_mem _ hmem, hkind⟩

/-- A word behind an at sign brings an at sign into the text. -/
theorem Written.at_mem_of_escaped (h : Written ts s) {w : Text} (hw : TypeToken.escaped w ∈ ts) :
    '@' ∈ s := by
  induction h with
  | nil => cases hw
  | blank _ _ ih => exact List.mem_cons_of_mem _ (ih hw)
  | word _ _ _ ih => exact List.mem_append_right _ (ih (List.mem_of_ne_of_mem (by simp) hw))
  | escaped => exact List.mem_append_left _ List.mem_cons_self
  | mark _ _ _ _ ih => exact List.mem_cons_of_mem _ (ih (List.mem_of_ne_of_mem (by simp) hw))

/-- A character of no word and no blank is a mark, or an at sign in front of a word. -/
theorem Written.mark_mem (h : Written ts s) {c : Char} (hc : c ∈ s)
    (hblank : isBlankChar c = false) (hword : isIdentifierChar c = false) (hat : c ≠ '@') :
    TypeToken.mark c ∈ ts := by
  induction h with
  | nil => cases hc
  | blank hb _ ih =>
    rcases List.mem_cons.1 hc with rfl | hc
    · rw [hb] at hblank
      cases hblank
    · exact ih hc
  | word hw _ _ ih =>
    rcases List.mem_append.1 hc with hc | hc
    · rw [hw.2 c hc] at hword
      cases hword
    · exact List.mem_cons_of_mem _ (ih hc)
  | escaped hw _ _ ih =>
    rcases List.mem_append.1 hc with hc | hc
    · rcases List.mem_cons.1 hc with rfl | hc
      · exact absurd rfl hat
      · rw [hw.2 c hc] at hword
        cases hword
    · exact List.mem_cons_of_mem _ (ih hc)
  | mark _ _ _ _ ih =>
    rcases List.mem_cons.1 hc with rfl | hc
    · exact List.mem_cons_self
    · exact List.mem_cons_of_mem _ (ih hc)

end TypeToken

/-- A text that is read as no type keeps all characters but blanks and angle brackets. -/
theorem mem_encodeUnread {s : Text} {c : Char} (hc : c ∈ s) (h : c ∉ ['<', '>', ' ']) :
    c ∈ encodeUnread s := by
  simp only [List.mem_cons, List.not_mem_nil, or_false, not_or] at h
  obtain ⟨hopen, hclose, hspace⟩ := h
  unfold encodeUnread
  rw [Text.replace_singleton, Text.replace_singleton, List.mem_filter, List.map_map, List.mem_map]
  refine ⟨⟨c, hc, ?_⟩, by simpa using hspace⟩
  rw [Function.comp_apply, if_neg hclose, if_neg hopen]

/-! ## What stands behind the end of a type -/

namespace TypeRef

variable {ts us : List TypeToken} {t : TypeRef}

/-- Whether a token may be the last one of a type. -/
def EndToken : TypeToken → Prop
  | .word _ => True
  | .escaped _ => True
  | mark c => c ∈ [')', '>', '?', '*', ']']

/-- Whether all marks are marks of types, and no word with an at sign stands right behind a token
that may be the last one of a type. -/
structure Steady (ts : List TypeToken) : Prop where
  marks : ∀ c, mark c ∈ ts → c ∈ typeMarks
  escapes : ts.IsChain fun a b => EndToken a → ∀ w, b ≠ escaped w

/-- Tokens in the midst of steady ones are steady. -/
theorem Steady.infix (h : Steady ts) (hus : us <:+: ts) : Steady us where
  marks c hc := h.marks c (hus.mem hc)
  escapes := h.escapes.infix hus

/-- Tokens in front of others are as steady as the whole. -/
theorem Steady.left (h : Steady (ts ++ us)) : Steady ts := h.infix (List.infix_append' [] ts us)

/-- Tokens behind others are as steady as the whole. -/
theorem Steady.right (h : Steady (ts ++ us)) : Steady us :=
  h.infix (List.suffix_append ts us).isInfix

/-- Tokens stay steady without the first one. -/
theorem Steady.tail {token : TypeToken} (h : Steady (token :: ts)) : Steady ts :=
  h.infix (List.suffix_cons token ts).isInfix

/-- No tokens are steady. -/
theorem steady_nil : Steady [] := ⟨by simp, .nil⟩

/-- Tokens may be put together where the later ones do not begin with an at sign. -/
theorem Steady.append (hts : Steady ts) (hus : Steady us)
    (hhead : ∀ w, us.head? ≠ some (escaped w)) :
    Steady (ts ++ us) where
  marks c hc := (List.mem_append.1 hc).elim (hts.marks c) (hus.marks c)
  escapes := by
    rw [List.isChain_append]
    refine ⟨hts.escapes, hus.escapes, ?_⟩
    rintro a _ b hb _ w rfl
    exact hhead w hb

/-- A mark that opens or separates may stand in front of any tokens. -/
theorem Steady.cons (hts : Steady ts) {c : Char} (hc : c ∈ ['(', '<', ',', '.', ':', '[']) :
    Steady (mark c :: ts) where
  marks d hd := by
    rcases List.mem_cons.1 hd with hd | hd
    · cases hd
      have hmarks : ['(', '<', ',', '.', ':', '['] ⊆ typeMarks := by decide
      exact hmarks hc
    · exact hts.marks d hd
  escapes := by
    rw [List.isChain_cons]
    refine ⟨?_, hts.escapes⟩
    intro b _ hend
    have hnever : ∀ d ∈ ['(', '<', ',', '.', ':', '['], d ∉ [')', '>', '?', '*', ']'] := by simp
    exact absurd hend (hnever c hc)

/-- A mark of a type is steady by itself. -/
theorem steady_mark {c : Char} (hc : c ∈ typeMarks) : Steady [mark c] :=
  ⟨by simpa using hc, .singleton _⟩

/-- A mark of a type may stand behind steady tokens. -/
theorem Steady.append_mark (hts : Steady ts) {c : Char} (hc : c ∈ typeMarks) :
    Steady (ts ++ [mark c]) :=
  hts.append (steady_mark hc) (by simp)

/-- The commas and the bracket of an array are steady. -/
theorem steady_dimensions (commas : Nat) :
    Steady (List.replicate commas (mark ',') ++ [mark ']']) := by
  induction commas with
  | zero => exact steady_mark (by decide)
  | succ commas ih => exact ih.cons (by decide)

/-- A word is steady by itself. -/
theorem steady_of_word? {token : TypeToken} {w : Text} (h : token.word? = some w) :
    Steady [token] where
  marks c hc := by
    cases List.mem_singleton.1 hc
    cases h
  escapes := .singleton _

/-- A name is spelled with steady tokens. -/
theorem SpellsName.steady {name : Text} (h : SpellsName ts name) : Steady ts := by
  have haliased : ∀ {first second : TypeToken} {v w : Text}, first.word? = some v →
      second.word? = some w → Steady [first, mark ':', mark ':', second] := by
    intro first second v w hfirst hsecond
    have hcolons := ((steady_of_word? hsecond).cons (c := ':') (by decide)).cons (c := ':')
      (by decide)
    exact (steady_of_word? hfirst).append hcolons (by simp)
  cases h with
  | word hw => exact steady_of_word? hw
  | global hfirst hsecond => exact haliased hfirst hsecond
  | aliased hfirst _ hsecond => exact haliased hfirst hsecond

/-- The name of a tuple element has steady tokens. -/
theorem ElementName.steady {name : List TypeToken} (h : ElementName name) : Steady name := by
  cases h with
  | missing => exact steady_nil
  | word w => exact ⟨by simp, .singleton _⟩

mutual

/-- No word with an at sign stands right behind the end of a type, where an element has its name. -/
theorem SpellsType.steady : ∀ {ts : List TypeToken} {t : TypeRef}, SpellsType ts t → Steady ts
  | _, _, .tuple h => (h.steady.cons (by decide)).append_mark (by decide)
  | _, _, .named h => h.steady
  | _, _, .nullable h => h.steady.append_mark (by decide)
  | _, _, .pointer h => h.steady.append_mark (by decide)
  | _, _, .array commas h => h.steady.append ((steady_dimensions commas).cons (by decide)) (by simp)

/-- Tuple elements are spelled with steady tokens. -/
theorem SpellsElements.steady : ∀ {ts : List TypeToken} {es : List TypeRef},
    SpellsElements ts es → Steady ts
  -- a name that is read has no at sign, and so it may stand behind the end of a type
  | _, _, .last h hname => h.steady.append hname.steady (by cases hname <;> simp)
  | _, _, .more h hname hmore =>
    h.steady.append (hname.steady.append (hmore.steady.cons (by decide)) (by simp))
      (by cases hname <;> simp)

/-- Type arguments are spelled with steady tokens. -/
theorem SpellsArguments.steady : ∀ {ts : List TypeToken} {as : List TypeRef},
    SpellsArguments ts as → Steady ts
  | _, _, .last h => h.steady
  | _, _, .more h hmore => h.steady.append (hmore.steady.cons (by decide)) (by simp)

/-- Type arguments between angle brackets are spelled with steady tokens. -/
theorem SpellsBracketed.steady : ∀ {ts : List TypeToken} {as : List TypeRef},
    SpellsBracketed ts as → Steady ts
  | _, _, .missing => steady_nil
  | _, _, .given h => (h.steady.cons (by decide)).append_mark (by decide)

/-- Segments are spelled with steady tokens. -/
theorem SpellsSegments.steady : ∀ {ts : List TypeToken} {ss : List TypeSegment},
    SpellsSegments ts ss → Steady ts
  | _, _, .last hname h => hname.steady.append h.steady (by cases h <;> simp)
  | _, _, .more hname h hmore =>
    hname.steady.append (h.steady.append (hmore.steady.cons (by decide)) (by simp))
      (by cases h <;> simp)

end

/-- Whether tokens end in one that may be the last one of a type. -/
def EndsInType (ts : List TypeToken) : Prop := ∃ last ∈ ts.getLast?, EndToken last

/-- What stands in front does not matter to the end. -/
theorem EndsInType.append_left (h : EndsInType us) (ts : List TypeToken) :
    EndsInType (ts ++ us) := by
  obtain ⟨last, hlast, hend⟩ := h
  refine ⟨last, ?_, hend⟩
  rw [Option.mem_def] at hlast ⊢
  rw [List.getLast?_append, hlast]
  rfl

/-- A closing mark is the end of a type. -/
theorem endsInType_mark {c : Char} (hc : c ∈ [')', '>', '?', '*', ']']) (ts : List TypeToken) :
    EndsInType (ts ++ [mark c]) := by
  have hone : EndsInType [mark c] := ⟨mark c, rfl, hc⟩
  exact hone.append_left ts

/-- A name ends as a type does. -/
theorem SpellsName.endsInType {name : Text} (h : SpellsName ts name) : EndsInType ts := by
  have hone : ∀ {token : TypeToken} {w : Text}, token.word? = some w → EndsInType [token] := by
    intro token w hw
    refine ⟨token, rfl, ?_⟩
    cases token with
    | word v => trivial
    | escaped v => trivial
    | mark c => cases hw
  cases h with
  | word hw => exact hone hw
  | global _ hw => exact (hone hw).append_left [_, _, _]
  | aliased _ _ hw => exact (hone hw).append_left [_, _, _]

/-- Type arguments, if there are any, end as a type does. -/
theorem SpellsBracketed.endsInType {as : List TypeRef} (h : SpellsBracketed us as) :
    us = [] ∨ EndsInType us := by
  cases h with
  | missing => exact .inl rfl
  | given => exact .inr (endsInType_mark (by decide) _)

/-- A dotted name ends as a type does. -/
theorem SpellsSegments.endsInType : ∀ {ts : List TypeToken} {ss : List TypeSegment},
    SpellsSegments ts ss → EndsInType ts
  | _, _, @SpellsSegments.last ts us _ _ hname h => by
    obtain rfl | hend := h.endsInType
    · rw [List.append_nil]
      exact hname.endsInType
    · exact hend.append_left ts
  | _, _, @SpellsSegments.more ts us vs _ _ _ _ _ hmore =>
    ((hmore.endsInType.append_left [mark '.']).append_left us).append_left ts

/-- The tokens of a type end as a type does. -/
theorem SpellsType.endsInType (h : SpellsType ts t) : EndsInType ts := by
  cases h with
  | tuple => exact endsInType_mark (by decide) _
  | named h => exact h.endsInType
  | nullable => exact endsInType_mark (by decide) _
  | pointer => exact endsInType_mark (by decide) _
  | array commas =>
    have hmarks := endsInType_mark (c := ']') (by decide) (List.replicate commas (mark ','))
    exact (hmarks.append_left [mark '[']).append_left _

end TypeRef

/-! ## Characters of spellings -/

namespace NormalType

open Text (joinWith)
open TypeRef (braced arrayMark)

/-- Whether all characters of a text are those of spellings. -/
def Spelled (s : Text) : Prop := ∀ c ∈ s, SpellingChar c

variable {s u : Text} {xs : List Text}

/-- Texts that can be spelled can be spelled beside each other. -/
theorem Spelled.append (hs : Spelled s) (hu : Spelled u) : Spelled (s ++ u) :=
  List.forall_mem_append.2 ⟨hs, hu⟩

/-- The marks of types can be spelled. -/
theorem spelled_of_marks (h : s ⊆ typeMarks) : Spelled s := fun _ hc => .inr (h hc)

/-- An identifier can be spelled. -/
theorem spelled_of_isIdentifier (h : IsIdentifier s) : Spelled s := fun c hc => .inl (h.2 c hc)

/-- A number can be spelled. -/
theorem spelled_ofNat (n : Nat) : Spelled (Text.ofNat n) := by
  intro c hc
  have hdigit := Text.isDigit_of_mem_ofNat hc
  left
  rw [isIdentifierChar, isAlphanumericChar_of_isAlphanum (by simp [Char.isAlphanum, hdigit])]
  rfl

/-- Texts that can be spelled can be joined by a mark of types. -/
theorem spelled_joinWith {sep : Char} (hsep : sep ∈ typeMarks) (hxs : ∀ x ∈ xs, Spelled x) :
    Spelled (joinWith [sep] xs) := by
  intro c hc
  obtain rfl | ⟨x, hx, hc⟩ := Text.mem_of_mem_joinWith hc
  · exact .inr hsep
  · exact hxs x hx c hc

/-- Texts that can be spelled can be put between braces. -/
theorem spelled_braced (hxs : ∀ x ∈ xs, Spelled x) : Spelled (braced xs) := by
  have hbrace : Spelled ['\x7b'] := spelled_of_marks (by decide)
  have hclose : Spelled ['\x7d'] := spelled_of_marks (by decide)
  exact hbrace.append ((spelled_joinWith (by decide) hxs).append hclose)

/-- The mark of an array can be spelled. -/
theorem spelled_arrayMark (rank : Nat) : Spelled (arrayMark rank) := by
  unfold arrayMark
  split
  · exact spelled_of_marks (by decide)
  · have hbounds : Spelled (joinWith [','] (List.replicate rank "0:".toList)) := by
      apply spelled_joinWith (by decide)
      intro x hx
      rw [List.eq_of_mem_replicate hx]
      exact (spelled_ofNat 0).append (spelled_of_marks (s := [':']) (by decide))
    have hopen : Spelled ['['] := spelled_of_marks (by decide)
    have hclose : Spelled [']'] := spelled_of_marks (by decide)
    exact hopen.append (hbounds.append hclose)

mutual

/-- A proper normal form is spelled in identifier characters and marks. -/
theorem Proper.spelled : ∀ {t : NormalType}, t.Proper → Spelled t.spelling
  | .methodParameter index, _ => by
    have hticks : Spelled "``".toList := spelled_of_marks (by decide)
    rw [spelling]
    exact hticks.append (spelled_ofNat index)
  | .outerParameter index, _ => by
    have htick : Spelled ['\x60'] := spelled_of_marks (by decide)
    rw [spelling]
    exact htick.append (spelled_ofNat index)
  | .named ss, .named _ hall => by
    rw [spelling]
    exact spelled_joinWith (by decide) (spelled_spellingsOfSegments hall)
  | .array element _, .array commas h => by
    rw [spelling]
    exact h.spelled.append (spelled_arrayMark _)
  | .pointer target, .pointer h => by
    have hstar : Spelled ['*'] := spelled_of_marks (by decide)
    rw [spelling]
    exact h.spelled.append hstar

/-- Proper segments have spellings. -/
theorem spelled_spellingsOfSegments : ∀ {ss : List NormalSegment}, (∀ s ∈ ss, s.Proper) →
    ∀ x ∈ spellingsOfSegments ss, Spelled x
  | [], _ => List.forall_mem_nil _
  | .mk name as :: ss, hall => by
    obtain ⟨⟨hname, has⟩, hss⟩ := List.forall_mem_cons.1 hall
    have harguments : Spelled (argumentText (spellings as)) := by
      cases hspellings : spellings as with
      | nil => exact List.forall_mem_nil _
      | cons x xs => exact spelled_braced (hspellings ▸ spelled_spellings has)
    rw [spellingsOfSegments, List.forall_mem_cons, spellingOfSegment]
    exact ⟨(spelled_of_isIdentifier hname).append harguments, spelled_spellingsOfSegments hss⟩

/-- Proper types have spellings. -/
theorem spelled_spellings : ∀ {ts : List NormalType}, (∀ t ∈ ts, t.Proper) →
    ∀ x ∈ spellings ts, Spelled x
  | [], _ => List.forall_mem_nil _
  | t :: ts, hall => by
    obtain ⟨ht, hts⟩ := List.forall_mem_cons.1 hall
    rw [spellings, List.forall_mem_cons]
    exact ⟨ht.spelled, spelled_spellings hts⟩

end

end NormalType

namespace TypeRef

variable {s : Text} {ts : List TypeToken} {t : TypeRef}

/-- What keeps tokens from being steady is a word behind an at sign or a foreign mark. -/
theorem exists_of_not_steady (h : ¬ Steady ts) :
    (∃ w, escaped w ∈ ts) ∨ ∃ c, mark c ∈ ts ∧ c ∉ typeMarks := by
  by_contra hnone
  rw [not_or, not_exists, not_exists] at hnone
  obtain ⟨hescaped, hmarks⟩ := hnone
  refine h ⟨?_, (List.pairwise_of_forall_mem_list ?_).isChain⟩
  · intro c hc
    by_contra hmark
    exact hmarks c ⟨hc, hmark⟩
  · rintro a _ b hb _ w rfl
    exact hescaped w hb

/-- What keeps the tokens of a text from being steady is a character that no spelling has. -/
theorem exists_odd_of_not_steady (h : ¬ Steady (TypeToken.ofText s)) :
    ∃ c ∈ encodeUnread s, ¬ SpellingChar c := by
  have hwritten := TypeToken.written_ofText s
  rcases exists_of_not_steady h with ⟨w, hw⟩ | ⟨c, hc, hmark⟩
  · refine ⟨'@', mem_encodeUnread (hwritten.at_mem_of_escaped hw) (by decide), ?_⟩
    unfold SpellingChar
    decide +kernel
  · obtain ⟨hmem, hblank, hword⟩ := hwritten.mem_of_mark hc
    refine ⟨c, mem_encodeUnread hmem ?_, ?_⟩
    · simp only [List.mem_cons, List.not_mem_nil, or_false]
      rintro (rfl | rfl | rfl)
      · exact hmark (by decide)
      · exact hmark (by decide)
      · cases hblank
    · rintro (hchar | hchar)
      · rw [hword] at hchar
        cases hchar
      · exact hmark hchar

/-- A type that is built from names is spelled in identifier characters and marks. -/
theorem Built.spelled_encode (h : Built IsName t) (context : TypeContext) :
    NormalType.Spelled (t.encode context) := by
  rw [h.encode_eq_spelling context]
  exact (h.proper_normal context).spelled

end TypeRef

end PartialDocs
