import PartialDocs.Proofs.Text.AtSigns
import PartialDocs.Proofs.TypeRef.Alphabet
import PartialDocs.Proofs.TypeRef.Renaming

/-!
# Words behind an at sign

In a type an at sign in front of a word carries no meaning, unless the word is the name of a tuple
element.  Types of which one has further at signs in front of its words are spelled alike exactly
where that one can still be read (`encodeType_eq_iff_read`), and so an at sign is read in front of
references only.  In front of the declared name of a type parameter it makes another name, which no
reference has (`encodeType_reference`).  This changes the spellings of those types alone that refer
to this type parameter (`encode_among`).
-/

set_option autoImplicit false

namespace PartialDocs

open TypeToken (escaped mark)

namespace TypeToken

/-- Whether a token is another one, or its word behind an at sign. -/
inductive Prefixed : TypeToken → TypeToken → Prop
  | same (token : TypeToken) : Prefixed token token
  | escaped (w : Text) : Prefixed (.word w) (.escaped w)

instance : DecidableRel Prefixed := fun a b =>
  decidable_of_iff (a = b ∨ ∃ w ∈ a.word?, a = .word w ∧ b = .escaped w)
    ⟨by rintro (rfl | ⟨w, -, rfl, rfl⟩); exacts [.same a, .escaped w],
      by rintro (_ | w); exacts [.inl rfl, .inr ⟨w, rfl, rfl, rfl⟩]⟩

variable {a b : TypeToken} {ts us vs : List TypeToken}

/-- An at sign does not change the word of a token. -/
theorem Prefixed.word?_eq (h : Prefixed a b) : a.word? = b.word? := by
  cases h <;> rfl

/-- Only a mark itself stands for a mark. -/
theorem Prefixed.eq_mark {c : Char} (h : Prefixed a (.mark c)) : a = .mark c := by
  cases h
  rfl

/-- Only a word itself stands for a word without an at sign. -/
theorem Prefixed.eq_word {w : Text} (h : Prefixed a (.word w)) : a = .word w := by
  cases h
  rfl

/-- What stands for tokens beside each other. -/
theorem exists_prefixed_append (h : List.Forall₂ Prefixed ts (us ++ vs)) :
    ∃ xs ys, ts = xs ++ ys ∧ List.Forall₂ Prefixed xs us ∧ List.Forall₂ Prefixed ys vs :=
  ⟨_, _, (List.take_append_drop us.length ts).symm, List.forall₂_take_append ts us vs h,
    List.forall₂_drop_append ts us vs h⟩

/-- What stands for a mark and the tokens behind it. -/
theorem exists_prefixed_mark {c : Char} (h : List.Forall₂ Prefixed ts (mark c :: us)) :
    ∃ xs, ts = mark c :: xs ∧ List.Forall₂ Prefixed xs us := by
  obtain ⟨a, xs, ha, hxs, rfl⟩ := List.forall₂_cons_right_iff.1 h
  exact ⟨xs, by rw [ha.eq_mark], hxs⟩

/-- What stands for a name with an alias in front of it. -/
theorem exists_prefixed_alias {first second : TypeToken}
    (h : List.Forall₂ Prefixed ts [first, mark ':', mark ':', second]) :
    ∃ a b, ts = [a, mark ':', mark ':', b] ∧ Prefixed a first ∧ Prefixed b second := by
  obtain ⟨a, xs, ha, hxs, rfl⟩ := List.forall₂_cons_right_iff.1 h
  obtain ⟨ys, rfl, hys⟩ := exists_prefixed_mark hxs
  obtain ⟨zs, rfl, hzs⟩ := exists_prefixed_mark hys
  obtain ⟨b, rest, hb, hrest, rfl⟩ := List.forall₂_cons_right_iff.1 hzs
  cases hrest
  exact ⟨a, b, rfl, ha, hb⟩

/-- Marks are as they were. -/
theorem eq_of_prefixed_marks (h : List.Forall₂ Prefixed ts us)
    (marks : ∀ token ∈ us, token.word? = none) : ts = us := by
  induction h with
  | nil => rfl
  | cons hab _ ih =>
    obtain ⟨hb, hus⟩ := List.forall_mem_cons.1 marks
    rw [ih hus]
    cases hab with
    | same => rfl
    | escaped w => cases hb

/-- What stands in front of marks that stay as they are. -/
theorem exists_prefixed_append_marks (h : List.Forall₂ Prefixed ts (us ++ vs))
    (marks : ∀ token ∈ vs, token.word? = none) :
    ∃ xs, ts = xs ++ vs ∧ List.Forall₂ Prefixed xs us := by
  obtain ⟨xs, ys, rfl, hxs, hys⟩ := exists_prefixed_append h
  exact ⟨xs, by rw [eq_of_prefixed_marks hys marks], hxs⟩

/-! ## The number of at signs -/

/-- Whether a token begins with an at sign. -/
def hasAt : TypeToken → Bool
  | .word _ => false
  | .escaped _ => true
  | .mark c => c == '@'

/-- At signs are only added, and where their number is the same, nothing was. -/
theorem countP_hasAt_le (h : List.Forall₂ Prefixed ts us) :
    ts.countP hasAt ≤ us.countP hasAt ∧ (ts.countP hasAt = us.countP hasAt → ts = us) := by
  induction h with
  | nil => exact ⟨Nat.le_refl _, fun _ => rfl⟩
  | @cons a b ts us hab _ ih =>
    obtain ⟨hle, heq⟩ := ih
    rw [List.countP_cons, List.countP_cons]
    cases hab with
    | same =>
      refine ⟨by omega, fun hcount => ?_⟩
      rw [heq (by omega)]
    | escaped w =>
      have hword : hasAt (.word w) = false := rfl
      have hescaped : hasAt (.escaped w) = true := rfl
      simp only [hword, hescaped, if_true, Bool.false_eq_true, if_false]
      omega

/-- The at signs of a text are those of its tokens. -/
theorem Written.count_at {s : Text} (h : Written ts s) : s.count '@' = ts.countP hasAt := by
  have hnone : ∀ {w : Text}, IsIdentifier w → w.count '@' = 0 := fun hw =>
    List.count_eq_zero.2 (TypeRef.not_mem_of_isIdentifier hw (by decide +kernel))
  induction h with
  | nil => rfl
  | @blank c _ _ hc _ ih =>
    have hat : c ≠ '@' := by
      rintro rfl
      cases hc
    rw [List.count_cons_of_ne hat, ih]
  | word hw _ _ ih =>
    rw [List.count_append, hnone hw, ih, List.countP_cons_of_neg (by simp [hasAt]), Nat.zero_add]
  | escaped hw _ _ ih =>
    rw [List.cons_append, List.count_cons_self, List.count_append, hnone hw, ih,
      List.countP_cons_of_pos rfl, Nat.zero_add]
  | @mark c _ _ _ _ _ _ ih =>
    rw [List.count_cons, List.countP_cons, ih]
    rfl

/-! ## Texts beside each other -/

/-- Whether no word and no at sign goes on where two texts meet. -/
def Apart (left right : Text) : Prop :=
  startsWord right = false ∨ ∀ c ∈ left.getLast?, isIdentifierChar c = false ∧ c ≠ '@'

/-- The end of a text stands apart from what the whole stands apart from. -/
theorem Apart.tail {c : Char} {left right : Text} (h : Apart (c :: left) right) :
    Apart left right := by
  refine h.imp_right fun hlast d hd => hlast d ?_
  rw [List.getLast?_cons, Option.mem_some_iff]
  rw [Option.mem_def] at hd
  rw [hd, Option.getD_some]

/-- Behind a character of a word, or an at sign, no word goes on. -/
theorem Apart.startsWord_append {c : Char} {left right : Text} (h : Apart (c :: left) right)
    (hc : isIdentifierChar c = true ∨ c = '@') (hleft : startsWord left = false) :
    startsWord (left ++ right) = false := by
  cases left with
  | cons d left => exact hleft
  | nil =>
    rcases h with hright | hlast
    · exact hright
    · obtain ⟨hno, hat⟩ := hlast c rfl
      rcases hc with hc | hc
      · rw [hno] at hc
        cases hc
      · exact absurd hc hat

/-- What is behind a beginning stands apart from what the whole stands apart from. -/
theorem Apart.drop {w left right : Text} (h : Apart (w ++ left) right) : Apart left right := by
  induction w with
  | nil => exact h
  | cons c w ih => exact ih h.tail

/-- Behind a word nothing goes on. -/
theorem Apart.startsWord_behind {w left right : Text} (h : Apart (w ++ left) right)
    (hw : IsIdentifier w) (hleft : startsWord left = false) :
    startsWord (left ++ right) = false := by
  obtain ⟨front, c, rfl⟩ := (List.eq_nil_or_concat' w).resolve_left hw.1
  rw [List.append_assoc] at h
  exact h.drop.startsWord_append (.inl (hw.2 c (by simp))) hleft

/-- The tokens of texts that stand apart are those of one and those of the other. -/
theorem Written.append {left right : Text} (hleft : Written ts left) (hright : Written us right)
    (apart : Apart left right) : Written (ts ++ us) (left ++ right) := by
  induction hleft with
  | nil => exact hright
  | blank hc _ ih => exact .blank hc (ih apart.tail)
  | word hw hs _ ih =>
    rw [List.append_assoc]
    exact .word hw (apart.startsWord_behind hw hs) (ih apart.drop)
  | @escaped w _ s hw hs _ ih =>
    have hbehind : Apart (w ++ s) right := apart.tail
    rw [List.append_assoc]
    exact .escaped hw (hbehind.startsWord_behind hw hs) (ih hbehind.drop)
  | mark hblank hword hat _ ih =>
    exact .mark hblank hword (fun hc => apart.startsWord_append (.inr hc) (hat hc))
      (ih apart.tail)

end TypeToken

open TypeToken (Prefixed)

/-- A text that is read as no type keeps its at signs. -/
theorem count_at_encodeUnread (s : Text) : (encodeUnread s).count '@' = s.count '@' := by
  unfold encodeUnread
  rw [List.count_filter (by decide), Text.replace_singleton, Text.replace_singleton, List.map_map]
  induction s with
  | nil => rfl
  | cons c s ih =>
    rw [List.map_cons, List.count_cons, List.count_cons, ih, Function.comp_apply]
    by_cases hclose : c = '>'
    · subst hclose
      rfl
    · by_cases hopen : c = '<'
      · subst hopen
        rfl
      · rw [if_neg hclose, if_neg hopen]

namespace TypeRef

/-! ## Reading without the at signs -/

/-- Without at signs in front of words the same name is spelled. -/
theorem SpellsName.of_prefixed {ts us : List TypeToken} {name : Text} (h : SpellsName us name)
    (hts : List.Forall₂ Prefixed ts us) : SpellsName ts name := by
  cases h with
  | word hw =>
    obtain ⟨a, xs, ha, hxs, rfl⟩ := List.forall₂_cons_right_iff.1 hts
    cases hxs
    exact .word (ha.word?_eq.trans hw)
  | global hfirst hsecond =>
    obtain ⟨a, b, rfl, ha, hb⟩ := TypeToken.exists_prefixed_alias hts
    exact .global (ha.word?_eq.trans hfirst) (hb.word?_eq.trans hsecond)
  | aliased hfirst hother hsecond =>
    obtain ⟨a, b, rfl, ha, hb⟩ := TypeToken.exists_prefixed_alias hts
    exact .aliased (ha.word?_eq.trans hfirst) hother (hb.word?_eq.trans hsecond)

/-- Without at signs in front of words the name of an element is left, or none. -/
theorem ElementName.of_prefixed {ts us : List TypeToken} (h : ElementName us)
    (hts : List.Forall₂ Prefixed ts us) : ElementName ts := by
  cases h with
  | missing =>
    cases hts
    exact .missing
  | word w =>
    obtain ⟨a, xs, ha, hxs, rfl⟩ := List.forall₂_cons_right_iff.1 hts
    cases hxs
    rw [ha.eq_word]
    exact .word w

mutual

/-- Without at signs in front of words the same type is derived. -/
theorem SpellsType.of_prefixed : ∀ {us : List TypeToken} {t : TypeRef}, SpellsType us t →
    ∀ {ts : List TypeToken}, List.Forall₂ Prefixed ts us → SpellsType ts t
  | _, _, .tuple h, ts, hts => by
    obtain ⟨xs, rfl, hxs⟩ := TypeToken.exists_prefixed_append_marks hts (by simp [TypeToken.word?])
    obtain ⟨ys, rfl, hys⟩ := TypeToken.exists_prefixed_mark hxs
    exact .tuple (h.of_prefixed hys)
  | _, _, .named h, ts, hts => .named (h.of_prefixed hts)
  | _, _, .nullable h, ts, hts => by
    obtain ⟨xs, rfl, hxs⟩ := TypeToken.exists_prefixed_append_marks hts (by simp [TypeToken.word?])
    exact .nullable (h.of_prefixed hxs)
  | _, _, .pointer h, ts, hts => by
    obtain ⟨xs, rfl, hxs⟩ := TypeToken.exists_prefixed_append_marks hts (by simp [TypeToken.word?])
    exact .pointer (h.of_prefixed hxs)
  | _, _, .array commas h, ts, hts => by
    have hmarks : ∀ token ∈ mark '[' :: (List.replicate commas (mark ',') ++ [mark ']']),
        token.word? = none := by
      simp only [List.mem_cons, List.mem_append, List.mem_replicate, List.not_mem_nil, or_false]
      rintro token (rfl | ⟨-, rfl⟩ | rfl) <;> rfl
    obtain ⟨xs, rfl, hxs⟩ := TypeToken.exists_prefixed_append_marks hts hmarks
    exact .array commas (h.of_prefixed hxs)

/-- Without at signs in front of words the same tuple elements are derived. -/
theorem SpellsElements.of_prefixed : ∀ {us : List TypeToken} {es : List TypeRef},
    SpellsElements us es →
    ∀ {ts : List TypeToken}, List.Forall₂ Prefixed ts us → SpellsElements ts es
  | _, _, .last h hname, ts, hts => by
    obtain ⟨xs, ys, rfl, hxs, hys⟩ := TypeToken.exists_prefixed_append hts
    exact .last (h.of_prefixed hxs) (hname.of_prefixed hys)
  | _, _, .more h hname hmore, ts, hts => by
    obtain ⟨xs, ys, rfl, hxs, hys⟩ := TypeToken.exists_prefixed_append hts
    obtain ⟨zs, rest, rfl, hzs, hrest⟩ := TypeToken.exists_prefixed_append hys
    obtain ⟨more, rfl, hmark⟩ := TypeToken.exists_prefixed_mark hrest
    exact .more (h.of_prefixed hxs) (hname.of_prefixed hzs) (hmore.of_prefixed hmark)

/-- Without at signs in front of words the same type arguments are derived. -/
theorem SpellsArguments.of_prefixed : ∀ {us : List TypeToken} {as : List TypeRef},
    SpellsArguments us as →
    ∀ {ts : List TypeToken}, List.Forall₂ Prefixed ts us → SpellsArguments ts as
  | _, _, .last h, ts, hts => .last (h.of_prefixed hts)
  | _, _, .more h hmore, ts, hts => by
    obtain ⟨xs, ys, rfl, hxs, hys⟩ := TypeToken.exists_prefixed_append hts
    obtain ⟨rest, rfl, hrest⟩ := TypeToken.exists_prefixed_mark hys
    exact .more (h.of_prefixed hxs) (hmore.of_prefixed hrest)

/-- Without at signs in front of words the same arguments between angle brackets are derived. -/
theorem SpellsBracketed.of_prefixed : ∀ {us : List TypeToken} {as : List TypeRef},
    SpellsBracketed us as →
    ∀ {ts : List TypeToken}, List.Forall₂ Prefixed ts us → SpellsBracketed ts as
  | _, _, .missing, ts, hts => by
    cases hts
    exact .missing
  | _, _, .given h, ts, hts => by
    obtain ⟨xs, rfl, hxs⟩ := TypeToken.exists_prefixed_append_marks hts (by simp [TypeToken.word?])
    obtain ⟨ys, rfl, hys⟩ := TypeToken.exists_prefixed_mark hxs
    exact .given (h.of_prefixed hys)

/-- Without at signs in front of words the same segments are derived. -/
theorem SpellsSegments.of_prefixed : ∀ {us : List TypeToken} {ss : List TypeSegment},
    SpellsSegments us ss →
    ∀ {ts : List TypeToken}, List.Forall₂ Prefixed ts us → SpellsSegments ts ss
  | _, _, .last hname h, ts, hts => by
    obtain ⟨xs, ys, rfl, hxs, hys⟩ := TypeToken.exists_prefixed_append hts
    exact .last (hname.of_prefixed hxs) (h.of_prefixed hys)
  | _, _, .more hname h hmore, ts, hts => by
    obtain ⟨xs, ys, rfl, hxs, hys⟩ := TypeToken.exists_prefixed_append hts
    obtain ⟨zs, rest, rfl, hzs, hrest⟩ := TypeToken.exists_prefixed_append hys
    obtain ⟨more, rfl, hmark⟩ := TypeToken.exists_prefixed_mark hrest
    exact .more (hname.of_prefixed hxs) (h.of_prefixed hzs) (hmore.of_prefixed hmark)

end

/-- Whether one text is another one with at signs in front of some of its words. -/
def PrefixedText (s s' : Text) : Prop :=
  List.Forall₂ Prefixed (TypeToken.ofText s) (TypeToken.ofText s')

instance (s s' : Text) : Decidable (PrefixedText s s') :=
  inferInstanceAs (Decidable (List.Forall₂ Prefixed _ _))

/-- An at sign may be written in front of any word of a text. -/
theorem prefixedText_insert {left w right : Text} (hw : IsIdentifier w)
    (hleft : ∀ c ∈ left.getLast?, isIdentifierChar c = false ∧ c ≠ '@')
    (hright : TypeToken.startsWord right = false) :
    PrefixedText (left ++ (w ++ right)) (left ++ '@' :: (w ++ right)) := by
  have hplain := (TypeToken.written_ofText left).append
    (.word hw hright (TypeToken.written_ofText right)) (.inr hleft)
  have hescaped := (TypeToken.written_ofText left).append
    (.escaped hw hright (TypeToken.written_ofText right)) (.inr hleft)
  have hafter := List.Forall₂.cons (Prefixed.escaped w)
    (List.forall₂_same.2 fun token (_ : token ∈ TypeToken.ofText right) => .same token)
  unfold PrefixedText
  rw [hplain.ofText_eq]
  exact hescaped.ofText_eq ▸ List.rel_append
    (List.forall₂_same.2 fun token _ => .same token) hafter

/-! ## At signs in front of words -/

section

open Text (withAtSigns WordAt)

variable {bytes : List Nat} {n : Nat} {w s : Text}

/-- No word begins where none goes on, with or without at signs. -/
theorem startsWord_withAtSigns (h : TypeToken.startsWord s = false) :
    TypeToken.startsWord (withAtSigns bytes n s) = false := by
  cases s with
  | nil => rfl
  | cons c s =>
    unfold withAtSigns
    split
    · exact (by decide +kernel : isIdentifierChar '@' = false)
    · exact h

/-- No word begins behind an at sign. -/
theorem not_wordAt_behind_at (s : Text) : ¬ WordAt ('@' :: s) 1 := by
  rintro ⟨x, hx, -, hlast⟩
  have hcut : Text.splitAt? ('@' :: s) 1 = some (['@'], s) := Text.splitAt?_append ['@'] s
  rw [hcut] at hx
  cases hx
  exact (hlast '@' rfl).2 rfl

/-- In front of a character with which no word begins stands no at sign. -/
theorem withAtSigns_cons_of_not_word {c : Char} (hc : isIdentifierChar c = false)
    (words : ∀ b ∈ bytes, n ≤ b → b < n + Text.byteLength (c :: s) → WordAt (c :: s) (b - n)) :
    withAtSigns bytes n (c :: s) = c :: withAtSigns bytes (n + c.utf8Size) s := by
  have hpos := c.utf8Size_pos
  have hnot : n ∉ bytes := by
    intro hmem
    obtain ⟨x, hx, ⟨d, hd, hword⟩, -⟩ := words n hmem le_rfl (by
      rw [Text.byteLength_cons]
      omega)
    rw [Nat.sub_self] at hx
    cases hx
    cases hd
    rw [hc] at hword
    cases hword
  rw [withAtSigns, if_neg hnot]

/-- The words behind a beginning of a text. -/
theorem wordAt_behind {a : Text}
    (words : ∀ b ∈ bytes, n ≤ b → b < n + Text.byteLength (a ++ s) → WordAt (a ++ s) (b - n)) :
    ∀ b ∈ bytes, n + Text.byteLength a ≤ b → b < n + Text.byteLength a + Text.byteLength s →
      WordAt s (b - (n + Text.byteLength a)) := by
  intro b hb hlow hhigh
  obtain ⟨k, rfl⟩ := Nat.exists_eq_add_of_le hlow
  have hword := words _ hb (by omega) (by
    rw [Text.byteLength_append]
    omega)
  rw [Nat.add_assoc, Nat.add_sub_cancel_left] at hword
  rw [Nat.add_sub_cancel_left]
  refine Text.WordAt.within (a := a) (b := []) ?_ (by omega)
  rwa [List.append_nil]

/-- Only in front of a whole word can an at sign stand. -/
theorem withAtSigns_word (hw : IsIdentifier w)
    (words : ∀ b ∈ bytes, n ≤ b → b < n + Text.byteLength (w ++ s) → WordAt (w ++ s) (b - n)) :
    withAtSigns bytes n w = if n ∈ bytes then '@' :: w else w := by
  obtain ⟨c, rest, rfl⟩ := List.exists_cons_of_ne_nil hw.1
  refine Text.withAtSigns_cons_of_clear fun b hb => ?_
  by_contra hwithin
  rw [not_or, not_lt, not_le] at hwithin
  obtain ⟨hlow, hhigh⟩ := hwithin
  obtain ⟨⟨l, r⟩, hcut, -, hlast⟩ := words b hb (by omega) (by
    rw [Text.byteLength_append, Text.byteLength_cons]
    omega)
  rw [Text.splitAt?_append_of_le s (by
    rw [Text.byteLength_cons]
    omega)] at hcut
  obtain ⟨⟨x, y⟩, hxy, heq⟩ := Option.map_eq_some_iff.1 hcut
  cases heq
  obtain ⟨hword, hlength⟩ := Text.splitAt?_eq_some hxy
  -- in front of the byte stands a character of the word
  have hpos := c.utf8Size_pos
  obtain ⟨front, d, rfl⟩ := (List.eq_nil_or_concat' x).resolve_left fun hnil => by
    rw [hnil, Text.byteLength_nil] at hlength
    omega
  have hd := (hlast d (by simp)).1
  rw [hw.2 d (by rw [hword]; simp)] at hd
  cases hd

/-- The tokens of a text of which some words have got at signs. -/
theorem exists_written_withAtSigns {ts : List TypeToken} (hts : TypeToken.Written ts s)
    (words : ∀ b ∈ bytes, n ≤ b → b < n + Text.byteLength s → WordAt s (b - n)) :
    ∃ us, TypeToken.Written us (withAtSigns bytes n s) ∧ List.Forall₂ Prefixed ts us := by
  induction hts generalizing n with
  | nil => exact ⟨[], .nil, .nil⟩
  | @blank c ts s hc _ ih =>
    rw [withAtSigns_cons_of_not_word (isIdentifierChar_of_isBlankChar hc) words]
    obtain ⟨us, hus, hprefixed⟩ := ih (wordAt_behind (a := [c]) words)
    exact ⟨us, .blank hc hus, hprefixed⟩
  | @word w ts s hw hs _ ih =>
    rw [Text.withAtSigns_append, withAtSigns_word hw words]
    obtain ⟨us, hus, hprefixed⟩ := ih (wordAt_behind words)
    split
    · exact ⟨_, .escaped hw (startsWord_withAtSigns hs) hus, .cons (.escaped w) hprefixed⟩
    · exact ⟨_, .word hw (startsWord_withAtSigns hs) hus, .cons (.same _) hprefixed⟩
  | @escaped w ts s hw hs _ ih =>
    have hat : isIdentifierChar '@' = false := by decide +kernel
    rw [List.cons_append] at words ⊢
    have hbehind := wordAt_behind (a := ['@']) (s := w ++ s) words
    have hlength : Text.byteLength ['@'] = ('@' : Char).utf8Size := rfl
    rw [hlength] at hbehind
    have hnot : n + ('@' : Char).utf8Size ∉ bytes := by
      intro hmem
      obtain ⟨c, rest, rfl⟩ := List.exists_cons_of_ne_nil hw.1
      have hpos := c.utf8Size_pos
      have hword := words _ hmem (by omega) (by
        simp only [List.cons_append, Text.byteLength_cons]
        omega)
      rw [Nat.add_sub_cancel_left] at hword
      exact not_wordAt_behind_at _ hword
    rw [withAtSigns_cons_of_not_word hat words, Text.withAtSigns_append,
      withAtSigns_word hw hbehind, if_neg hnot]
    obtain ⟨us, hus, hprefixed⟩ := ih (wordAt_behind hbehind)
    exact ⟨_, .escaped hw (startsWord_withAtSigns hs) hus, .cons (.same _) hprefixed⟩
  | @mark c ts s hblank hword hat _ ih =>
    rw [withAtSigns_cons_of_not_word hword words]
    obtain ⟨us, hus, hprefixed⟩ := ih (wordAt_behind (a := [c]) words)
    exact ⟨_, .mark hblank hword (fun hc => startsWord_withAtSigns (hat hc)) hus,
      .cons (.same _) hprefixed⟩

/-- **At signs may be written in front of any words of a text.** -/
theorem prefixedText_withAtSigns
    (words : ∀ b ∈ bytes, n ≤ b → b < n + Text.byteLength s → WordAt s (b - n)) :
    PrefixedText s (withAtSigns bytes n s) := by
  obtain ⟨us, hus, hprefixed⟩ := exists_written_withAtSigns (TypeToken.written_ofText s) words
  unfold PrefixedText
  rwa [hus.ofText_eq]

end

variable {s s' : Text} {t : TypeRef} {context other : TypeContext}

/-- What is read with at signs is read without them. -/
theorem PrefixedText.ofText?_eq (h : PrefixedText s s') (ht : ofText? s' = some t) :
    ofText? s = some t := by
  rw [ofText?_eq_some_iff_spells] at ht ⊢
  exact ht.of_prefixed h

/-- A text has as many at signs as its tokens. -/
theorem count_at_ofText (s : Text) : s.count '@' = (TypeToken.ofText s).countP TypeToken.hasAt :=
  (TypeToken.written_ofText s).count_at

/-- A type that is read is encoded as what is read. -/
theorem encodeType_of_read (ht : ofText? s = some t) (context : TypeContext) :
    encodeType context s = t.encode context := by
  unfold encodeType
  rw [ht]

/-- A type that is not read is encoded by its text. -/
theorem encodeType_of_unread (h : ofText? s = none) (context : TypeContext) :
    encodeType context s = encodeUnread s := by
  unfold encodeType
  rw [h]

/-- **Further at signs in front of words do not change the spelling of a type exactly where it can
still be read.** -/
theorem encodeType_eq_iff_read (h : PrefixedText s s')
    (more : TypeToken.ofText s ≠ TypeToken.ofText s') (context : TypeContext) :
    encodeType context s = encodeType context s' ↔ (ofText? s').isSome := by
  constructor
  · intro heq
    rw [Option.isSome_iff_ne_none]
    intro hnone
    -- more at signs would be left of the unread text
    have hless : s.count '@' < s'.count '@' := by
      obtain ⟨hle, hsame⟩ := TypeToken.countP_hasAt_le h
      rw [count_at_ofText, count_at_ofText]
      exact Nat.lt_of_le_of_ne hle fun hcount => more (hsame hcount)
    have hcount := congrArg (List.count '@') heq
    rw [encodeType_of_unread hnone, count_at_encodeUnread] at hcount
    cases hread : ofText? s with
    | none =>
      rw [encodeType_of_unread hread, count_at_encodeUnread] at hcount
      omega
    | some t =>
      have hnever : (t.encode context).count '@' = 0 := by
        rw [List.count_eq_zero]
        intro hat
        have hodd : ¬ SpellingChar '@' := by
          unfold SpellingChar
          decide +kernel
        exact hodd ((built_of_ofText? hread).spelled_encode context _ hat)
      rw [encodeType_of_read hread, hnever] at hcount
      omega
  · intro hread
    obtain ⟨t, ht⟩ := Option.isSome_iff_exists.1 hread
    rw [encodeType_of_read ht, encodeType_of_read (h.ofText?_eq ht)]

/-- An at sign in front of one word does not change the spelling of a type exactly where it can
still be read. -/
theorem encodeType_insert_iff_read {left w right : Text} (hw : IsIdentifier w)
    (hleft : ∀ c ∈ left.getLast?, isIdentifierChar c = false ∧ c ≠ '@')
    (hright : TypeToken.startsWord right = false) (context : TypeContext) :
    encodeType context (left ++ (w ++ right)) = encodeType context (left ++ '@' :: (w ++ right)) ↔
      (ofText? (left ++ '@' :: (w ++ right))).isSome = true := by
  refine encodeType_eq_iff_read (prefixedText_insert hw hleft hright) ?_ context
  intro hsame
  have hcount := count_at_ofText (left ++ (w ++ right))
  rw [hsame, ← count_at_ofText] at hcount
  simp only [List.count_append, List.count_cons_self] at hcount
  omega

/-! ## Among type parameters behind at signs -/

mutual

/-- A type whose words are not renamed is the same. -/
theorem mapWords_id : ∀ t : TypeRef, t.mapWords id = t
  | .named ss => by
    by_cases hword : ∃ name, ss = [.mk name []]
    · obtain ⟨name, rfl⟩ := hword
      rfl
    · rw [not_exists] at hword
      rw [mapWords_named hword, mapSegments_id ss]
  | .nullable inner => by rw [mapWords, mapWords_id inner]
  | .array element rank => by rw [mapWords, mapWords_id element]
  | .pointer target => by rw [mapWords, mapWords_id target]
  | .tuple es => by rw [mapWords, mapAll_id es]

/-- Segments whose words are not renamed are the same. -/
theorem mapSegments_id : ∀ ss : List TypeSegment, mapSegments id ss = ss
  | [] => rfl
  | .mk name as :: ss => by rw [mapSegments, mapSegment, mapAll_id as, mapSegments_id ss]

/-- Types whose words are not renamed are the same. -/
theorem mapAll_id : ∀ ts : List TypeRef, mapAll id ts = ts
  | [] => rfl
  | t :: ts => by rw [mapAll, mapWords_id t, mapAll_id ts]

end

variable {P : Text → Prop}

mutual

/-- The words of a type are among its names. -/
theorem Built.words : ∀ {t : TypeRef}, Built P t → ∀ w ∈ t.words, P w
  | .named ss, .named _ hall => by
    by_cases hword : ∃ name, ss = [.mk name []]
    · obtain ⟨name, rfl⟩ := hword
      obtain ⟨hname, -⟩ := hall _ List.mem_cons_self
      exact List.forall_mem_singleton.2 hname
    · rw [not_exists] at hword
      rw [words_named hword]
      exact words_of_builtSegments hall
  | .nullable inner, .nullable h => h.words
  | .array element _, .array _ h => h.words
  | .pointer target, .pointer h => h.words
  | .tuple es, .tuple _ hall => words_of_builtAll hall

/-- The words of segments are among their names. -/
theorem words_of_builtSegments : ∀ {ss : List TypeSegment}, (∀ s ∈ ss, BuiltSegment P s) →
    ∀ w ∈ wordsOfSegments ss, P w
  | [], _ => List.forall_mem_nil _
  | .mk name as :: ss, hall => by
    obtain ⟨⟨-, has⟩, hss⟩ := List.forall_mem_cons.1 hall
    exact List.forall_mem_append.2 ⟨words_of_builtAll has, words_of_builtSegments hss⟩

/-- The words of types are among their names. -/
theorem words_of_builtAll : ∀ {ts : List TypeRef}, (∀ t ∈ ts, Built P t) →
    ∀ w ∈ wordsOfAll ts, P w
  | [], _ => List.forall_mem_nil _
  | t :: ts, hall => by
    obtain ⟨ht, hts⟩ := List.forall_mem_cons.1 hall
    exact List.forall_mem_append.2 ⟨ht.words, words_of_builtAll hts⟩

end

/-- A name has no at sign. -/
theorem IsName.at_not_mem {name : Text} (h : IsName name) : '@' ∉ name := by
  have hidentifier : ∀ {w : Text}, IsIdentifier w → '@' ∉ w := fun hw =>
    not_mem_of_isIdentifier hw (by decide +kernel)
  obtain hname | ⟨v, w, hv, hw, rfl⟩ := h
  · exact hidentifier hname
  · simp [hidentifier hv, hidentifier hw]

end TypeRef

/-- Whether a declared name is another one or, if it is among the chosen ones, that one behind an at
sign. -/
def DeclaredAs (chosen : Text → Prop) (n n' : Text) : Prop := n' = n ∨ chosen n ∧ n' = '@' :: n

instance {chosen : Text → Prop} [DecidablePred chosen] (n n' : Text) :
    Decidable (DeclaredAs chosen n n') :=
  inferInstanceAs (Decidable (_ ∨ _))

namespace TypeContext

/-- Whether the type parameters of one context are those of another one, of which chosen ones may be
declared behind an at sign. -/
structure DeclaredAs (chosen : Text → Prop) (context other : TypeContext) : Prop where
  outer : List.Forall₂ (PartialDocs.DeclaredAs chosen) context.outer other.outer
  method : List.Forall₂ (PartialDocs.DeclaredAs chosen) context.method other.method

variable {chosen : Text → Prop} {context other : TypeContext} {w : Text}

/-- Names behind an at sign do not move the other ones. -/
theorem idxOf?_of_declaredAs {names names' : List Text}
    (h : List.Forall₂ (PartialDocs.DeclaredAs chosen) names names') (hw : ¬ chosen w)
    (hat : '@' ∉ w) : names'.idxOf? w = names.idxOf? w := by
  induction h with
  | nil => rfl
  | @cons n n' names names' hn _ ih =>
    rw [List.idxOf?_cons, List.idxOf?_cons, ih]
    obtain rfl | ⟨hchosen, rfl⟩ := hn
    · rfl
    · have hmarked : '@' :: n ≠ w := by
        rintro rfl
        exact hat List.mem_cons_self
      have hplain : n ≠ w := by
        rintro rfl
        exact hw hchosen
      rw [if_neg (by simpa using hmarked), if_neg (by simpa using hplain)]

/-- Names behind an at sign do not move the last place of the other ones. -/
theorem lastIdxOf?_of_declaredAs {names names' : List Text}
    (h : List.Forall₂ (PartialDocs.DeclaredAs chosen) names names') (hw : ¬ chosen w)
    (hat : '@' ∉ w) : lastIdxOf? names' w = lastIdxOf? names w := by
  unfold lastIdxOf?
  rw [idxOf?_of_declaredAs (List.forall₂_reverse_iff.2 h) hw hat, h.length_eq]

/-- A word without an at sign means the same unless it is chosen. -/
theorem DeclaredAs.meaning?_eq (h : context.DeclaredAs chosen other) (hw : ¬ chosen w)
    (hat : '@' ∉ w) : other.meaning? w = context.meaning? w := by
  unfold meaning?
  rw [idxOf?_of_declaredAs h.method hw hat, lastIdxOf?_of_declaredAs h.outer hw hat]

/-- A type parameter is encoded by its number behind backticks. -/
theorem tick_mem_of_meaning? {x : Text} (hkeyword : builtInType? w = none)
    (h : context.meaning? w = some x) : '\x60' ∈ x := by
  unfold meaning? at h
  rw [hkeyword, Option.map_none, Option.none_or, Option.or_eq_some_iff, Option.map_eq_some_iff,
    Option.map_eq_some_iff] at h
  rcases h with ⟨i, -, rfl⟩ | ⟨-, i, -, rfl⟩
  · exact List.mem_append_left _ List.mem_cons_self
  · exact List.mem_cons_self

end TypeContext

namespace TypeRef

variable {chosen : Text → Prop} {context other : TypeContext} {t : TypeRef} {s w : Text}

/-- At signs in front of declared type parameters do not change a type that does not refer to
them. -/
theorem encode_among (h : context.DeclaredAs chosen other) (ht : Built IsName t)
    (hwords : ∀ w ∈ t.words, ¬ chosen w) : t.encode other = t.encode context := by
  have hsame : ∀ w ∈ t.words, SameWord context other w (id w) := by
    intro w hw
    refine ⟨?_, rfl⟩
    rw [id_eq, h.meaning?_eq (hwords w hw) (ht.words w hw).at_not_mem]
  have hencode := encode_mapWords hsame
  rwa [mapWords_id] at hencode

/-- The two ways to write a reference that is one word. -/
theorem ofText?_reference (hw : IsIdentifier w) (hs : s = w ∨ s = '@' :: w) :
    ofText? s = some (word w) := by
  rcases hs with rfl | rfl
  · have htokens := TypeToken.ofText_word hw (s := []) rfl
    rw [List.append_nil] at htokens
    exact ofText?_of_tokens htokens (.of_word rfl)
  · have htokens := TypeToken.ofText_escaped hw (s := []) rfl
    rw [List.append_nil] at htokens
    exact ofText?_of_tokens htokens (.of_word rfl)

/-- **A reference is encoded by what its word stands for, with or without an at sign, and it refers
to a type parameter exactly where one is declared under this word without an at sign.** -/
theorem encodeType_reference (context : TypeContext) (hw : IsIdentifier w)
    (hkeyword : builtInType? w = none) (hs : s = w ∨ s = '@' :: w) :
    encodeType context s = (context.meaning? w).getD w ∧
      (encodeType context s = w ↔ w ∉ context.outer ∧ w ∉ context.method) := by
  have hencode : encodeType context s = (context.meaning? w).getD w :=
    encodeType_of_read (ofText?_reference hw hs) context
  refine ⟨hencode, ?_⟩
  rw [hencode]
  constructor
  · intro hplain
    by_contra hbound
    have hmem : w ∈ context.outer ∨ w ∈ context.method := by
      rwa [← not_or, not_not] at hbound
    obtain ⟨x, hx⟩ := Option.isSome_iff_exists.1 (TypeContext.isSome_meaning? hmem)
    rw [hx, Option.getD_some] at hplain
    have htick := TypeContext.tick_mem_of_meaning? hkeyword hx
    exact not_mem_of_isIdentifier hw (by decide +kernel) (hplain ▸ htick)
  · rintro ⟨houter, hmethod⟩
    rw [TypeContext.meaning?_of_not_mem houter hmethod, hkeyword]
    rfl

end TypeRef

end PartialDocs
