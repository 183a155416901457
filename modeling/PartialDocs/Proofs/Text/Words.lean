import Mathlib.Data.List.Basic
import PartialDocs.Proofs.Text.Cuts
import PartialDocs.Text.Blank
import PartialDocs.Text.Offset

/-!
# Words of a text

Texts that a blank keeps apart have the words of one and then those of the other
(`words_append_of_head`).  A word stands in the text as it is, so that a text in which certain
letters do not follow each other has no word of these letters (`infix_of_mem_words`).
-/

set_option autoImplicit false

namespace PartialDocs.Text

variable {s t w : Text}

/-! ## Words beside each other -/

/-- A text is a single word when it holds no blank. -/
def IsWord (w : Text) : Prop := w ≠ [] ∧ ∀ c ∈ w, isBlankChar c = false

-- The characters are finitely many, and an instance that is searched for may try them all, here
-- and below.
instance (w : Text) : Decidable (IsWord w) :=
  have : Decidable (∀ c ∈ w, isBlankChar c = false) := List.decidableBAll _ w
  inferInstanceAs (Decidable (w ≠ [] ∧ ∀ c ∈ w, isBlankChar c = false))

/-- Whether nothing but a blank may come first. -/
def StartsBlank (s : Text) : Prop := ∀ c ∈ s.head?, isBlankChar c = true

/-- Whether nothing but a blank may come last. -/
def EndsBlank (s : Text) : Prop := ∀ c ∈ s.getLast?, isBlankChar c = true

instance (s : Text) : Decidable (StartsBlank s) := Option.decidableForallMem s.head?

instance (s : Text) : Decidable (EndsBlank s) := Option.decidableForallMem s.getLast?

/-- A blank in front is no word. -/
theorem words_cons_of_blank {c : Char} (hc : isBlankChar c = true) (s : Text) :
    words (c :: s) = words s := by
  rw [words.eq_def]
  exact if_pos hc

/-- A character in front of a blank is a word. -/
theorem words_cons_of_startsBlank {c : Char} (hc : isBlankChar c = false) (hs : StartsBlank s) :
    words (c :: s) = [c] :: words s := by
  rw [words.eq_def]
  simp only
  rw [if_neg (by simp [hc])]
  cases s with
  | nil => rfl
  | cons d s =>
    have hd : isBlankChar d = true := hs d rfl
    exact if_pos hd

/-- A character in front of a word goes on with it. -/
theorem words_cons_cons {c d : Char} (hc : isBlankChar c = false) (hd : isBlankChar d = false)
    (s : Text) : words (c :: d :: s) = consFirst c (words (d :: s)) := by
  rw [words.eq_def]
  simp only
  rw [if_neg (by simp [hc]), if_neg (by simp [hd])]

/-- A character that is no blank makes a word. -/
theorem words_cons_ne_nil {c : Char} (hc : isBlankChar c = false) (s : Text) :
    words (c :: s) ≠ [] := by
  rw [words.eq_def]
  simp only
  rw [if_neg (by simp [hc])]
  split
  · exact List.cons_ne_nil _ _
  · split
    · exact List.cons_ne_nil _ _
    · exact consFirst_ne_nil _ _

/-- **Texts that a blank keeps apart have the words of one and then those of the other.** -/
theorem words_append_of_head (ht : StartsBlank t) (s : Text) :
    words (s ++ t) = words s ++ words t := by
  induction s with
  | nil => rfl
  | cons c s ih =>
    rw [List.cons_append]
    by_cases hc : isBlankChar c = true
    · rw [words_cons_of_blank hc, words_cons_of_blank hc, ih]
    have hc : isBlankChar c = false := by simpa using hc
    cases s with
    | nil =>
      rw [List.nil_append, words_cons_of_startsBlank hc ht,
        words_cons_of_startsBlank hc (s := []) (by simp [StartsBlank])]
      rfl
    | cons d s =>
      by_cases hd : isBlankChar d = true
      · have hstart : ∀ u : Text, StartsBlank (d :: u) := by
          intro u e he
          rw [List.head?_cons, Option.mem_some] at he
          exact he ▸ hd
        have hsome : StartsBlank (d :: s ++ t) := hstart (s ++ t)
        rw [words_cons_of_startsBlank hc hsome, words_cons_of_startsBlank hc (hstart s), ih]
        rfl
      · have hd : isBlankChar d = false := by simpa using hd
        -- the first word goes on, and it is a word of the first text
        obtain ⟨v, vs, hwords⟩ := List.exists_cons_of_ne_nil (words_cons_ne_nil hd s)
        rw [List.cons_append] at ih ⊢
        rw [words_cons_cons hc hd, words_cons_cons hc hd, ih, hwords]
        rfl

/-- Behind a blank a text has its own words. -/
theorem words_append_of_getLast (hs : EndsBlank s) (t : Text) :
    words (s ++ t) = words s ++ words t := by
  rcases List.eq_nil_or_concat' s with rfl | ⟨s, c, rfl⟩
  · rfl
  · have hc : isBlankChar c = true := hs c List.getLast?_concat
    have hstart : ∀ u : Text, StartsBlank (c :: u) := by
      intro u d hd
      rw [List.head?_cons, Option.mem_some] at hd
      exact hd ▸ hc
    rw [List.append_assoc, List.singleton_append, words_append_of_head (hstart t),
      words_append_of_head (hstart []), words_cons_of_blank hc, words_cons_of_blank hc]
    simp [words]

/-- A text without blanks is one word. -/
theorem words_of_isWord (hw : IsWord w) : words w = [w] := by
  obtain ⟨hne, hall⟩ := hw
  induction w with
  | nil => exact absurd rfl hne
  | cons c w ih =>
    obtain ⟨hc, hall⟩ := List.forall_mem_cons.1 hall
    cases w with
    | nil => exact words_cons_of_startsBlank hc (by simp [StartsBlank])
    | cons d w =>
      rw [words_cons_cons hc (hall d List.mem_cons_self), ih (List.cons_ne_nil d w) hall]
      rfl

/-! ## Words within a text -/

/-- The first word goes on up to a blank. -/
theorem words_cons {c : Char} (hc : isBlankChar c = false) (s : Text) :
    words (c :: s) =
      (c :: s.takeWhile fun d => !isBlankChar d) ::
        words (s.dropWhile fun d => !isBlankChar d) := by
  have hword : IsWord (c :: s.takeWhile fun d => !isBlankChar d) := by
    refine ⟨List.cons_ne_nil _ _, List.forall_mem_cons.2 ⟨hc, fun d hd => ?_⟩⟩
    simpa using List.all_eq_true.1 (List.all_takeWhile ..) d hd
  have hrest : StartsBlank (s.dropWhile fun d => !isBlankChar d) := by
    intro d hd
    have hstop := List.head?_dropWhile_not (fun d => !isBlankChar d) s
    rw [Option.mem_def] at hd
    rw [hd] at hstop
    simpa using hstop
  have hwords := words_append_of_head hrest (c :: s.takeWhile fun d => !isBlankChar d)
  rwa [words_of_isWord hword, List.cons_append, List.takeWhile_append_dropWhile] at hwords

/-- **A word stands in the text as it is.** -/
theorem infix_of_mem_words {s : Text} (h : w ∈ words s) : w <:+: s := by
  match s with
  | [] => simp [words] at h
  | c :: s =>
    by_cases hc : isBlankChar c = true
    · rw [words_cons_of_blank hc] at h
      exact (infix_of_mem_words h).trans (List.suffix_cons c s).isInfix
    · rw [words_cons (by simpa using hc)] at h
      rcases List.mem_cons.1 h with rfl | h
      · have hfirst := List.takeWhile_prefix (fun d => !isBlankChar d) (l := s)
        exact ((List.prefix_cons_inj c).2 hfirst).isInfix
      · have hrest := (infix_of_mem_words h).trans (List.dropWhile_suffix _).isInfix
        exact hrest.trans (List.suffix_cons c s).isInfix
termination_by s.length
decreasing_by
  · exact Nat.lt_succ_self _
  · exact Nat.lt_succ_of_le (List.dropWhile_suffix _).length_le

/-! ## The first occurrence of a word -/

/-- What stands before the first occurrence of a word stands before every one. -/
theorem beforeFirst_prefix (hw : w ≠ []) (s t : Text) : beforeFirst w (s ++ (w ++ t)) <+: s := by
  induction s with
  | nil =>
    obtain ⟨c, w', rfl⟩ := List.exists_cons_of_ne_nil hw
    have hfound : (stripPrefix? (c :: w') (c :: (w' ++ t))).isSome = true := by
      have hstrip := stripPrefix?_append (c :: w') t
      rw [List.cons_append] at hstrip
      rw [hstrip]
      rfl
    have hnone : beforeFirst (c :: w') (c :: (w' ++ t)) = [] := by rw [beforeFirst, if_pos hfound]
    exact List.prefix_nil.2 hnone
  | cons c s ih =>
    rw [List.cons_append, beforeFirst]
    split
    · exact List.nil_prefix
    · exact (List.prefix_cons_inj c).2 ih

/-! ## Slices beside each other -/

/-- A slice stands between its two bytes. -/
theorem slice?_eq_some {source : Text} {start stop : Nat} (h : slice? source start stop = some s) :
    ∃ before after, source = before ++ (s ++ after) ∧ byteLength before = start ∧
      byteLength before + byteLength s = stop := by
  unfold slice? at h
  split at h
  · rename_i hle
    rw [Option.bind_eq_some_iff] at h
    obtain ⟨⟨before, rest⟩, hstart, h⟩ := h
    unfold before? at h
    rw [Option.map_eq_some_iff] at h
    obtain ⟨⟨s', after⟩, hstop, rfl⟩ := h
    obtain ⟨rfl, hbefore⟩ := splitAt?_eq_some hstart
    obtain ⟨rfl, hs⟩ := splitAt?_eq_some hstop
    refine ⟨before, after, rfl, hbefore, ?_⟩
    rw [hs, hbefore]
    omega
  · cases h

/-- A stretch of a text is the slice between its bytes. -/
theorem slice?_append (before s after : Text) :
    slice? (before ++ (s ++ after)) (byteLength before) (byteLength before + byteLength s) =
      some s := by
  unfold slice? before?
  rw [if_pos (Nat.le_add_right _ _), splitAt?_append]
  simp only [Option.bind_some, Nat.add_sub_cancel_left, splitAt?_append, Option.map_some]

/-- **Slices beside each other make one slice.** -/
theorem slice?_trans {source : Text} {start middle stop : Nat}
    (hs : slice? source start middle = some s) (ht : slice? source middle stop = some t) :
    slice? source start stop = some (s ++ t) := by
  obtain ⟨before, after, hsource, rfl, rfl⟩ := slice?_eq_some hs
  obtain ⟨before', after', hsource', hmiddle, rfl⟩ := slice?_eq_some ht
  -- a byte cuts the source in one way only
  have hcut := splitAt?_append (before ++ s) after
  have hcut' := splitAt?_append before' (t ++ after')
  rw [byteLength_append, List.append_assoc, ← hsource] at hcut
  rw [hmiddle, ← hsource', hcut, Option.some.injEq, Prod.mk.injEq] at hcut'
  obtain ⟨-, rfl⟩ := hcut'
  have hslice := slice?_append before (s ++ t) after'
  rw [byteLength_append] at hslice
  rw [hmiddle, Nat.add_assoc, hsource]
  rw [List.append_assoc] at hslice
  exact hslice

end PartialDocs.Text
