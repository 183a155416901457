import Mathlib.Data.List.Forall2
import PartialDocs.Proofs.Text.Cuts

/-!
# Texts whose brackets are closed

A list of texts with commas between them can be taken apart again when no text has a comma
outside of its own brackets.  `openAfter?` counts the brackets that are open after a text, all
sorts of brackets alike, and gives up at a comma outside of them.  `joinWith_inj_of_closed`
says that the list is known from the joined text.
-/

set_option autoImplicit false

namespace PartialDocs.Text

/-- Whether a character opens brackets. -/
def isOpening (c : Char) : Bool := "([<\x7b".toList.contains c

/-- Whether a character closes brackets. -/
def isClosing (c : Char) : Bool := ")]>\x7d".toList.contains c

/-- The number of brackets that are open after a text, given how many are before it.  There is none
where a bracket is closed that is not open, or where a comma stands outside of brackets. -/
def openAfter? : Nat → Text → Option Nat
  | depth, [] => some depth
  | depth, c :: rest =>
    if isOpening c then openAfter? (depth + 1) rest
    else if isClosing c then if depth = 0 then none else openAfter? (depth - 1) rest
    else if depth = 0 ∧ c = ',' then none
    else openAfter? depth rest

/-- Whether all brackets of a text are closed and all its commas stand in brackets. -/
def Closed (s : Text) : Prop := openAfter? 0 s = some 0

instance (s : Text) : Decidable (Closed s) := inferInstanceAs (Decidable (_ = _))

variable {s t : Text} {m n : Nat}

/-- How many brackets are open behind two texts. -/
theorem openAfter?_append (m : Nat) (s t : Text) :
    openAfter? m (s ++ t) = (openAfter? m s).bind fun n => openAfter? n t := by
  fun_induction openAfter? m s with
  | case1 => rfl
  | case2 m c rest hopen ih => rw [List.cons_append, openAfter?, if_pos hopen, ih]
  | case3 c rest hopen hclose =>
    rw [List.cons_append, openAfter?, if_neg hopen, if_pos hclose, if_pos rfl]
    rfl
  | case4 m c rest hopen hclose hm ih =>
    rw [List.cons_append, openAfter?, if_neg hopen, if_pos hclose, if_neg hm, ih]
  | case5 m c rest hopen hclose hcomma =>
    rw [List.cons_append, openAfter?, if_neg hopen, if_neg hclose, if_pos hcomma]
    rfl
  | case6 m c rest hopen hclose hcomma ih =>
    rw [List.cons_append, openAfter?, if_neg hopen, if_neg hclose, if_neg hcomma, ih]

/-- More brackets around a text stay open behind it. -/
theorem openAfter?_add (k : Nat) (h : openAfter? m s = some n) :
    openAfter? (m + k) s = some (n + k) := by
  fun_induction openAfter? m s with
  | case1 m =>
    obtain rfl : m = n := Option.some.inj h
    rfl
  | case2 m c rest hopen ih =>
    have hdepth : m + k + 1 = m + 1 + k := by omega
    rw [openAfter?, if_pos hopen, hdepth, ih h]
  | case3 => cases h
  | case4 m c rest hopen hclose hm ih =>
    have hdepth : m + k - 1 = m - 1 + k := by omega
    rw [openAfter?, if_neg hopen, if_pos hclose, if_neg (by omega), hdepth, ih h]
  | case5 => cases h
  | case6 m c rest hopen hclose hcomma ih =>
    have hcomma' : ¬(m + k = 0 ∧ c = ',') := by
      intro hboth
      apply hcomma
      exact ⟨by omega, hboth.2⟩
    rw [openAfter?, if_neg hopen, if_neg hclose, if_neg hcomma', ih h]

/-- Closed text leaves brackets as they are. -/
theorem Closed.openAfter? (h : Closed s) (m : Nat) (t : Text) :
    Text.openAfter? m (s ++ t) = Text.openAfter? m t := by
  have hs := openAfter?_add m h
  rw [Nat.zero_add] at hs
  rw [openAfter?_append, hs]
  rfl

/-- The empty text is closed. -/
theorem closed_nil : Closed [] := rfl

/-- Closed texts beside each other are closed. -/
theorem Closed.append (hs : Closed s) (ht : Closed t) : Closed (s ++ t) := by
  unfold Closed
  rw [hs.openAfter? 0 t]
  exact ht

/-- A text without brackets and commas is closed. -/
theorem closed_of_forall
    (h : ∀ c ∈ s, isOpening c = false ∧ isClosing c = false ∧ c ≠ ',') : Closed s := by
  induction s with
  | nil => exact closed_nil
  | cons c rest ih =>
    obtain ⟨⟨hopen, hclose, hcomma⟩, hrest⟩ := List.forall_mem_cons.1 h
    have := ih hrest
    unfold Closed at this ⊢
    simpa [Text.openAfter?, hopen, hclose, hcomma] using this

/-- A text of characters of which none is a bracket or a comma is closed. -/
theorem closed_of_all {p : Char → Bool} (h : ∀ c ∈ s, p c = true)
    (hp : "([<\x7b)]>\x7d,".toList.any p = false) : Closed s := by
  apply closed_of_forall
  intro c hc
  have hnot : c ∉ "([<\x7b)]>\x7d,".toList := fun hmem =>
    List.any_eq_false.1 hp c hmem (h c hc)
  simp only [isOpening, isClosing, List.contains_eq_mem, decide_eq_false_iff_not]
  simp_all

/-- Characters may be exchanged for others of the same sort. -/
theorem openAfter?_map {f : Char → Char} (hopen : ∀ c, isOpening (f c) = isOpening c)
    (hclose : ∀ c, isClosing (f c) = isClosing c) (hcomma : ∀ c, f c = ',' ↔ c = ',')
    (m : Nat) (s : Text) : openAfter? m (s.map f) = openAfter? m s := by
  induction s generalizing m with
  | nil => rfl
  | cons c rest ih =>
    rw [List.map_cons, openAfter?, openAfter?, hopen, hclose, ih, ih, ih]
    simp only [hcomma]

/-- Characters that are neither brackets nor commas may be left out. -/
theorem openAfter?_filter {p : Char → Bool}
    (h : ∀ c, p c = false → isOpening c = false ∧ isClosing c = false ∧ c ≠ ',')
    (m : Nat) (s : Text) : openAfter? m (s.filter p) = openAfter? m s := by
  induction s generalizing m with
  | nil => rfl
  | cons c rest ih =>
    cases hp : p c with
    | true => rw [List.filter_cons_of_pos hp, openAfter?, openAfter?, ih, ih, ih]
    | false =>
      obtain ⟨hopen, hclose, hcomma⟩ := h c hp
      rw [List.filter_cons_of_neg (by simp [hp]), ih, openAfter?]
      simp [hopen, hclose, hcomma]

/-! ## Lists between commas -/

/-- A comma does not close a bracket around it. -/
theorem openAfter?_joinWith {xs : List Text} (h : ∀ x ∈ xs, Closed x) (m : Nat) :
    openAfter? (m + 1) (joinWith [','] xs) = some (m + 1) := by
  induction xs with
  | nil => rfl
  | cons x rest ih =>
    obtain ⟨hx, hrest⟩ := List.forall_mem_cons.1 h
    cases rest with
    | nil =>
      have hlast := hx.openAfter? (m + 1) []
      rwa [List.append_nil] at hlast
    | cons y rest =>
      rw [joinWith, List.append_assoc, hx.openAfter?, List.singleton_append, openAfter?,
        if_neg (by decide), if_neg (by decide), if_neg (by omega)]
      exact ih hrest

/-- A list of closed texts in brackets is closed. -/
theorem closed_bracketed {xs : List Text} (h : ∀ x ∈ xs, Closed x) {o c : Char}
    (hopen : isOpening o = true) (hclose : isClosing c = true) (hne : isOpening c = false) :
    Closed (o :: joinWith [','] xs ++ [c]) := by
  unfold Closed
  rw [List.cons_append, openAfter?, if_pos hopen, openAfter?_append, openAfter?_joinWith h 0]
  simp [openAfter?, hne, hclose]

/-- Closed texts between dots are closed. -/
theorem closed_joinWith_dot {xs : List Text} (h : ∀ x ∈ xs, Closed x) :
    Closed (joinWith ['.'] xs) := by
  induction xs with
  | nil => exact closed_nil
  | cons x rest ih =>
    obtain ⟨hx, hrest⟩ := List.forall_mem_cons.1 h
    cases rest with
    | nil => exact hx
    | cons y rest =>
      have hdot : Closed ['.'] := by decide
      exact (hx.append hdot).append (ih hrest)

/-- Whether a character ends a closed text: a comma or a bracket that closes. -/
def IsStop (c : Char) : Prop := isOpening c = false ∧ (isClosing c = true ∨ c = ',')

instance (c : Char) : Decidable (IsStop c) := inferInstanceAs (Decidable (_ ∧ _))

/-- A closed text does not go on behind a comma or bracket that belongs to none of its own. -/
theorem not_closed_append_stop {c : Char} (hs : Closed s) (hc : IsStop c) (t : Text) :
    ¬ Closed (s ++ c :: t) := by
  obtain ⟨hopen, hstop⟩ := hc
  intro h
  unfold Closed at h
  rw [hs.openAfter?, openAfter?, if_neg (by simp [hopen])] at h
  cases hclose : isClosing c with
  | true =>
    rw [if_pos hclose, if_pos rfl] at h
    cases h
  | false =>
    have hcomma : c = ',' := hstop.resolve_left (by simp [hclose])
    rw [if_neg (by simp [hclose]), if_pos ⟨rfl, hcomma⟩] at h
    cases h

/-- Closed texts before such characters are the same where the texts with their rests are. -/
theorem Closed.append_stop_inj {c d : Char} {u v : Text} (hs : Closed s) (ht : Closed t)
    (hc : IsStop c) (hd : IsStop d) (h : s ++ c :: u = t ++ d :: v) :
    s = t ∧ c = d ∧ u = v := by
  rcases List.append_eq_append_iff.1 h with ⟨w, hw, hrest⟩ | ⟨w, hw, hrest⟩
  · cases w with
    | nil =>
      rw [List.append_nil] at hw
      exact ⟨hw.symm, List.cons.inj hrest⟩
    | cons e w =>
      obtain ⟨rfl, -⟩ := List.cons.inj hrest
      exact absurd (hw ▸ ht) (not_closed_append_stop hs hc w)
  · cases w with
    | nil =>
      rw [List.append_nil] at hw
      obtain ⟨hdc, hvu⟩ := List.cons.inj hrest
      exact ⟨hw, hdc.symm, hvu.symm⟩
    | cons e w =>
      obtain ⟨rfl, -⟩ := List.cons.inj hrest
      exact absurd (hw ▸ hs) (not_closed_append_stop ht hd w)

/-- Closed texts between commas are known from what stands before the bracket that closes behind
them. -/
theorem joinWith_append_closing_inj {xs ys : List Text} {c : Char} {u v : Text}
    (hxs : ∀ x ∈ xs, Closed x) (hys : ∀ y ∈ ys, Closed y) (hx : xs ≠ []) (hy : ys ≠ [])
    (hc : IsStop c) (hne : c ≠ ',')
    (h : joinWith [','] xs ++ c :: u = joinWith [','] ys ++ c :: v) : xs = ys ∧ u = v := by
  induction xs generalizing ys with
  | nil => exact absurd rfl hx
  | cons x xs ih =>
    obtain ⟨y, ys, rfl⟩ := List.exists_cons_of_ne_nil hy
    obtain ⟨hxc, hxs⟩ := List.forall_mem_cons.1 hxs
    obtain ⟨hyc, hys⟩ := List.forall_mem_cons.1 hys
    have hcomma : IsStop ',' := by decide
    -- the first texts end at a comma or at the bracket, and both at the same
    match xs, ys with
    | [], [] =>
      obtain ⟨rfl, -, rfl⟩ := hxc.append_stop_inj hyc hc hc h
      exact ⟨rfl, rfl⟩
    | [], y' :: ys =>
      have hxy : x ++ c :: u = y ++ ',' :: (joinWith [','] (y' :: ys) ++ c :: v) := by
        simpa [joinWith] using h
      exact absurd (hxc.append_stop_inj hyc hc hcomma hxy).2.1 hne
    | x' :: xs, [] =>
      have hxy : x ++ ',' :: (joinWith [','] (x' :: xs) ++ c :: u) = y ++ c :: v := by
        simpa [joinWith] using h
      exact absurd (hxc.append_stop_inj hyc hcomma hc hxy).2.1.symm hne
    | x' :: xs, y' :: ys =>
      have hxy : x ++ ',' :: (joinWith [','] (x' :: xs) ++ c :: u) =
          y ++ ',' :: (joinWith [','] (y' :: ys) ++ c :: v) := by
        simpa [joinWith] using h
      obtain ⟨rfl, -, hrest⟩ := hxc.append_stop_inj hyc hcomma hcomma hxy
      obtain ⟨hothers, huv⟩ := ih hxs hys (by simp) (by simp) hrest
      exact ⟨by rw [hothers], huv⟩

/-- **Closed texts are known from the text that joins them with commas, unless one of two lists is
empty.** -/
theorem joinWith_inj_of_closed {xs ys : List Text} (hxs : ∀ x ∈ xs, Closed x)
    (hys : ∀ y ∈ ys, Closed y) (hx : xs ≠ []) (hy : ys ≠ [])
    (h : joinWith [','] xs = joinWith [','] ys) : xs = ys := by
  have hbracket : joinWith [','] xs ++ [')'] = joinWith [','] ys ++ [')'] := by rw [h]
  exact (joinWith_append_closing_inj hxs hys hx hy (by decide) (by decide) hbracket).1

/-- Texts of which any two in one place are the same or both closed are known from the text that
joins them with commas. -/
theorem joinWith_inj_of_forall₂ {xs ys : List Text}
    (h : List.Forall₂ (fun x y => x = y ∨ Closed x ∧ Closed y) xs ys)
    (heq : joinWith [','] xs = joinWith [','] ys) : xs = ys := by
  induction h with
  | nil => rfl
  | @cons x y xs ys hxy hmore ih =>
    have hcomma : IsStop ',' := by decide
    cases hmore with
    | nil =>
      obtain rfl : x = y := heq
      rfl
    | @cons x' y' xs ys hxy' hmore =>
      have hrest : x ++ ',' :: joinWith [','] (x' :: xs) =
          y ++ ',' :: joinWith [','] (y' :: ys) := by
        simpa [joinWith] using heq
      obtain rfl | ⟨hx, hy⟩ := hxy
      · rw [ih (List.cons.inj (List.append_cancel_left hrest)).2]
      · obtain ⟨rfl, -, htail⟩ := hx.append_stop_inj hy hcomma hcomma hrest
        rw [ih htail]

end PartialDocs.Text
