import Mathlib.Order.Monotone.Basic
import PartialDocs.Proofs.Text.Stretches
import PartialDocs.Text.Letter

/-!
# At signs written into a text

At signs are written in front of the characters that stand at chosen bytes of a text.  Every byte
then stands further down by the number of at signs in front of it (`behindAtSigns`), and a slice of
the text has become the slice with its own at signs (`slice?_withAtSigns`).
-/

set_option autoImplicit false

namespace PartialDocs

/-- Where a byte stands behind at signs that are written in front of the given bytes. -/
def behindAtSigns (bytes : List Nat) (n : Nat) : Nat := n + bytes.countP (· < n)

/-- What stands further down stands further down behind the at signs too. -/
theorem strictMono_behindAtSigns (bytes : List Nat) : StrictMono (behindAtSigns bytes) := by
  intro n k hlt
  have hle : bytes.countP (· < n) ≤ bytes.countP (· < k) := by
    apply List.countP_mono_left
    intro b _ hb
    rw [decide_eq_true_eq] at hb ⊢
    exact Nat.lt_trans hb hlt
  exact Nat.add_lt_add_of_lt_of_le hlt hle

namespace Text

/-- A text that begins at the given byte, with an at sign in front of each character that stands at
a chosen one. -/
def withAtSigns (bytes : List Nat) (n : Nat) : Text → Text
  | [] => []
  | c :: s =>
    if n ∈ bytes then '@' :: c :: withAtSigns bytes (n + c.utf8Size) s
    else c :: withAtSigns bytes (n + c.utf8Size) s

/-- Whether a stretch of a text holds no chosen byte. -/
def Untouched (bytes : List Nat) (source : Text) (start stop : Nat) : Prop :=
  (slice? source start stop).isSome = true ∧ ∀ b ∈ bytes, b < start ∨ stop ≤ b

/-- Whether a word begins at a byte of a text. -/
def WordAt (s : Text) (n : Nat) : Prop :=
  ∃ x ∈ splitAt? s n, (∃ c ∈ x.2.head?, isIdentifierChar c = true) ∧
    ∀ c ∈ x.1.getLast?, isIdentifierChar c = false ∧ c ≠ '@'

instance (bytes : List Nat) (source : Text) (start stop : Nat) :
    Decidable (Untouched bytes source start stop) := inferInstanceAs (Decidable (_ ∧ _))

/-- The condition as it is computed. -/
theorem wordAt_iff {s : Text} {n : Nat} : WordAt s n ↔
    (splitAt? s n).any (fun x => x.2.head?.any isIdentifierChar &&
      x.1.getLast?.all fun c => !isIdentifierChar c && c != '@') = true := by
  simp [WordAt, Option.any_eq_true, Option.all_eq_true]

instance (s : Text) (n : Nat) : Decidable (WordAt s n) := decidable_of_iff' _ wordAt_iff

variable {bytes : List Nat} {n : Nat} {s t a b : Text}

/-! ## Texts beside each other -/

/-- The at signs of texts beside each other. -/
theorem withAtSigns_append (bytes : List Nat) (n : Nat) (s t : Text) :
    withAtSigns bytes n (s ++ t) =
      withAtSigns bytes n s ++ withAtSigns bytes (n + byteLength s) t := by
  induction s generalizing n with
  | nil => rfl
  | cons c s ih =>
    rw [List.cons_append, withAtSigns, withAtSigns, ih, byteLength_cons, Nat.add_assoc]
    split <;> rfl

/-- Without chosen bytes a text stays. -/
theorem withAtSigns_of_clear (h : ∀ b ∈ bytes, b < n ∨ n + byteLength s ≤ b) :
    withAtSigns bytes n s = s := by
  induction s generalizing n with
  | nil => rfl
  | cons c s ih =>
    have hpos := c.utf8Size_pos
    rw [byteLength_cons] at h
    have hnot : n ∉ bytes := fun hmem => by
      have := h n hmem
      omega
    rw [withAtSigns, if_neg hnot, ih fun b hb => by
      have := h b hb
      omega]

/-- Where no byte behind the first character is chosen, an at sign stands in front of the text or
nowhere in it. -/
theorem withAtSigns_cons_of_clear {c : Char}
    (h : ∀ b ∈ bytes, b < n + c.utf8Size ∨ n + c.utf8Size + byteLength s ≤ b) :
    withAtSigns bytes n (c :: s) = if n ∈ bytes then '@' :: c :: s else c :: s := by
  rw [withAtSigns, withAtSigns_of_clear h]

/-! ## Where bytes stand -/

/-- Behind one more character stands one more at sign where the character has one. -/
theorem countP_lt_add {k d : Nat} (nodup : bytes.Nodup) (hd : 0 < d)
    (between : ∀ b ∈ bytes, ¬ (k < b ∧ b < k + d)) :
    bytes.countP (· < k + d) = bytes.countP (· < k) + if k ∈ bytes then 1 else 0 := by
  induction bytes with
  | nil => rfl
  | cons b bytes ih =>
    obtain ⟨hnot, hnodup⟩ := List.nodup_cons.1 nodup
    obtain ⟨hb, hbetween⟩ := List.forall_mem_cons.1 between
    rw [List.countP_cons, List.countP_cons, ih hnodup hbetween]
    by_cases heq : b = k
    · subst heq
      rw [if_neg hnot, if_pos List.mem_cons_self]
      simp [hd]
    · have hmem : (k ∈ b :: bytes) ↔ k ∈ bytes := by
        rw [List.mem_cons, or_iff_right (Ne.symm heq)]
      have hsame : b < k + d ↔ b < k := by omega
      simp only [hmem, hsame]
      omega

/-- Whether chosen bytes are beginnings of characters of a text. -/
def Begins (bytes : List Nat) (source : Text) : Prop := ∀ b ∈ bytes, (before? source b).isSome

/-- No character begins within another one. -/
theorem not_between_of_begins {c : Char} (h : Begins bytes (a ++ c :: b)) :
    ∀ k ∈ bytes, ¬ (byteLength a < k ∧ k < byteLength a + c.utf8Size) := by
  rintro k hk ⟨hlow, hhigh⟩
  obtain ⟨k, rfl⟩ := Nat.exists_eq_add_of_lt hlow
  have hcut := h _ hk
  unfold before? at hcut
  rw [Nat.add_assoc, splitAt?_append_add, splitAt?, if_neg (by omega)] at hcut
  cases hcut

/-- The bytes of a beginning with its at signs. -/
theorem byteLength_withAtSigns (nodup : bytes.Nodup) (h : Begins bytes (a ++ b)) :
    byteLength (withAtSigns bytes 0 a) = behindAtSigns bytes (byteLength a) := by
  induction a using List.reverseRecOn generalizing b with
  | nil =>
    unfold behindAtSigns
    simp [withAtSigns]
  | append_singleton a c ih =>
    rw [List.append_assoc, List.singleton_append] at h
    have hlast := countP_lt_add nodup c.utf8Size_pos (not_between_of_begins h)
    have hbefore := ih h
    have hlength : byteLength (a ++ [c]) = byteLength a + c.utf8Size := byteLength_append a [c]
    have hat : ('@' : Char).utf8Size = 1 := rfl
    unfold behindAtSigns at hbefore ⊢
    rw [withAtSigns_append, byteLength_append, hbefore, hlength, hlast, Nat.zero_add, withAtSigns]
    split <;> simp only [withAtSigns, byteLength_cons, byteLength_nil, hat] <;> omega

/-- **A slice has become the slice with its own at signs.** -/
theorem slice?_withAtSigns {source : Text} {start stop : Nat} (nodup : bytes.Nodup)
    (begins : Begins bytes source) (h : slice? source start stop = some s) :
    slice? (withAtSigns bytes 0 source) (behindAtSigns bytes start) (behindAtSigns bytes stop) =
      some (withAtSigns bytes start s) := by
  obtain ⟨a, b, rfl, rfl, rfl⟩ := slice?_eq_some h
  have hstart := byteLength_withAtSigns nodup begins
  have hstop : byteLength (withAtSigns bytes 0 (a ++ s)) =
      behindAtSigns bytes (byteLength (a ++ s)) :=
    byteLength_withAtSigns nodup (b := b) (by rwa [List.append_assoc])
  rw [withAtSigns_append, byteLength_append, byteLength_append, Nat.zero_add] at hstop
  rw [withAtSigns_append, withAtSigns_append, Nat.zero_add, ← hstart, ← hstop]
  exact slice?_append ..

/-- A stretch without chosen bytes stands further down as it was. -/
theorem Untouched.slice?_eq {source : Text} {start stop : Nat}
    (h : Untouched bytes source start stop) (nodup : bytes.Nodup) (begins : Begins bytes source) :
    slice? (withAtSigns bytes 0 source) (behindAtSigns bytes start) (behindAtSigns bytes stop) =
      slice? source start stop := by
  obtain ⟨hslice, hclear⟩ := h
  obtain ⟨s, hs⟩ := Option.isSome_iff_exists.1 hslice
  obtain ⟨a, b, -, rfl, rfl⟩ := slice?_eq_some hs
  rw [slice?_withAtSigns nodup begins hs, hs, withAtSigns_of_clear hclear]

/-! ## Words -/

/-- Words begin where characters begin. -/
theorem begins_of_wordAt {source : Text} (h : ∀ b ∈ bytes, WordAt source b) :
    Begins bytes source := by
  intro b hb
  obtain ⟨x, hx, -⟩ := h b hb
  unfold before?
  rw [hx]
  rfl

/-- A word that begins within a stretch begins there in the stretch itself. -/
theorem WordAt.within {k : Nat} (h : WordAt (a ++ (s ++ b)) (byteLength a + k))
    (hk : k < byteLength s) : WordAt s k := by
  obtain ⟨x, hx, ⟨c, hc, hword⟩, hlast⟩ := h
  rw [splitAt?_append_add, splitAt?_append_of_le b hk.le, Option.map_map] at hx
  obtain ⟨⟨l, r⟩, hcut, rfl⟩ := Option.map_eq_some_iff.1 hx
  obtain ⟨rfl, rfl⟩ := splitAt?_eq_some hcut
  refine ⟨(l, r), hcut, ⟨c, ?_, hword⟩, ?_⟩
  · cases r with
    | nil =>
      rw [List.append_nil] at hk
      exact absurd hk (lt_irrefl _)
    | cons d r => exact hc
  · intro d hd
    apply hlast d
    simp only [Function.comp_apply]
    rw [List.getLast?_append, hd]
    rfl

/-- The words that begin within a slice begin there in the slice itself. -/
theorem wordAt_of_slice? {source : Text} {start stop : Nat} (h : slice? source start stop = some s)
    (words : ∀ b ∈ bytes, WordAt source b) :
    ∀ b ∈ bytes, start ≤ b → b < start + byteLength s → WordAt s (b - start) := by
  obtain ⟨before, after, rfl, rfl, rfl⟩ := slice?_eq_some h
  intro b hb hlow hhigh
  obtain ⟨k, rfl⟩ := Nat.exists_eq_add_of_le hlow
  rw [Nat.add_sub_cancel_left]
  exact (words _ hb).within (by omega)

end Text

end PartialDocs
