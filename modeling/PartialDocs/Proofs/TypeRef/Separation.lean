import PartialDocs.Proofs.TypeRef.NormalForm

/-!
# Parameters between commas

The spelling of a type that can be read closes its brackets and has commas in them only.  So does
the spelling of an unread type as it was written.  The parameters of a member can therefore be
counted in their spelling (`length_eq_of_encodeParameters_eq`), and parameters with readable types
always leave a trace there (`encodeParameters_eq_nil`).
-/

set_option autoImplicit false

namespace PartialDocs

open Text (Closed)

/-! ## Types that cannot be read -/

/-- A bracket may be exchanged for another one that opens or closes like it. -/
theorem closed_replace {old new : Char} {s : Text} (hopen : Text.isOpening old = Text.isOpening new)
    (hclose : Text.isClosing old = Text.isClosing new) (hold : old ≠ ',') (hnew : new ≠ ',')
    (h : Closed s) : Closed (Text.replace old [new] s) := by
  unfold Closed
  rw [Text.replace_singleton, Text.openAfter?_map]
  · exact h
  · intro c
    split
    · rename_i hc
      rw [hc, hopen]
    · rfl
  · intro c
    split
    · rename_i hc
      rw [hc, hclose]
    · rfl
  · intro c
    split
    · rename_i hc
      simp [hc, hold, hnew]
    · rfl

/-- A closed text that is not read is encoded by a closed one. -/
theorem closed_encodeUnread {s : Text} (h : Closed s) : Closed (encodeUnread s) := by
  have hbraces : Closed (Text.replace '<' ['\x7b'] (Text.replace '>' ['\x7d'] s)) := by
    apply closed_replace (by decide) (by decide) (by decide) (by decide)
    exact closed_replace (by decide) (by decide) (by decide) (by decide) h
  unfold Closed encodeUnread
  rw [Text.openAfter?_filter]
  · exact hbraces
  · intro c hc
    obtain rfl : c = ' ' := by simpa using hc
    decide

/-- A text that is not blank has an encoding. -/
theorem encodeUnread_ne_nil {s : Text} {c : Char} (hc : c ∈ s) (hne : c ≠ ' ') :
    encodeUnread s ≠ [] := by
  have hmem : ∀ (old new : Char) {d : Char} {t : Text}, new ≠ ' ' → d ∈ t → d ≠ ' ' →
      ∃ e ∈ Text.replace old [new] t, e ≠ ' ' := by
    intro old new d t hnew hd hdne
    rw [Text.replace_singleton]
    refine ⟨_, List.mem_map_of_mem hd, ?_⟩
    split
    · exact hnew
    · exact hdne
  obtain ⟨d, hd, hdne⟩ := hmem '>' '\x7d' (by decide) hc hne
  obtain ⟨e, he, hene⟩ := hmem '<' '\x7b' (by decide) hd hdne
  have hkept : e ∈ encodeUnread s := List.mem_filter.2 ⟨he, by simpa using hene⟩
  exact List.ne_nil_of_mem hkept

/-! ## Parameters -/

/-- Whether a parameter has a type that leaves a trace in the spelling and can be told from others
there: one that can be read, or at least one that is no blank and closes its brackets. -/
def WellSpelled (p : Parameter) : Prop :=
  (TypeRef.ofText? p.type).isSome ∨ Closed p.type ∧ ∃ c ∈ p.type, c ≠ ' '

instance (p : Parameter) : Decidable (WellSpelled p) :=
  inferInstanceAs (Decidable (_ ∨ _ ∧ ∃ c ∈ p.type, c ≠ ' '))

variable {p : Parameter} {ps qs : List Parameter}

/-- A well-spelled parameter has a closed encoding. -/
theorem WellSpelled.closed (h : WellSpelled p) (context : TypeContext) :
    Closed (encodeParameter context p) := by
  have htype : Closed (encodeType context p.type) := by
    unfold encodeType
    obtain hread | ⟨hclosed, -⟩ := h
    · obtain ⟨t, ht⟩ := Option.isSome_iff_exists.1 hread
      simp only [ht]
      exact TypeRef.closed_encode_of_ofText? ht context
    · split
      · exact TypeRef.closed_encode_of_ofText? ‹_› context
      · exact closed_encodeUnread hclosed
  unfold encodeParameter
  apply htype.append
  split <;> decide

/-- A well-spelled parameter has an encoding. -/
theorem WellSpelled.ne_nil (h : WellSpelled p) (context : TypeContext) :
    encodeParameter context p ≠ [] := by
  unfold encodeParameter encodeType
  apply List.append_ne_nil_of_left_ne_nil
  split
  · exact TypeRef.encode_ne_nil_of_ofText? ‹_› context
  · rename_i hread
    obtain hsome | ⟨-, c, hc, hne⟩ := h
    · simp [hread] at hsome
    · exact encodeUnread_ne_nil hc hne

/-- Only an empty list of well-spelled parameters is spelled by nothing. -/
theorem encodeParameters_ne_nil (h : ∀ p ∈ ps, WellSpelled p) (hne : ps ≠ [])
    (context : TypeContext) : encodeParameters context ps ≠ [] := by
  unfold encodeParameters
  match ps with
  | [] => exact absurd rfl hne
  | [p] =>
    rw [List.map_singleton, Text.joinWith]
    exact (h p List.mem_cons_self).ne_nil context
  | p :: q :: rest => simp [Text.joinWith]

/-- Only an empty list of parameters with readable types is spelled by nothing. -/
theorem encodeParameters_eq_nil (context : TypeContext)
    (h : ∀ p ∈ ps, (TypeRef.ofText? p.type).isSome) :
    encodeParameters context ps = [] ↔ ps = [] := by
  constructor
  · intro hnil
    by_contra hne
    exact encodeParameters_ne_nil (fun p hp => .inl (h p hp)) hne context hnil
  · rintro rfl
    rfl

/-- The spellings of well-spelled parameters are known from the text that joins them, also where
their types mention different type parameters. -/
theorem map_eq_of_encodeParameters_eq {context other : TypeContext}
    (hps : ∀ p ∈ ps, WellSpelled p) (hqs : ∀ q ∈ qs, WellSpelled q)
    (h : encodeParameters context ps = encodeParameters other qs) :
    ps.map (encodeParameter context) = qs.map (encodeParameter other) := by
  have hclosed : ∀ {rs : List Parameter} {context : TypeContext}, (∀ r ∈ rs, WellSpelled r) →
      ∀ x ∈ rs.map (encodeParameter context), Closed x := by
    intro rs context hrs x hx
    obtain ⟨r, hr, rfl⟩ := List.mem_map.1 hx
    exact (hrs r hr).closed context
  by_cases hp : ps = []
  · by_cases hq : qs = []
    · rw [hp, hq]
      rfl
    · subst hp
      exact absurd h.symm (encodeParameters_ne_nil hqs hq other)
  · by_cases hq : qs = []
    · subst hq
      exact absurd h (encodeParameters_ne_nil hps hp context)
    · exact Text.joinWith_inj_of_closed (hclosed hps) (hclosed hqs) (by simpa using hp)
        (by simpa using hq) h

/-- **Well-spelled parameters that are spelled alike are equally many.** -/
theorem length_eq_of_encodeParameters_eq {context other : TypeContext}
    (hps : ∀ p ∈ ps, WellSpelled p) (hqs : ∀ q ∈ qs, WellSpelled q)
    (h : encodeParameters context ps = encodeParameters other qs) : ps.length = qs.length := by
  simpa using congrArg List.length (map_eq_of_encodeParameters_eq hps hqs h)

end PartialDocs
