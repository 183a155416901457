import PartialDocs.Merge
import PartialDocs.Proofs.Declaration.Roles
import PartialDocs.Proofs.Text.Cuts

/-!
# Merging the comments of well-formed pieces

What `mergeComments` makes of the comments of a symbol whose pieces fit it.  A type has
every comment that is there, a partial method the comment of its implementing piece, or
of the defining piece where it has no other, and any other symbol the comment of its one
piece.  An implementing piece without a comment leaves the method without one.
-/

set_option autoImplicit false

namespace PartialDocs

/-- The comments of pieces by role. -/
def roled (cs : List (Piece × Option Text)) : List RoledComment :=
  cs.map fun x => (x.1.role, x.2)

/-- Whether a body is made of the comments that are there, one below the other.  Without any comment
there is no body. -/
structure Stacked (cs : List (Piece × Option Text)) (body : Option Text) : Prop where
  absent : (∀ x ∈ cs, x.2 = none) → body = none
  present : (∃ x ∈ cs, x.2 ≠ none) → body = some (Text.unlines (cs.filterMap Prod.snd))

/-- Whether a body is another one with the comments of further pieces below it. -/
structure GoesOn (new : List (Piece × Option Text)) (body body' : Option Text) : Prop where
  silent : (∀ x ∈ new, x.2 = none) → body' = body
  first : body = none → (∃ x ∈ new, x.2 ≠ none) →
    body' = some (Text.unlines (new.filterMap Prod.snd))
  below : ∀ text, body = some text → (∃ x ∈ new, x.2 ≠ none) →
    body' = some (text ++ '\n' :: Text.unlines (new.filterMap Prod.snd))

/-- Pieces without comments are those of which no comment is left. -/
theorem filterMap_snd_eq_nil_iff {cs : List (Piece × Option Text)} :
    cs.filterMap Prod.snd = [] ↔ ∀ x ∈ cs, x.2 = none :=
  List.filterMap_eq_nil_iff

/-- There is a comment when one of the pieces has one. -/
theorem filterMap_snd_ne_nil_iff {cs : List (Piece × Option Text)} :
    cs.filterMap Prod.snd ≠ [] ↔ ∃ x ∈ cs, x.2 ≠ none := by
  rw [Ne, filterMap_snd_eq_nil_iff]
  simp

/-- The comments of further pieces stand below those of the first ones. -/
theorem Stacked.goesOn {cs new : List (Piece × Option Text)} {body body' : Option Text}
    (h : Stacked cs body) (h' : Stacked (cs ++ new) body') : GoesOn new body body' := by
  have hcut : (cs ++ new).filterMap Prod.snd =
      cs.filterMap Prod.snd ++ new.filterMap Prod.snd := List.filterMap_append
  have hall : (∃ x ∈ new, x.2 ≠ none) →
      body' = some (Text.unlines (cs.filterMap Prod.snd ++ new.filterMap Prod.snd)) := by
    rintro ⟨x, hx, hne⟩
    rw [h'.present ⟨x, List.mem_append_right cs hx, hne⟩, hcut]
  by_cases hcs : ∀ x ∈ cs, x.2 = none
  · have hnil := filterMap_snd_eq_nil_iff.2 hcs
    rw [h.absent hcs]
    refine ⟨?_, ?_, by simp⟩
    · exact fun hnew => h'.absent (List.forall_mem_append.2 ⟨hcs, hnew⟩)
    · intro _ hnew
      rw [hall hnew, hnil, List.nil_append]
  · have hsome : ∃ x ∈ cs, x.2 ≠ none := by simpa using hcs
    rw [h.present hsome]
    refine ⟨?_, by simp, ?_⟩
    · intro hnew
      obtain ⟨x, hx, hne⟩ := hsome
      rw [h'.present ⟨x, List.mem_append_left new hx, hne⟩, hcut, filterMap_snd_eq_nil_iff.2 hnew,
        List.append_nil]
    · intro text htext hnew
      rw [hall hnew, Text.unlines_append (filterMap_snd_ne_nil_iff.2 hsome)
        (filterMap_snd_ne_nil_iff.2 hnew), Option.some.inj htext]

/-! ## Pieces of a role -/

/-- The only piece of a role is the last one. -/
theorem lastOfRole?_eq_some {role : Role} {cs : List RoledComment} {c : RoledComment}
    (hc : c ∈ cs) (hrole : c.1 = role) (one : cs.countP (fun x => x.1 == role) ≤ 1) :
    lastOfRole? role cs = some c := by
  have hmem : c ∈ cs.filter fun x => x.1 == role := by
    rw [List.mem_filter]
    exact ⟨hc, by simpa using hrole⟩
  have honly : cs.filter (fun x => x.1 == role) = [c] := by
    rw [List.countP_eq_length_filter] at one
    match hf : cs.filter fun x => x.1 == role with
    | [] => simp [hf] at hmem
    | [d] =>
      rw [hf, List.mem_singleton] at hmem
      rw [hmem, hf]
    | _ :: _ :: _ => simp [hf] at one
  unfold lastOfRole?
  rw [← List.head?_filter, List.filter_reverse, honly]
  rfl

/-- Without a piece of a role there is no comment of one. -/
theorem lastOfRole?_eq_none {role : Role} {cs : List RoledComment}
    (h : ∀ c ∈ cs, c.1 ≠ role) : lastOfRole? role cs = none := by
  unfold lastOfRole?
  rw [List.find?_eq_none]
  intro c hc
  simpa using h c (List.mem_reverse.1 hc)

/-- The pieces of a role are counted with their comments. -/
theorem countP_roled (role : Role) (cs : List (Piece × Option Text)) :
    (roled cs).countP (fun x => x.1 == role) =
      (cs.map Prod.fst).countP (fun p => p.role == role) := by
  unfold roled
  rw [List.countP_map, List.countP_map]
  rfl

/-! ## The three sorts of symbols -/

variable {s : Symbol} {cs : List (Piece × Option Text)}

/-- The comments of a type are put below each other. -/
theorem ofSymbol_of_type (type : s.kind.isType = true) :
    MergePolicy.ofSymbol s = .concatenate := by
  unfold MergePolicy.ofSymbol
  rw [if_pos type]

/-- Of the comments of a partial method one is chosen. -/
theorem ofSymbol_of_partialMethod (method : s.isPartialMethod = true) :
    MergePolicy.ofSymbol s = .override := by
  unfold MergePolicy.ofSymbol
  rw [if_neg (by simp [isType_of_isPartialMethod method]), if_pos method]

/-- The comment of any other member is passed through. -/
theorem ofSymbol_of_other (type : s.kind.isType = false) (method : s.isPartialMethod = false) :
    MergePolicy.ofSymbol s = .passThrough := by
  unfold MergePolicy.ofSymbol
  rw [if_neg (by simp [type]), if_neg (by simp [method])]

/-- Roles do not matter to which comments there are. -/
theorem filterMap_roled (cs : List (Piece × Option Text)) :
    (roled cs).filterMap Prod.snd = cs.filterMap Prod.snd := by
  unfold roled
  rw [List.filterMap_map]
  rfl

/-- A type without any comment is not documented. -/
theorem merge_type_none (type : s.kind.isType = true) (h : ∀ x ∈ cs, x.2 = none) :
    mergeComments (.ofSymbol s) (roled cs) = none := by
  have hnil : cs.filterMap Prod.snd = [] := by
    rw [List.filterMap_eq_nil_iff]
    exact h
  rw [ofSymbol_of_type type, mergeComments, concatenateComments, filterMap_roled, hnil]

/-- All comments of a type that are there document it. -/
theorem merge_type (type : s.kind.isType = true) (h : ∃ x ∈ cs, x.2 ≠ none) :
    mergeComments (.ofSymbol s) (roled cs) = some (Text.unlines (cs.filterMap Prod.snd)) := by
  rw [ofSymbol_of_type type, mergeComments, concatenateComments, filterMap_roled]
  split
  · rename_i hnil
    obtain ⟨x, hx, hne⟩ := h
    rw [List.filterMap_eq_nil_iff] at hnil
    exact absurd (hnil x hx) hne
  · rfl

/-- The body of a type is made of all its comments. -/
theorem stacked_of_type (type : s.kind.isType = true) :
    Stacked cs (mergeComments (.ofSymbol s) (roled cs)) :=
  ⟨merge_type_none type, merge_type type⟩

/-- The implementing piece decides, whether or not it has a comment. -/
theorem merge_implemented (method : s.isPartialMethod = true)
    (fit : PiecesFit s (cs.map Prod.fst)) {x : Piece × Option Text} (hx : x ∈ cs)
    (role : x.1.role = .implementing) : mergeComments (.ofSymbol s) (roled cs) = x.2 := by
  have hlast : lastOfRole? .implementing (roled cs) = some (x.1.role, x.2) := by
    refine lastOfRole?_eq_some (List.mem_map_of_mem hx) role ?_
    rw [countP_roled]
    exact fit.implementing
  rw [ofSymbol_of_partialMethod method, mergeComments, overrideComments, hlast]
  rfl

/-- A partial method without an implementing piece has one piece, the defining one. -/
theorem eq_singleton_of_unimplemented (method : s.isPartialMethod = true)
    (fit : PiecesFit s (cs.map Prod.fst)) (h : ∀ x ∈ cs, x.1.role ≠ .implementing) :
    ∃ x, cs = [x] ∧ x.1.role = .defining := by
  have hdefining : ∀ x ∈ cs, x.1.role = .defining := by
    intro x hx
    rcases (fit.fits x.1 (List.mem_map_of_mem hx)).eq_defining_or_implementing method with hr | hr
    · exact hr
    · exact absurd hr (h x hx)
  have hall : (cs.map Prod.fst).countP (fun p => p.role == .defining) = cs.length := by
    rw [List.countP_map, List.countP_eq_length]
    intro x hx
    simpa using hdefining x hx
  have hle : cs.length ≤ 1 := hall ▸ fit.defining
  have hpos : 0 < cs.length := by simpa [List.length_pos_iff] using fit.nonempty
  obtain ⟨x, rfl⟩ := List.length_eq_one_iff.1 (show cs.length = 1 by omega)
  exact ⟨x, rfl, hdefining x (by simp)⟩

/-- The defining piece decides where it is the only one. -/
theorem merge_unimplemented (method : s.isPartialMethod = true) {x : Piece × Option Text}
    (role : x.1.role = .defining) : mergeComments (.ofSymbol s) (roled [x]) = x.2 := by
  have himplementing : lastOfRole? .implementing (roled [x]) = none :=
    lastOfRole?_eq_none (by simp [roled, role])
  have hdefining : lastOfRole? .defining (roled [x]) = some (x.1.role, x.2) :=
    lastOfRole?_eq_some (by simp [roled]) role List.countP_le_length
  rw [ofSymbol_of_partialMethod method, mergeComments, overrideComments, himplementing, hdefining]
  rfl

/-- Any other symbol has one piece. -/
theorem eq_singleton_of_other (type : s.kind.isType = false) (method : s.isPartialMethod = false)
    (fit : PiecesFit s (cs.map Prod.fst)) : ∃ x, cs = [x] := by
  have hnot : s.isPartial = false := by
    cases hpart : s.isPartial with
    | false => rfl
    | true =>
      obtain ⟨p, hp⟩ := List.exists_mem_of_ne_nil _ fit.nonempty
      rcases (fit.fits p hp).kind_of_isPartial hpart with htype | hkind
      · simp [type] at htype
      · simp [isPartialMethod_iff.2 ⟨hkind, hpart⟩] at method
  have hone := fit.single hnot
  rw [List.length_map] at hone
  exact List.length_eq_one_iff.1 hone

/-- The one comment of any other member is its own. -/
theorem merge_other (type : s.kind.isType = false) (method : s.isPartialMethod = false)
    (x : Piece × Option Text) : mergeComments (.ofSymbol s) (roled [x]) = x.2 := by
  rw [ofSymbol_of_other type method]
  rfl

/-! ## Other orders -/

/-- How comments are merged depends on whether they are those of a type or of a partial method. -/
theorem ofSymbol_congr {t : Symbol} (type : s.kind.isType = t.kind.isType)
    (method : s.isPartialMethod = t.isPartialMethod) :
    MergePolicy.ofSymbol s = MergePolicy.ofSymbol t := by
  unfold MergePolicy.ofSymbol
  rw [type, method]

/-- A partial method is implemented by the same comment in whichever order its pieces stand, and any
other member has one piece only. -/
theorem mergeComments_eq_of_perm {t : Symbol} {ds : List (Piece × Option Text)}
    (member : s.kind.isType = false) (type : s.kind.isType = t.kind.isType)
    (method : s.isPartialMethod = t.isPartialMethod) (fit : PiecesFit s (cs.map Prod.fst))
    (fit' : PiecesFit t (ds.map Prod.fst)) (perm : (roled ds).Perm (roled cs)) :
    mergeComments (.ofSymbol t) (roled ds) = mergeComments (.ofSymbol s) (roled cs) := by
  have hsingle : (∃ x, cs = [x]) →
      mergeComments (.ofSymbol t) (roled ds) = mergeComments (.ofSymbol s) (roled cs) := by
    rintro ⟨x, rfl⟩
    have hroled : roled ds = roled [x] := List.perm_singleton.1 perm
    rw [hroled, ofSymbol_congr type method]
  cases hmethod : s.isPartialMethod with
  | false => exact hsingle (eq_singleton_of_other member hmethod fit)
  | true =>
    by_cases himplemented : ∃ x ∈ cs, x.1.role = .implementing
    · obtain ⟨x, hx, hrole⟩ := himplemented
      have hmem : (x.1.role, x.2) ∈ roled ds := perm.mem_iff.2 (List.mem_map_of_mem hx)
      obtain ⟨y, hy, hyx⟩ := List.mem_map.1 hmem
      obtain ⟨hroles, hcomments⟩ := Prod.mk.inj hyx
      rw [merge_implemented hmethod fit hx hrole,
        merge_implemented (method ▸ hmethod) fit' hy (hroles.trans hrole), hcomments]
    · have hnone : ∀ x ∈ cs, x.1.role ≠ .implementing := fun x hx hrole =>
        himplemented ⟨x, hx, hrole⟩
      obtain ⟨x, hx, -⟩ := eq_singleton_of_unimplemented hmethod fit hnone
      exact hsingle ⟨x, hx⟩

end PartialDocs
