import PartialDocs.Declaration.Head
import PartialDocs.Index.Builder

/-!
# Roles of pieces

Which roles the pieces of a symbol may have.  `Role.Fits` speaks of one piece and its
symbol, `PiecesFit` of all the pieces of a symbol together: a first piece that fits makes
a list that fits, and so does every further piece that the symbol takes.  The rest of the
file reads `PiecesFit` off for the three sorts of symbols.
-/

set_option autoImplicit false

namespace PartialDocs

/-- Whether a piece of this role may declare the symbol. -/
def Role.Fits (s : Symbol) : Role → Prop
  | .whole => s.isPartial = false
  | .part => s.isPartial = true ∧ s.kind.isType = true
  | .defining => s.isPartialMethod = true
  | .implementing => s.isPartialMethod = true

/-- What the pieces of a symbol are like. -/
structure PiecesFit (s : Symbol) (pieces : List Piece) : Prop where
  nonempty : pieces ≠ []
  fits : ∀ p ∈ pieces, p.role.Fits s
  /-- A symbol that is not partial has one piece. -/
  single : s.isPartial = false → pieces.length = 1
  defining : pieces.countP (fun p => p.role == .defining) ≤ 1
  implementing : pieces.countP (fun p => p.role == .implementing) ≤ 1

variable {s t : Symbol} {p : Piece} {pieces : List Piece} {r : Role}

/-- A partial method is a method that is partial. -/
theorem isPartialMethod_iff : s.isPartialMethod = true ↔ s.kind = .method ∧ s.isPartial = true := by
  simp [Symbol.isPartialMethod]

/-- A partial method is no type. -/
theorem isType_of_isPartialMethod (h : s.isPartialMethod = true) : s.kind.isType = false := by
  rw [(isPartialMethod_iff.1 h).1]
  rfl

/-! ## One piece -/

/-- A piece of a symbol that is not partial is the whole of it. -/
theorem Role.Fits.eq_whole (h : r.Fits s) (hs : s.isPartial = false) : r = .whole := by
  cases r with
  | whole => rfl
  | part => simp [h.1] at hs
  | defining => simp [(isPartialMethod_iff.1 h).2] at hs
  | implementing => simp [(isPartialMethod_iff.1 h).2] at hs

/-- A piece of a partial type is a part. -/
theorem Role.Fits.eq_part (h : r.Fits s) (hs : s.isPartial = true) (type : s.kind.isType = true) :
    r = .part := by
  cases r with
  | whole => simp [show s.isPartial = false from h] at hs
  | part => rfl
  | defining => simp [isType_of_isPartialMethod h] at type
  | implementing => simp [isType_of_isPartialMethod h] at type

/-- A piece of a partial method has a body or has none. -/
theorem Role.Fits.eq_defining_or_implementing (h : r.Fits s) (hs : s.isPartialMethod = true) :
    r = .defining ∨ r = .implementing := by
  have hpart : s.isPartial = true := (isPartialMethod_iff.1 hs).2
  cases r with
  | whole => simp [show s.isPartial = false from h] at hpart
  | part => simp [Role.Fits, isType_of_isPartialMethod hs] at h
  | defining => exact .inl rfl
  | implementing => exact .inr rfl

/-- Nothing but types and methods is partial. -/
theorem Role.Fits.kind_of_isPartial (h : r.Fits s) (hs : s.isPartial = true) :
    s.kind.isType = true ∨ s.kind = .method := by
  cases r with
  | whole => simp [show s.isPartial = false from h] at hs
  | part => exact .inl h.2
  | defining => exact .inr (isPartialMethod_iff.1 h).1
  | implementing => exact .inr (isPartialMethod_iff.1 h).1

/-- Symbols of one sort take the same roles. -/
theorem Role.Fits.congr (h : r.Fits s) (partly : s.isPartial = t.isPartial)
    (type : s.kind.isType = t.kind.isType) (kind : s.kind.isType = false → s.kind = t.kind) :
    r.Fits t := by
  have hmethod : s.isPartialMethod = true → t.isPartialMethod = true := by
    intro hm
    have hs := isPartialMethod_iff.1 hm
    rw [isPartialMethod_iff, ← kind (isType_of_isPartialMethod hm), ← partly]
    exact hs
  cases r with
  | whole => exact partly.symm.trans h
  | part => exact ⟨partly.symm.trans h.1, type.symm.trans h.2⟩
  | defining => exact hmethod h
  | implementing => exact hmethod h

/-! ## All pieces of a symbol -/

/-- The pieces of a symbol that has just been founded. -/
theorem piecesFit_singleton (h : p.role.Fits s) : PiecesFit s [p] where
  nonempty := by simp
  fits := by simpa using h
  single := by simp
  defining := List.countP_le_length
  implementing := List.countP_le_length

/-- A piece that a symbol takes fits the pieces that are there. -/
theorem PiecesFit.append_of_takes (h : PiecesFit s pieces) (hp : p.role.Fits s)
    (htakes : IndexBuilder.takes ⟨s, pieces⟩ t p = true) : PiecesFit s (pieces ++ [p]) := by
  unfold IndexBuilder.takes at htakes
  simp only [Bool.and_eq_true, Bool.not_eq_true', Bool.and_eq_false_iff] at htakes
  obtain ⟨⟨hs, -⟩, hrole⟩ := htakes
  have hcount : ∀ role : Role, role = .defining ∨ role = .implementing →
      pieces.countP (fun q => q.role == role) ≤ 1 →
      (pieces ++ [p]).countP (fun q => q.role == role) ≤ 1 := by
    intro role hbody hle
    rw [List.countP_append]
    by_cases hpr : p.role = role
    · -- the role of the new piece is taken by no earlier one
      have hzero : pieces.countP (fun q => q.role == role) = 0 := by
        rw [List.countP_eq_zero]
        intro q hq
        subst hpr
        rcases hrole with hrole | hrole
        · rcases hbody with hbody | hbody <;> simp [hbody] at hrole
        · rw [List.any_eq_false] at hrole
          exact hrole q hq
      rw [hzero, Nat.zero_add]
      exact List.countP_le_length
    · rw [List.countP_singleton, if_neg (by simpa using hpr)]
      exact hle
  exact
    { nonempty := by simp
      fits := by
        intro q hq
        rcases List.mem_append.1 hq with hq | hq
        · exact h.fits q hq
        · rw [List.mem_singleton.1 hq]
          exact hp
      single := by
        intro hno
        simp [hno] at hs
      defining := hcount .defining (.inl rfl) h.defining
      implementing := hcount .implementing (.inr rfl) h.implementing }

/-- The order of the pieces does not matter. -/
theorem PiecesFit.perm {other : List Piece} (h : PiecesFit s pieces) (hperm : pieces.Perm other) :
    PiecesFit s other where
  nonempty := by
    intro hnil
    rw [hnil] at hperm
    exact h.nonempty hperm.eq_nil
  fits p hp := h.fits p (hperm.mem_iff.2 hp)
  single hs := hperm.length_eq ▸ h.single hs
  defining := hperm.countP_eq _ ▸ h.defining
  implementing := hperm.countP_eq _ ▸ h.implementing

/-- The one piece of a symbol that is not partial. -/
theorem PiecesFit.exists_whole (h : PiecesFit s pieces) (hs : s.isPartial = false) :
    ∃ p, pieces = [p] ∧ p.role = .whole := by
  obtain ⟨p, rfl⟩ := List.length_eq_one_iff.1 (h.single hs)
  exact ⟨p, rfl, (h.fits p (by simp)).eq_whole hs⟩

end PartialDocs
