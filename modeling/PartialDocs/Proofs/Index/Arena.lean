import PartialDocs.Index.Arena

/-!
# What an arena holds

Laying out an arena keeps every range within the pieces that are there, so that pieces laid
behind them later do not change what a range holds.  An arena therefore gives back, range by
range, what was laid into it (`own_arena`), and nothing else is in it (`pieces_arena`).
-/

set_option autoImplicit false

namespace PartialDocs

namespace PieceArena

/-- Whether there is one range for each list of pieces that was laid out, and every range ends
within the arena. -/
structure LaidOut (a : PieceArena) (parts : List (List Piece)) : Prop where
  pieces : a.pieces = parts.flatten
  count : a.ranges.length = parts.length
  within : ∀ (id first last : Nat), a.ranges[id]? = some (first, last) → last ≤ a.pieces.length
  own : ∀ id : Nat, a.own id = parts[id]?.getD []

/-- The empty arena lays out nothing. -/
theorem laidOut_empty : LaidOut empty [] where
  pieces := rfl
  count := rfl
  within := by simp [empty]
  own := by simp [PieceArena.own, empty]

/-- A range that ends within the arena is not changed by further pieces. -/
theorem own_push {a : PieceArena} {parts : List (List Piece)} (h : a.LaidOut parts)
    (more : List Piece) {id : Nat} (hid : id < parts.length) : (a.push more).own id = a.own id := by
  have hrange : id < a.ranges.length := by
    rw [h.count]
    exact hid
  unfold PieceArena.own push
  simp only [List.getElem?_append_left hrange]
  cases hr : a.ranges[id]? with
  | none => rfl
  | some range =>
    obtain ⟨first, last⟩ := range
    have hlast := h.within id first last hr
    simp only
    rcases Nat.lt_or_ge last first with hlt | hge
    · rw [show last - first = 0 by omega, List.take_zero, List.take_zero]
    · rw [List.drop_append_of_le_length (by omega),
        List.take_append_of_le_length (by rw [List.length_drop]; omega)]

/-- The range of the pieces that were laid out last holds these. -/
theorem own_push_last {a : PieceArena} {parts : List (List Piece)} (h : a.LaidOut parts)
    (more : List Piece) : (a.push more).own parts.length = more := by
  unfold PieceArena.own push
  simp only [← h.count, List.getElem?_concat_length]
  rw [List.drop_left, Nat.add_sub_cancel_left, List.take_length]

/-- One more part is laid out behind the other ones. -/
theorem LaidOut.push {a : PieceArena} {parts : List (List Piece)} (h : a.LaidOut parts)
    (more : List Piece) : (a.push more).LaidOut (parts ++ [more]) where
  pieces := by
    rw [List.flatten_concat, ← h.pieces]
    rfl
  count := by simp [PieceArena.push, h.count]
  within := by
    intro id first last hr
    unfold PieceArena.push at hr ⊢
    rw [List.length_append]
    rcases Nat.lt_or_ge id a.ranges.length with hlt | hge
    · rw [List.getElem?_append_left hlt] at hr
      exact Nat.le_trans (h.within id first last hr) (Nat.le_add_right _ _)
    · rw [List.getElem?_append_right hge, List.getElem?_singleton] at hr
      split at hr
      · simp only [Option.some.injEq, Prod.mk.injEq] at hr
        exact Nat.le_of_eq hr.2.symm
      · cases hr
  own := by
    intro id
    rcases Nat.lt_trichotomy id parts.length with hlt | rfl | hgt
    · rw [own_push h more hlt, h.own, List.getElem?_append_left hlt]
    · rw [own_push_last h more, List.getElem?_concat_length]
      rfl
    · have hnone : (parts ++ [more])[id]? = none := List.getElem?_eq_none (by simp; omega)
      have hrange : (a.push more).ranges[id]? = none :=
        List.getElem?_eq_none (by simp [PieceArena.push, h.count]; omega)
      unfold PieceArena.own
      rw [hnone, hrange]
      rfl

/-- Laying out further pieces list by list. -/
theorem LaidOut.foldl {a : PieceArena} {parts : List (List Piece)} (h : a.LaidOut parts)
    (entries : List IndexEntry) :
    (entries.foldl (fun a e => a.push e.pieces) a).LaidOut
      (parts ++ entries.map IndexEntry.pieces) := by
  induction entries generalizing a parts with
  | nil => simpa using h
  | cons e entries ih =>
    rw [List.map_cons, List.append_cons]
    exact ih (h.push e.pieces)

end PieceArena

namespace SymbolIndex

/-- The arena of an index lays out the pieces of its entries. -/
theorem laidOut_arena (index : SymbolIndex) :
    index.arena.LaidOut (index.entries.map IndexEntry.pieces) :=
  PieceArena.laidOut_empty.foldl index.entries

/-- The range of a symbol holds its pieces. -/
theorem own_arena (index : SymbolIndex) (id : Nat) :
    index.arena.own id = ((index.entries[id]?).map IndexEntry.pieces).getD [] := by
  rw [index.laidOut_arena.own, List.getElem?_map]

/-- The arena holds the pieces of all symbols in the order of the symbols. -/
theorem pieces_arena (index : SymbolIndex) :
    index.arena.pieces = index.ids.flatMap index.arena.own := by
  rw [index.laidOut_arena.pieces, List.flatMap_def]
  congr 1
  apply List.ext_getElem?
  intro id
  rw [List.getElem?_map, List.getElem?_map, ids, size]
  rcases Nat.lt_or_ge id index.entries.length with hlt | hge
  · rw [List.getElem?_range hlt, Option.map_some, own_arena, List.getElem?_eq_getElem hlt]
    rfl
  · rw [List.getElem?_eq_none hge, List.getElem?_eq_none (by simpa using hge)]
    rfl

/-- Asking for the pieces of a symbol is reading its range, where an empty range is an error. -/
theorem pieces_eq_own (index : SymbolIndex) {id : Nat} {s : Symbol}
    (hs : index.symbols[id]? = some s) :
    index.pieces id =
      if (index.arena.own id).isEmpty then .error (.noDeclarations s.name)
      else .ok (index.arena.own id) := by
  unfold symbols at hs
  rw [List.getElem?_map, Option.map_eq_some_iff] at hs
  obtain ⟨e, he, rfl⟩ := hs
  rw [own_arena, he]
  unfold pieces
  simp only [he]
  rfl

end SymbolIndex

end PartialDocs
