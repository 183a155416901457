import PartialDocs.DocId
import PartialDocs.Proofs.Index.Invariant

/-!
# What a finished index answers

Building the index sorts the pieces of every symbol and changes nothing else.  From a
sound builder comes an index that answers every question about a symbol: the symbol
itself, its pieces in the order of file and offset, the chain of its containers, and its
documentation ID, which `placedDocId` writes without any possibility of failure.
-/

set_option autoImplicit false

namespace PartialDocs

/-! ## The order of pieces -/

namespace Piece

/-- Pieces are sorted transitively. -/
theorem startsBy_trans (p q r : Piece) (hpq : p.startsBy q = true) (hqr : q.startsBy r = true) :
    p.startsBy r = true := by
  unfold startsBy at *
  rw [Bool.not_eq_true', List.lex_eq_false_iff_ge] at *
  exact List.le_trans hpq hqr

/-- Of two pieces one starts by the other. -/
theorem startsBy_total (p q : Piece) : (p.startsBy q || q.startsBy p) = true := by
  unfold startsBy
  rw [Bool.or_eq_true, Bool.not_eq_true', Bool.not_eq_true', List.lex_eq_false_iff_ge,
    List.lex_eq_false_iff_ge]
  exact List.le_total p.key q.key

/-- Pieces are sorted by file, offset, line and column. -/
theorem startsBy_iff {p q : Piece} :
    p.startsBy q = true ↔ p.file < q.file ∨ p.file = q.file ∧ (p.offset < q.offset ∨
      p.offset = q.offset ∧ (p.line < q.line ∨ p.line = q.line ∧ p.column ≤ q.column)) := by
  unfold startsBy key
  rw [Bool.not_eq_true', List.lex_eq_false_iff_ge, List.cons_le_cons_iff, List.cons_le_cons_iff,
    List.cons_le_cons_iff, List.cons_le_cons_iff]
  simp only [Nat.le_iff_lt_or_eq, List.le_refl, and_true]

/-- A piece stands before another one first of all by its file, then by its offset. -/
theorem file_offset_of_startsBy {p q : Piece} (h : p.startsBy q = true) :
    p.file < q.file ∨ p.file = q.file ∧ p.offset ≤ q.offset := by
  rw [startsBy_iff] at h
  omega

end Piece

/-! ## Documentation IDs of placed symbols -/

/-- The symbols around a symbol that stands among the given ones, innermost first. -/
def chainAround (symbols : List Symbol) (s : Symbol) : List Symbol :=
  match s.container with
  | none => []
  | some c => chainOf symbols c

/-- The documentation ID of a symbol that stands among the given ones. -/
def placedDocId (symbols : List Symbol) (s : Symbol) : Text :=
  if s.kind.isType then "T:".toList ++ dottedName (s :: chainAround symbols s)
  else
    memberDocId (dottedName (chainAround symbols s))
      (nestedTypeParameters (chainAround symbols s)) s

/-- The symbols from a symbol outward are the symbol and what is around it. -/
theorem chainOf_eq_cons_chainAround {symbols : List Symbol} (first : ContainersFirst symbols)
    {id : Nat} {s : Symbol} (hs : symbols[id]? = some s) :
    chainOf symbols id = s :: chainAround symbols s := by
  unfold chainAround
  cases hc : s.container with
  | none => exact chainOf_of_top hs hc
  | some c => exact chainOf_of_container first hs hc

/-- Symbols that come later do not change what is around a placed symbol. -/
theorem chainAround_append {symbols later : List Symbol} {s : Symbol}
    (placed : WellPlaced (symbols ++ later)) (first : ContainersFirst symbols)
    (hs : Placed symbols s) : chainAround (symbols ++ later) s = chainAround symbols s := by
  unfold chainAround
  cases hc : s.container with
  | none => rfl
  | some c =>
    unfold chainOf
    simp only
    rw [containerWalk_append first later placed.containersFirst (hs.container_lt hc)]

/-- Symbols that come later do not change a documentation ID. -/
theorem placedDocId_append {symbols later : List Symbol} {s : Symbol}
    (placed : WellPlaced (symbols ++ later)) (first : ContainersFirst symbols)
    (hs : Placed symbols s) : placedDocId (symbols ++ later) s = placedDocId symbols s := by
  unfold placedDocId
  rw [chainAround_append placed first hs]

/-! ## The answers of an index -/

namespace SymbolIndex

variable {index : SymbolIndex} {id : Nat} {s : Symbol}

/-- A symbol is found at its number. -/
theorem symbol?_eq (index : SymbolIndex) (id : Nat) : index.symbol? id = index.symbols[id]? :=
  (List.getElem?_map ..).symm

/-- The size of an index is the number of its symbols. -/
theorem size_eq (index : SymbolIndex) : index.size = index.symbols.length :=
  (List.length_map _).symm

/-- A symbol is answered where there is one. -/
theorem symbol_eq_ok_iff : index.symbol id = .ok s ↔ index.symbols[id]? = some s := by
  unfold symbol
  rw [symbol?_eq]
  cases index.symbols[id]? <;> simp

/-- The containers of a symbol are answered. -/
theorem containers_eq_ok (placed : WellPlaced index.symbols) (hid : id < index.size) :
    index.containers id = .ok (chainOf index.symbols id) := by
  unfold containers
  rw [containerWalk_complete placed.containersFirst (index.size_eq ▸ hid)]

/-- The dotted name of a symbol is answered. -/
theorem qualifiedName_eq_ok (placed : WellPlaced index.symbols) (hid : id < index.size) :
    index.qualifiedName id = .ok (dottedName (chainOf index.symbols id)) := by
  unfold qualifiedName
  rw [containers_eq_ok placed hid]
  rfl

/-- The type parameters around a symbol are answered. -/
theorem outerTypeParameters_eq_ok (placed : WellPlaced index.symbols) (hid : id < index.size) :
    index.outerTypeParameters id = .ok (nestedTypeParameters (chainOf index.symbols id)) := by
  unfold outerTypeParameters
  rw [containers_eq_ok placed hid]
  rfl

/-- Every symbol has a documentation ID. -/
theorem docId_eq_ok (placed : WellPlaced index.symbols) (hs : index.symbols[id]? = some s) :
    index.docId id = .ok (placedDocId index.symbols s) := by
  have hid : id < index.size := by
    rw [size_eq]
    exact (List.getElem?_eq_some_iff.1 hs).1
  unfold docId placedDocId
  rw [symbol_eq_ok_iff.2 hs]
  unfold Except.bind
  simp only
  by_cases htype : s.kind.isType = true
  · rw [if_pos htype, if_pos htype, qualifiedName_eq_ok placed hid,
      chainOf_eq_cons_chainAround placed.containersFirst hs]
    rfl
  · rw [if_neg htype, if_neg htype]
    have hplaced := placed.placed hs
    obtain ⟨c, hc⟩ := hplaced.exists_container (by simpa using htype)
    have hlt : c < index.size := index.size_eq ▸ hplaced.container_lt hc
    unfold chainAround
    simp only [hc]
    rw [outerTypeParameters_eq_ok placed hlt, qualifiedName_eq_ok placed hlt]
    rfl

end SymbolIndex

/-! ## The index of a builder -/

namespace IndexBuilder

variable {b : IndexBuilder} {id : Nat}

/-- Building keeps the symbols. -/
theorem symbols_build (b : IndexBuilder) : b.build.symbols = b.symbols := by
  unfold build SymbolIndex.symbols symbols
  rw [List.map_map]
  rfl

/-- An index answers the sorted pieces of a symbol. -/
theorem pieces_build_eq_ok {e : IndexEntry} (he : b.entries[id]? = some e) (ne : e.pieces ≠ []) :
    b.build.pieces id = .ok (e.pieces.mergeSort Piece.startsBy) := by
  have hentry : b.build.entries[id]? = some ⟨e.symbol, e.pieces.mergeSort Piece.startsBy⟩ := by
    unfold build
    rw [List.getElem?_map, he]
    rfl
  have hsorted : e.pieces.mergeSort Piece.startsBy ≠ [] := by
    intro hnil
    have hlength : (e.pieces.mergeSort Piece.startsBy).length = e.pieces.length :=
      List.length_mergeSort e.pieces
    rw [hnil] at hlength
    exact ne (List.length_eq_zero_iff.1 hlength.symm)
  unfold SymbolIndex.pieces
  simp only [hentry]
  rw [if_neg (by simpa using hsorted)]

/-- The pieces of a symbol stand in the order of file and offset, and they are those that the
builder had. -/
theorem Sound.pieces_build (h : b.Sound) {e : IndexEntry} (he : b.entries[id]? = some e) :
    ∃ ps, b.build.pieces id = .ok ps ∧ ps.Perm e.pieces ∧ PiecesFit e.symbol ps ∧
      ps.Pairwise fun p q => p.file < q.file ∨ p.file = q.file ∧ p.offset ≤ q.offset := by
  have hperm : (e.pieces.mergeSort Piece.startsBy).Perm e.pieces := List.mergeSort_perm _ _
  have hfit : PiecesFit e.symbol (e.pieces.mergeSort Piece.startsBy) :=
    (h.pieces e (List.mem_of_getElem? he)).perm hperm.symm
  have hne := (h.pieces e (List.mem_of_getElem? he)).nonempty
  refine ⟨e.pieces.mergeSort Piece.startsBy, pieces_build_eq_ok he hne, hperm, hfit, ?_⟩
  exact (List.pairwise_mergeSort Piece.startsBy_trans Piece.startsBy_total e.pieces).imp
    Piece.file_offset_of_startsBy

end IndexBuilder

end PartialDocs
