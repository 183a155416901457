import PartialDocs.Proofs.Declaration.Listing
import PartialDocs.Proofs.Index.Run

/-!
# Pieces that arrive in order

When pieces come to the builder by increasing place, every symbol gets its own pieces in
that order, and of two symbols the earlier one has the earlier first piece (`Ordered.add`
for one piece, `Ordered.addAll` for many).  What an outline hands to the builder is its
listing without the bodies of refused types (`handed_sublist`), so that the order of the
listing is the order of arrival.
-/

set_option autoImplicit false

namespace PartialDocs

namespace Piece

/-- Whether a piece is in an earlier file than another one, or in the same file no further on. -/
def Precedes (p q : Piece) : Prop := p.file < q.file ∨ p.file = q.file ∧ p.offset ≤ q.offset

/-- A piece precedes itself. -/
theorem Precedes.refl (p : Piece) : p.Precedes p := .inr ⟨rfl, Nat.le_refl _⟩

/-- Pieces precede each other transitively. -/
theorem Precedes.trans {p q r : Piece} (hpq : p.Precedes q) (hqr : q.Precedes r) :
    p.Precedes r := by
  unfold Precedes at *
  omega

end Piece

namespace IndexBuilder

open Declaration (listing listingAll)

variable {b b' : IndexBuilder} {s : Symbol} {p : Piece} {r : Option SymbolId}

/-- Every entry after a step is one from before, perhaps with the piece behind its own, or the new
last one that has this piece only. -/
theorem Step.entry_cases (step : Step b s p b' r) {id : Nat} {e : IndexEntry}
    (he : b'.entries[id]? = some e) :
    (∃ e' more, b.entries[id]? = some e' ∧ e.pieces = e'.pieces ++ more ∧ ∀ q ∈ more, q = p) ∨
      (id = b.entries.length ∧ e.pieces = [p]) := by
  have hold : ∀ e' : IndexEntry, b.entries[id]? = some e' →
      ∃ e' more, b.entries[id]? = some e' ∧ e.pieces = e'.pieces ++ more ∧ ∀ q ∈ more, q = p := by
    intro e' he'
    obtain ⟨more, hmore, hpieces⟩ := step.entry_extends he'
    obtain rfl : e = ⟨e'.symbol, e'.pieces ++ more⟩ := Option.some.inj (he.symm.trans hmore)
    exact ⟨e', more, he', rfl, hpieces⟩
  cases hlast : b.entries[id]? with
  | some e' =>
    rw [← hlast]
    exact .inl (hold e' hlast)
  | none =>
    right
    have hge : b.entries.length ≤ id := List.getElem?_eq_none_iff.1 hlast
    have hlt := (List.getElem?_eq_some_iff.1 he).1
    cases step with
    | founds free =>
      simp only [List.length_append, List.length_singleton] at hlt
      obtain rfl : id = b.entries.length := by omega
      rw [List.getElem?_concat_length] at he
      exact ⟨rfl, by rw [← Option.some.inj he]⟩
    | joins taken entry takes =>
      rw [List.length_set] at hlt
      omega
    | refuses => omega

/-- What holds of a builder to which pieces came by increasing place. -/
structure Ordered (b : IndexBuilder) : Prop where
  nonempty : ∀ e ∈ b.entries, e.pieces ≠ []
  arrival : ∀ e ∈ b.entries, e.pieces.Pairwise Piece.Precedes
  /-- Some piece of an earlier symbol is before all those of a later one. -/
  first : ∀ (i j : Nat) (d e : IndexEntry), i < j → b.entries[i]? = some d →
    b.entries[j]? = some e →
    ∃ q ∈ d.pieces, ∀ q' ∈ e.pieces, q.Precedes q'

/-- Whether a piece comes after everything that the builder has. -/
def Behind (b : IndexBuilder) (p : Piece) : Prop := ∀ e ∈ b.entries, ∀ q ∈ e.pieces, q.Precedes p

/-- The empty builder has been given its declarations in order. -/
theorem ordered_empty : Ordered empty where
  nonempty := by simp [empty]
  arrival := by simp [empty]
  first := by simp [empty]

/-- A piece that comes after all others keeps the order. -/
theorem Ordered.add (h : b.Ordered) (s : Symbol) (behind : b.Behind p) : (b.add s p).1.Ordered := by
  have hstep := add_step b s p
  generalize b.add s p = result at hstep
  obtain ⟨b', r⟩ := result
  simp only at hstep ⊢
  refine ⟨?_, ?_, ?_⟩
  · intro e he
    obtain ⟨id, hid⟩ := List.mem_iff_getElem?.1 he
    rcases hstep.entry_cases hid with ⟨e', more, he', hpieces, -⟩ | ⟨-, hpieces⟩
    · rw [hpieces]
      exact List.append_ne_nil_of_left_ne_nil (h.nonempty e' (List.mem_of_getElem? he')) more
    · rw [hpieces]
      exact List.cons_ne_nil p []
  · intro e he
    obtain ⟨id, hid⟩ := List.mem_iff_getElem?.1 he
    rcases hstep.entry_cases hid with ⟨e', more, he', hpieces, hmore⟩ | ⟨-, hpieces⟩
    · have hmem := List.mem_of_getElem? he'
      rw [hpieces, List.pairwise_append]
      refine ⟨h.arrival e' hmem, List.pairwise_of_forall_mem_list ?_, ?_⟩
      · intro q hq q' hq'
        rw [hmore q hq, hmore q' hq']
        exact .refl p
      · intro q hq q' hq'
        rw [hmore q' hq']
        exact behind e' hmem q hq
    · rw [hpieces]
      exact List.pairwise_singleton _ p
  · -- the new piece is never the first one of an earlier symbol that had pieces already
    intro i j d e hij hd he
    rcases hstep.entry_cases hd with ⟨d', more, hd', hpieces, -⟩ | ⟨rfl, -⟩
    · have hmem := List.mem_of_getElem? hd'
      rcases hstep.entry_cases he with ⟨e', more', he', hpieces', hmore'⟩ | ⟨-, hpieces'⟩
      · obtain ⟨q, hq, hfirst⟩ := h.first i j d' e' hij hd' he'
        refine ⟨q, by simp [hpieces, hq], ?_⟩
        intro q' hq'
        rw [hpieces', List.mem_append] at hq'
        rcases hq' with hq' | hq'
        · exact hfirst q' hq'
        · rw [hmore' q' hq']
          exact behind d' hmem q hq
      · obtain ⟨q, hq⟩ := List.exists_mem_of_ne_nil d'.pieces (h.nonempty d' hmem)
        refine ⟨q, by simp [hpieces, hq], ?_⟩
        intro q' hq'
        rw [hpieces', List.mem_singleton] at hq'
        rw [hq']
        exact behind d' hmem q hq
    · -- nothing stands behind the new last entry
      rcases hstep.entry_cases he with ⟨e', -, he', -⟩ | ⟨rfl, -⟩
      · have hlt := (List.getElem?_eq_some_iff.1 he').1
        omega
      · exact absurd hij (Nat.lt_irrefl _)

/-- A builder is behind a piece after an earlier one has been added. -/
theorem Behind.add (h : b.Behind p) {q : Piece} (s : Symbol) (hq : q.Precedes p) :
    (b.add s q).1.Behind p := by
  intro e he x hx
  rcases (add_step b s q).mem_pieces he hx with ⟨e', he', hx'⟩ | rfl
  · exact h e' he' x hx'
  · exact hq

/-- Pieces that come by increasing place keep the order. -/
theorem Ordered.addAll (h : b.Ordered) {ds : List (Symbol × Piece)}
    (sorted : (ds.map Prod.snd).Pairwise Piece.Precedes) (behind : ∀ d ∈ ds, b.Behind d.2) :
    (b.addAll ds).Ordered := by
  induction ds generalizing b with
  | nil => exact h
  | cons d ds ih =>
    rw [List.map_cons, List.pairwise_cons] at sorted
    obtain ⟨hfirst, hrest⟩ := sorted
    obtain ⟨hd, hds⟩ := List.forall_mem_cons.1 behind
    refine ih (h.add d.1 hd) hrest ?_
    intro d' hd'
    exact (hds d' hd').add d.1 (hfirst d'.2 (List.mem_map_of_mem hd'))

/-! ## What arrives -/

/-- A declaration as it is written, without the type that contains it. -/
def unplaced (x : Symbol × Piece) : Symbol × Piece := ({ x.1 with container := none }, x.2)

mutual

/-- What is handed over is listed, in the same order. -/
theorem handed_sublist : ∀ (d : Declaration) (b : IndexBuilder) (container : Option SymbolId)
    (outer : List Symbol), ((b.handed container d).map unplaced).Sublist
      ((listing outer d).map fun y => unplaced (y.symbol, y.piece))
  | .mk s p ds, b, container, outer => by
    have hfirst : unplaced (placeIn container s, p) = unplaced (s, p) := rfl
    unfold handed listing
    rw [List.map_cons, List.map_cons, hfirst]
    refine List.Sublist.cons_cons (unplaced (s, p)) ?_
    split
    · exact List.nil_sublist _
    · exact handedAll_sublist ds _ _ _

/-- What is handed on is part of what is listed, in its order, but for the containers. -/
theorem handedAll_sublist : ∀ (ds : List Declaration) (b : IndexBuilder)
    (container : Option SymbolId) (outer : List Symbol),
    ((b.handedAll container ds).map unplaced).Sublist
      ((listingAll outer ds).map fun y => unplaced (y.symbol, y.piece))
  | [], b, container, outer => by
    unfold handedAll
    exact List.nil_sublist _
  | d :: ds, b, container, outer => by
    unfold handedAll listingAll
    rw [List.map_append, List.map_append]
    exact (handed_sublist d b container outer).append (handedAll_sublist ds _ container outer)

end

/-- The pieces that are handed over are those of the listing, in the same order. -/
theorem pieces_handedAll_sublist (ds : List Declaration) (b : IndexBuilder)
    (container : Option SymbolId) (outer : List Symbol) :
    ((b.handedAll container ds).map Prod.snd).Sublist ((listingAll outer ds).map Listed.piece) := by
  have hsub := (handedAll_sublist ds b container outer).map Prod.snd
  rwa [List.map_map, List.map_map] at hsub

/-- Everything that is handed over is listed. -/
theorem mem_listingAll_of_mem_handedAll {ds : List Declaration} {b : IndexBuilder}
    {container : Option SymbolId} {x : Symbol × Piece} (hx : x ∈ b.handedAll container ds)
    (outer : List Symbol) :
    ∃ y ∈ listingAll outer ds, unplaced x = unplaced (y.symbol, y.piece) := by
  have hmem := (handedAll_sublist ds b container outer).subset (List.mem_map_of_mem hx)
  obtain ⟨y, hy, hsame⟩ := List.mem_map.1 hmem
  exact ⟨y, hy, hsame.symm⟩

end IndexBuilder

end PartialDocs
