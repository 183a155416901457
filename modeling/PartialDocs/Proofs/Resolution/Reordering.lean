import PartialDocs.Proofs.Compilation.Listing
import PartialDocs.Proofs.DocId.Grouping
import PartialDocs.Proofs.DocId.Listed
import PartialDocs.Proofs.Index.Renumbering
import PartialDocs.Proofs.Resolution.Law

/-!
# The order of the source files

In a compilation without conflicts the order of the files only decides the order in which
the comments of a type stand below each other.  Reordering the files numbers the symbols
and their containers anew and may change which declaration founds a symbol, but symbols
with one address correspond to each other (`exists_equiv`), and what is answered about
them is the same up to the order of the pieces (`exists_reordered`).
-/

set_option autoImplicit false

namespace PartialDocs

/-! ## Builders that track one listing in two orders -/

section Builders

variable {b b' : IndexBuilder} {l l' : List Listed} {place : Nat → Nat} {e e' : IndexEntry}

/-- Every symbol has a counterpart at its address. -/
theorem exists_counterpart (h : b.Tracks l) (h' : b'.Tracks l')
    (perm : l'.Perm (l.map (Listed.renumber place))) (he : e ∈ b.entries) :
    ∃ e' ∈ b'.entries, addressOf b.symbols e.symbol = addressOf b'.symbols e'.symbol := by
  obtain ⟨x, hx, hdescribes⟩ := h.founder e he
  have hx' : x.renumber place ∈ l' := perm.mem_iff.2 (List.mem_map_of_mem hx)
  obtain ⟨e', he', haddress⟩ := h'.listed _ hx'
  exact ⟨e', he', hdescribes.address.trans haddress.symm⟩

/-- Every symbol is the counterpart of one. -/
theorem exists_counterpart_of (h : b.Tracks l) (h' : b'.Tracks l')
    (perm : l'.Perm (l.map (Listed.renumber place))) (he' : e' ∈ b'.entries) :
    ∃ e ∈ b.entries, addressOf b.symbols e.symbol = addressOf b'.symbols e'.symbol := by
  obtain ⟨y, hy, hdescribes⟩ := h'.founder e' he'
  obtain ⟨x, hx, rfl⟩ := List.mem_map.1 (perm.mem_iff.1 hy)
  obtain ⟨e, he, haddress⟩ := h.listed x hx
  exact ⟨e, he, haddress.trans hdescribes.address.symm⟩

/-- The declarations that found a symbol and its counterpart are the same or agree. -/
theorem founders_agree (h : b.Tracks l) (h' : b'.Tracks l')
    (perm : l'.Perm (l.map (Listed.renumber place))) (he : e ∈ b.entries) (he' : e' ∈ b'.entries)
    (address : addressOf b.symbols e.symbol = addressOf b'.symbols e'.symbol) :
    ∃ x ∈ l, ∃ y ∈ l, x.Describes b.symbols e.symbol ∧ y.Describes b'.symbols e'.symbol ∧
      x.address = y.address ∧ (x = y ∨ x.Agrees y) := by
  obtain ⟨x, hx, hdescribes⟩ := h.founder e he
  obtain ⟨z, hz, hdescribes'⟩ := h'.founder e' he'
  obtain ⟨y, hy, rfl⟩ := List.mem_map.1 (perm.mem_iff.1 hz)
  have hy' : y.Describes b'.symbols e'.symbol := ⟨hdescribes'.outer, hdescribes'.symbol⟩
  have haddress : x.address = y.address := by
    rw [← hdescribes.address, address, hy'.address]
  exact ⟨x, hx, y, hy, hdescribes, hy', haddress, h.orderly.eq_or_agrees hx hy haddress⟩

/-- Counterparts have one documentation ID. -/
theorem docId_counterpart (h : b.Tracks l) (h' : b'.Tracks l')
    (perm : l'.Perm (l.map (Listed.renumber place))) (he : e ∈ b.entries) (he' : e' ∈ b'.entries)
    (address : addressOf b.symbols e.symbol = addressOf b'.symbols e'.symbol) :
    placedDocId b.symbols e.symbol = placedDocId b'.symbols e'.symbol := by
  obtain ⟨x, hx, y, hy, hdescribes, hdescribes', haddress, hsame⟩ :=
    founders_agree h h' perm he he' address
  rw [hdescribes.docId_eq, hdescribes'.docId_eq]
  rcases hsame with rfl | hagrees
  · rfl
  · exact Listed.docId_eq_of_agrees haddress hagrees (h.fits x hx) (h.orderly.readable x hx)
      (h.orderly.readable y hy)

/-- Counterparts are of one sort. -/
theorem sort_counterpart (h : b.Tracks l) (h' : b'.Tracks l')
    (perm : l'.Perm (l.map (Listed.renumber place))) (he : e ∈ b.entries) (he' : e' ∈ b'.entries)
    (address : addressOf b.symbols e.symbol = addressOf b'.symbols e'.symbol) :
    e.symbol.kind.isType = e'.symbol.kind.isType ∧
      e.symbol.isPartialMethod = e'.symbol.isPartialMethod := by
  obtain ⟨x, -, y, -, hdescribes, hdescribes', -, hsame⟩ :=
    founders_agree h h' perm he he' address
  have htype := isType_eq_of_address_eq address
  have hpartial : e.symbol.isPartial = e'.symbol.isPartial := by
    obtain ⟨c, hc⟩ := hdescribes.symbol
    obtain ⟨d, hd⟩ := hdescribes'.symbol
    rw [hc, hd]
    rcases hsame with rfl | hagrees
    · rfl
    · exact hagrees.isPartial.1.trans hagrees.isPartial.2.symm
  refine ⟨htype, ?_⟩
  unfold Symbol.isPartialMethod
  rw [hpartial]
  cases hkind : e.symbol.kind.isType with
  | true =>
    have hmethod : ∀ s : Symbol, s.kind.isType = true → (s.kind == .method) = false := by
      intro s hs
      cases hk : s.kind <;> simp [hk, SymbolKind.isType] at hs ⊢
    rw [hmethod _ hkind, hmethod _ (htype ▸ hkind)]
  | false =>
    obtain ⟨-, hsameKind, -⟩ := member_eq_of_address_eq hkind address
    rw [hsameKind]

/-- Counterparts have the same pieces of each file, in the same order. -/
theorem pieces_counterpart (h : b.Tracks l) (h' : b'.Tracks l')
    (blocks : ∀ k, l'.filter (fun x => x.piece.file = k) =
      (l.map (Listed.renumber place)).filter fun x => x.piece.file = k)
    (he : e ∈ b.entries) (he' : e' ∈ b'.entries)
    (address : addressOf b.symbols e.symbol = addressOf b'.symbols e'.symbol) (k : Nat) :
    e'.pieces.filter (fun p => p.file = k) =
      (e.pieces.map (Piece.renumber place)).filter fun p => p.file = k := by
  have hfilter : ∀ (m : List Listed) (a : Address),
      ((m.filter fun x => x.address = a).map Listed.piece).filter (fun p => p.file = k) =
        ((m.filter fun x => x.piece.file = k).filter fun x => x.address = a).map Listed.piece := by
    intro m a
    rw [List.filter_map, List.filter_filter, List.filter_filter]
    congr 1
    apply List.filter_congr
    intro x _
    exact Bool.and_comm _ _
  have hmap : ∀ a : Address,
      ((l.filter fun x => x.address = a).map Listed.piece).map (Piece.renumber place) =
        ((l.map (Listed.renumber place)).filter fun x => x.address = a).map Listed.piece := by
    intro a
    rw [List.filter_map, List.map_map, List.map_map]
    rfl
  rw [h.pieces e he, h'.pieces e' he', ← address, hmap, hfilter, hfilter, blocks]

end Builders

namespace Compilation

/-- Pieces with their comments in the new order of their files, under the new ordinals. -/
def moved (place : Nat → Nat) (cs : List (Piece × Option Text)) : List (Piece × Option Text) :=
  (inOrder place Prod.fst cs).map fun x => (x.1.renumber place, x.2)

/-- How a symbol of a compilation corresponds to one of the compilation in which the files have got
other ordinals, given its pieces with their comments. -/
structure Reordered (c d : Compilation) (place : Nat → Nat) (i j : SymbolId) (s t : Symbol)
    (docId : Text) (cs : List (Piece × Option Text)) : Prop where
  symbol : c.index.symbol i = .ok s ∧ d.index.symbol j = .ok t
  isType : s.kind.isType = t.kind.isType
  docId : c.index.docId i = .ok docId ∧ d.index.docId j = .ok docId
  pieces : c.index.pieces i = .ok (cs.map Prod.fst) ∧
    d.index.pieces j = .ok ((moved place cs).map Prod.fst)
  /-- The pieces are the same ones under the new ordinals. -/
  same : ((moved place cs).map Prod.fst).Perm ((cs.map Prod.fst).map (Piece.renumber place))
  comments : c.comments i = .ok cs ∧ d.comments j = .ok (moved place cs)
  /-- Nothing else changes for a member. -/
  member : s.kind.isType = false →
    (∃ body, c.merged i = .ok body ∧ d.merged j = .ok body) ∧
      ∀ policy, ∃ x, c.xml policy i = .ok x ∧ d.xml policy j = .ok x
  /-- The comments of a type stand below each other in the new order of the files. -/
  type : s.kind.isType = true → ∃ body body', c.merged i = .ok body ∧ d.merged j = .ok body' ∧
    Stacked cs body ∧ Stacked (inOrder place Prod.fst cs) body'

/-! ## Pieces and comments in the new order -/

variable {files : List SourceFile} {place : Nat → Nat} {cs : List (Piece × Option Text)}

/-- The pieces of moved comments. -/
theorem map_fst_moved (place : Nat → Nat) (cs : List (Piece × Option Text)) :
    (moved place cs).map Prod.fst =
      (inOrder place id (cs.map Prod.fst)).map (Piece.renumber place) := by
  have horder : (inOrder place Prod.fst cs).map Prod.fst = inOrder place id (cs.map Prod.fst) :=
    List.map_mergeSort fun _ _ _ _ => rfl
  unfold moved
  rw [← horder, List.map_map, List.map_map]
  rfl

/-- The roles of moved comments. -/
theorem roled_moved (place : Nat → Nat) (cs : List (Piece × Option Text)) :
    roled (moved place cs) = roled (inOrder place Prod.fst cs) := by
  unfold roled moved
  rw [List.map_map]
  rfl

/-- The comment of a piece does not depend on the ordinal of its file. -/
theorem comment_reorder (σ : Equiv.Perm (Fin files.length)) {p : Piece} {text : Option Text}
    (h : (ofFiles files).comment p = .ok text) :
    (ofFiles (reorder files σ)).comment (p.renumber (placeUnder σ)) = .ok text := by
  have hfile : (reorder files σ)[(p.renumber (placeUnder σ)).file]? = files[p.file]? :=
    getElem?_reorder σ p.file
  unfold comment ofFiles at h ⊢
  simp only [hfile]
  cases hf : files[p.file]? with
  | none =>
    simp only [hf] at h
    cases h
  | some f =>
    simp only [hf] at h ⊢
    exact h

/-! ## Symbols that correspond to each other -/

/-- Whether symbols of two compilations have one address. -/
def SameAddress (files files' : List SourceFile) (i j : Nat) : Prop :=
  ∃ e e', (builderOf files).entries[i]? = some e ∧ (builderOf files').entries[j]? = some e' ∧
    addressOf (builderOf files).symbols e.symbol = addressOf (builderOf files').symbols e'.symbol

/-- Symbols have one address either way. -/
theorem SameAddress.symm {files files' : List SourceFile} {i j : Nat}
    (h : SameAddress files files' i j) : SameAddress files' files j i := by
  obtain ⟨e, e', he, he', haddress⟩ := h
  exact ⟨e', e, he', he, haddress.symm⟩

/-- A symbol has one counterpart only. -/
theorem SameAddress.right_unique {files files' : List SourceFile} {i j k : Nat}
    (h : SameAddress files files' i j) (h' : SameAddress files files' i k) : j = k := by
  obtain ⟨e, e', he, he', haddress⟩ := h
  obtain ⟨u, u', hu, hu', haddress'⟩ := h'
  obtain rfl : e = u := Option.some.inj (he.symm.trans hu)
  have hj : (builderOf files').symbols[j]? = some e'.symbol := by
    rw [IndexBuilder.symbols_getElem?, he']
    rfl
  have hk : (builderOf files').symbols[k]? = some u'.symbol := by
    rw [IndexBuilder.symbols_getElem?, hu']
    rfl
  exact (sound_builderOf files').eq_of_address_eq hj hk (haddress.symm.trans haddress')

/-- The number of an entry is below the size. -/
theorem lt_size_of_entry {files : List SourceFile} {i : Nat} {e : IndexEntry}
    (he : (builderOf files).entries[i]? = some e) : i < (ofFiles files).index.size := by
  rw [SymbolIndex.size_eq, symbols_ofFiles, IndexBuilder.length_symbols]
  exact (List.getElem?_eq_some_iff.1 he).1

/-- **The symbols of two compilations correspond to each other by their addresses, one to one.** -/
theorem exists_equiv (h : FreeOfConflicts files) (σ : Equiv.Perm (Fin files.length)) :
    ∃ e : Fin (ofFiles files).index.size ≃ Fin (ofFiles (reorder files σ)).index.size,
      ∀ i : Fin (ofFiles files).index.size, SameAddress files (reorder files σ) i (e i) := by
  have htracks := tracks_of_orderly h.orderly
  have htracks' := tracks_of_orderly (h.orderly_reorder σ)
  have hperm := perm_listing_reorder σ
  have hforth : ∀ i : Fin (ofFiles files).index.size,
      ∃ j : Fin (ofFiles (reorder files σ)).index.size,
        SameAddress files (reorder files σ) i j := by
    intro i
    obtain ⟨e, he, -⟩ := exists_entry files i.2
    obtain ⟨e', he', haddress⟩ :=
      exists_counterpart htracks htracks' hperm (List.mem_of_getElem? he)
    obtain ⟨j, hj⟩ := List.mem_iff_getElem?.1 he'
    exact ⟨⟨j, lt_size_of_entry hj⟩, e, e', he, hj, haddress⟩
  have hback : ∀ j : Fin (ofFiles (reorder files σ)).index.size,
      ∃ i : Fin (ofFiles files).index.size, SameAddress files (reorder files σ) i j := by
    intro j
    obtain ⟨e', he', -⟩ := exists_entry (reorder files σ) j.2
    obtain ⟨e, he, haddress⟩ :=
      exists_counterpart_of htracks htracks' hperm (List.mem_of_getElem? he')
    obtain ⟨i, hi⟩ := List.mem_iff_getElem?.1 he
    exact ⟨⟨i, lt_size_of_entry hi⟩, e, e', hi, he', haddress⟩
  choose f hf using hforth
  -- a counterpart is unique on either side
  have hinjective : Function.Injective f := by
    intro i k hik
    apply Fin.ext
    have hk := hf k
    rw [← hik] at hk
    exact (hf i).symm.right_unique hk.symm
  have hsurjective : Function.Surjective f := by
    intro j
    obtain ⟨i, hi⟩ := hback j
    exact ⟨i, Fin.ext ((hf i).right_unique hi)⟩
  exact ⟨Equiv.ofBijective f ⟨hinjective, hsurjective⟩, hf⟩

/-! ## The law -/

section Counterparts

variable {σ : Equiv.Perm (Fin files.length)} {i j : Nat} {e e' : IndexEntry}

/-- The symbol of an entry is answered. -/
theorem symbol_of_entry {files : List SourceFile} {i : Nat} {e : IndexEntry}
    (he : (builderOf files).entries[i]? = some e) :
    (ofFiles files).index.symbol i = .ok e.symbol := by
  rw [SymbolIndex.symbol_eq_ok_iff, symbols_ofFiles, IndexBuilder.symbols_getElem?, he]
  rfl

/-- Counterparts are answered one documentation ID. -/
theorem docId_reorder (h : FreeOfConflicts files) (he : (builderOf files).entries[i]? = some e)
    (he' : (builderOf (reorder files σ)).entries[j]? = some e')
    (address : addressOf (builderOf files).symbols e.symbol =
      addressOf (builderOf (reorder files σ)).symbols e'.symbol) :
    (ofFiles (reorder files σ)).index.docId j = (ofFiles files).index.docId i := by
  have hplaced := docId_counterpart (tracks_of_orderly h.orderly)
    (tracks_of_orderly (h.orderly_reorder σ)) (perm_listing_reorder σ) (List.mem_of_getElem? he)
    (List.mem_of_getElem? he') address
  have hs := SymbolIndex.symbol_eq_ok_iff.1 (symbol_of_entry he)
  have hs' := SymbolIndex.symbol_eq_ok_iff.1 (symbol_of_entry he')
  rw [SymbolIndex.docId_eq_ok (wellPlaced_ofFiles _) hs,
    SymbolIndex.docId_eq_ok (wellPlaced_ofFiles _) hs', symbols_ofFiles, symbols_ofFiles, hplaced]

/-- The pieces of a counterpart are those of the symbol in the new order of the files. -/
theorem pieces_reorder (h : FreeOfConflicts files) (he : (builderOf files).entries[i]? = some e)
    (he' : (builderOf (reorder files σ)).entries[j]? = some e')
    (address : addressOf (builderOf files).symbols e.symbol =
      addressOf (builderOf (reorder files σ)).symbols e'.symbol)
    (hcs : (ofFiles files).index.pieces i = .ok (cs.map Prod.fst)) :
    (ofFiles (reorder files σ)).index.pieces j = .ok ((moved (placeUnder σ) cs).map Prod.fst) ∧
      PiecesFit e'.symbol ((moved (placeUnder σ) cs).map Prod.fst) := by
  have hfit := (sound_builderOf files).pieces e (List.mem_of_getElem? he)
  have hfit' := (sound_builderOf (reorder files σ)).pieces e' (List.mem_of_getElem? he')
  have hsorted : e.pieces.mergeSort Piece.startsBy = cs.map Prod.fst := by
    have hpieces : (ofFiles files).index.pieces i = .ok (e.pieces.mergeSort Piece.startsBy) :=
      IndexBuilder.pieces_build_eq_ok he hfit.nonempty
    rw [hpieces, Except.ok.injEq] at hcs
    exact hcs
  have hmoved : e'.pieces.mergeSort Piece.startsBy = (moved (placeUnder σ) cs).map Prod.fst := by
    have hfiles := pieces_counterpart (tracks_of_orderly h.orderly)
      (tracks_of_orderly (h.orderly_reorder σ)) (filter_listing_reorder σ)
      (List.mem_of_getElem? he) (List.mem_of_getElem? he') address
    rw [Piece.mergeSort_renumber (placeUnder σ).injective hfiles, hsorted, map_fst_moved]
  rw [← hmoved]
  exact ⟨IndexBuilder.pieces_build_eq_ok he' hfit'.nonempty,
    hfit'.perm (List.mergeSort_perm _ _).symm⟩

end Counterparts

/-- Roles are missing among pieces when they are among their comments. -/
theorem forall_role_ne_iff (r : Role) (cs : List (Piece × Option Text)) :
    (∀ x ∈ cs, x.1.role ≠ r) ↔ ∀ c ∈ roled cs, c.1 ≠ r := by
  unfold roled
  rw [List.forall_mem_map]

/-- Symbols of one address correspond to each other in everything that is answered about them. -/
theorem exists_reordered_of_sameAddress (h : FreeOfConflicts files)
    (σ : Equiv.Perm (Fin files.length)) {i j : Nat}
    (same : SameAddress files (reorder files σ) i j) :
    ∃ s t docId cs, Reordered (ofFiles files) (ofFiles (reorder files σ)) (placeUnder σ) i j
      s t docId cs := by
  obtain ⟨e, e', he, he', haddress⟩ := same
  obtain ⟨s, docId, cs, hs, hdocId, hpieces, hcomment, -, hfit, hxml⟩ :=
    exists_answers files (lt_size_of_entry he)
  obtain rfl : s = e.symbol := Except.ok.inj (hs.symm.trans (symbol_of_entry he))
  have hs' := symbol_of_entry he'
  have hdocId' : (ofFiles (reorder files σ)).index.docId j = .ok docId :=
    (docId_reorder h he he' haddress).trans hdocId
  obtain ⟨hpieces', hfit'⟩ := pieces_reorder h he he' haddress hpieces
  have hcomments : (ofFiles files).comments i = .ok cs := comments_of_pieces hpieces hcomment
  have hcomments' : (ofFiles (reorder files σ)).comments j = .ok (moved (placeUnder σ) cs) := by
    refine comments_of_pieces hpieces' ?_
    intro x hx
    obtain ⟨y, hy, rfl⟩ := List.mem_map.1 hx
    exact comment_reorder σ (hcomment y ((perm_inOrder cs).mem_iff.1 hy))
  obtain ⟨htype, hmethod⟩ := sort_counterpart (tracks_of_orderly h.orderly)
    (tracks_of_orderly (h.orderly_reorder σ)) (perm_listing_reorder σ) (List.mem_of_getElem? he)
    (List.mem_of_getElem? he') haddress
  have hroled : (roled (moved (placeUnder σ) cs)).Perm (roled cs) := by
    rw [roled_moved]
    exact (perm_inOrder cs).map _
  refine ⟨e.symbol, e'.symbol, docId, cs, ⟨hs, hs'⟩, htype, ⟨hdocId, hdocId'⟩,
    ⟨hpieces, hpieces'⟩, ?_, ⟨hcomments, hcomments'⟩, ?_, ?_⟩
  · rw [map_fst_moved]
    exact (perm_inOrder _).map _
  · intro hmember
    have hmerge := mergeComments_eq_of_perm hmember htype hmethod hfit hfit' hroled
    have himplementing : (∀ x ∈ moved (placeUnder σ) cs, x.1.role ≠ .implementing) ↔
        ∀ x ∈ cs, x.1.role ≠ .implementing := by
      rw [forall_role_ne_iff, forall_role_ne_iff]
      exact forall_congr' fun c => imp_congr_left hroled.mem_iff
    refine ⟨⟨_, merged_eq_ok hs hcomments, ?_⟩, ?_⟩
    · rw [merged_eq_ok hs' hcomments', hmerge]
    · intro policy
      refine ⟨_, hxml policy, ?_⟩
      rw [xml_eq hs' hdocId' hpieces' hcomments' policy, hmerge]
      simp only [himplementing, hmethod]
  · intro hkind
    refine ⟨_, _, merged_eq_ok hs hcomments, merged_eq_ok hs' hcomments', stacked_of_type hkind, ?_⟩
    rw [roled_moved]
    exact stacked_of_type (htype ▸ hkind)

/-- **Reordering the files of a compilation without conflicts only reorders the comments of its
types.**  The symbols correspond to each other one to one, with the same documentation IDs and the
same pieces. -/
theorem exists_reordered (files : List SourceFile) (h : FreeOfConflicts files)
    (σ : Equiv.Perm (Fin files.length)) :
    ∃ e : Fin (ofFiles files).index.size ≃ Fin (ofFiles (reorder files σ)).index.size,
      ∀ i : Fin (ofFiles files).index.size, ∃ s t docId cs,
        Reordered (ofFiles files) (ofFiles (reorder files σ)) (placeUnder σ) i
          (e i) s t docId cs := by
  obtain ⟨e, hsame⟩ := exists_equiv h σ
  exact ⟨e, fun i => exists_reordered_of_sameAddress h σ (hsame i)⟩

/-! ## The parts of a class the other way around -/

/-- The numbers that the declarations of both parts get. -/
theorem numbered_bothParts : IndexBuilder.empty.numbered (handed bothParts) =
    [(sharedClass, some 0), (sharedMethod, some 1), (sharedClass, some 0), (sharedMethod, some 1),
     (innerClass, some 2), (innerMethod, some 3)] := by
  rw [handed_bothParts]
  decide +kernel

/-- Nothing in one part conflicts with the other one. -/
theorem freeOfConflicts_bothParts : FreeOfConflicts bothParts where
  accepted := by
    rw [numbered_bothParts]
    decide +kernel
  alike := by
    rw [numbered_bothParts]
    decide +kernel
  readable := by
    rw [numbered_bothParts]
    unfold Symbol.Readable
    decide +kernel

/-- The order of the files from the last one to the first. -/
def backward : Equiv.Perm (Fin bothParts.length) := Fin.revPerm

/-- From the last file to the first, the comments of the class come the other way around. -/
theorem inOrder_backward_classComments :
    inOrder (placeUnder backward) Prod.fst classComments = classComments.reverse := by
  have hfirst : placeUnder backward 0 = 1 := by decide +kernel
  have hsecond : placeUnder backward 1 = 0 := by decide +kernel
  simp [inOrder, byPlace, List.mergeSort, classComments, firstPart, secondPart, hfirst, hsecond]

/-- The file with the implementing part may as well come first.  The comments of the class then
stand the other way around. -/
theorem exists_reordered_bothParts : FreeOfConflicts bothParts ∧
    reorder bothParts backward = [implementingPart, definingPart] ∧
    ∃ e : Fin (ofFiles bothParts).index.size ≃
        Fin (ofFiles (reorder bothParts backward)).index.size,
      (∀ i : Fin (ofFiles bothParts).index.size, ∃ s t docId cs,
        Reordered (ofFiles bothParts) (ofFiles (reorder bothParts backward))
          (placeUnder backward) i (e i) s t docId cs) ∧
      ∃ i : Fin (ofFiles bothParts).index.size,
        (ofFiles bothParts).merged i = .ok (some "First.\nSecond.".toList) ∧
        (ofFiles (reorder bothParts backward)).merged (e i) =
          .ok (some "Second.\nFirst.".toList) := by
  refine ⟨freeOfConflicts_bothParts, rfl, ?_⟩
  obtain ⟨e, hsame⟩ := exists_reordered bothParts freeOfConflicts_bothParts backward
  have hsize : 0 < (ofFiles bothParts).index.size := by
    rw [size_bothParts]
    decide
  refine ⟨e, hsame, ⟨0, hsize⟩, ?_⟩
  obtain ⟨s, t, docId, cs, h⟩ := hsame ⟨0, hsize⟩
  have hs := h.symbol.1
  rw [SymbolIndex.symbol_eq_ok_iff, symbols_bothParts] at hs
  obtain rfl : sharedClass = s := Option.some.inj hs
  obtain rfl : cs = classComments := Except.ok.inj (h.comments.1.symm.trans comments_sharedClass)
  obtain ⟨body, body', hmerged, hmerged', hbody, hbody'⟩ := h.type rfl
  rw [inOrder_backward_classComments] at hbody'
  rw [hmerged, hmerged', hbody.present ⟨_, List.mem_cons_self, by simp⟩,
    hbody'.present ⟨_, List.mem_cons_self, by simp⟩]
  exact ⟨rfl, rfl⟩

end Compilation

end PartialDocs
