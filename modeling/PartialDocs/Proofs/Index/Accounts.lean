import Mathlib.Data.List.Perm.Basic
import PartialDocs.Proofs.Index.Arena
import PartialDocs.Proofs.Index.Requests
import PartialDocs.Proofs.Index.Sorting

/-!
# No declaration is lost or counted twice

A builder that starts empty is asked for declarations and additions in any order.
`accounts_of_nested` balances the finished index against the log of these requests.  Numbers
are given in order, every accepted piece stands once in the arena and in the range of the
symbol that took it, and refused requests leave no trace.  The only condition is that a
symbol is in none or in an earlier one (`Nested`).
-/

set_option autoImplicit false

namespace PartialDocs

/-- Whether a list holds the pieces of another one in the order of file, offset, line and column,
where pieces at the same place stay in their order. -/
structure StablySorted (ps qs : List Piece) : Prop where
  perm : ps.Perm qs
  sorted : ps.Pairwise fun p q => p.startsBy q = true
  stable : ∀ p : Piece, (ps.filter fun q => q.key = p.key) = qs.filter fun q => q.key = p.key

/-- Pieces are level when they stand at the same place. -/
theorem Piece.level_startsBy (p q : Piece) : level Piece.startsBy p q = decide (q.key = p.key) := by
  unfold level startsBy
  rw [Bool.eq_iff_iff, Bool.and_eq_true, Bool.not_eq_true', Bool.not_eq_true',
    List.lex_eq_false_iff_ge, List.lex_eq_false_iff_ge, decide_eq_true_eq]
  constructor
  · rintro ⟨hpq, hqp⟩
    exact List.le_antisymm hqp hpq
  · intro hkey
    rw [hkey]
    exact ⟨List.le_refl _, List.le_refl _⟩

/-- Sorting is stable. -/
theorem stablySorted_mergeSort (qs : List Piece) :
    StablySorted (qs.mergeSort Piece.startsBy) qs where
  perm := List.mergeSort_perm qs _
  sorted := List.pairwise_mergeSort Piece.startsBy_trans Piece.startsBy_total qs
  stable := by
    intro p
    have hclass := class_mergeSort Piece.startsBy_trans Piece.startsBy_total p qs
    unfold classOf at hclass
    rwa [List.filter_congr fun q _ => Piece.level_startsBy p q,
      List.filter_congr fun q _ => Piece.level_startsBy p q] at hclass

/-- The elements that are numbered up to a bound, taken number by number, are all of them. -/
theorem flatMap_range_filter_perm {α : Type} (number : α → Nat) (l : List α) (n : Nat) :
    ((List.range n).flatMap fun i => l.filter fun x => number x = i).Perm
      (l.filter fun x => number x < n) := by
  induction n with
  | zero => simp
  | succ n ih =>
    have hsplit := List.filter_append_perm (fun x => decide (number x < n))
      (l.filter fun x => number x < n + 1)
    rw [List.filter_filter, List.filter_filter] at hsplit
    have hbelow : (l.filter fun x => decide (number x < n) && decide (number x < n + 1)) =
        l.filter fun x => number x < n :=
      List.filter_congr fun x _ => by rw [← Bool.decide_and]; congr 1; simp; omega
    have hhere : (l.filter fun x => !decide (number x < n) && decide (number x < n + 1)) =
        l.filter fun x => number x = n :=
      List.filter_congr fun x _ => by
        rw [← decide_not, ← Bool.decide_and]; congr 1; simp; omega
    rw [hbelow, hhere] at hsplit
    rw [List.range_succ, List.flatMap_append, List.flatMap_singleton]
    exact (ih.append_right _).trans hsplit

namespace SymbolIndex

/-- The pieces that an index answers for a symbol, none where it answers an error. -/
def collected (index : SymbolIndex) (id : SymbolId) : List Piece :=
  match index.pieces id with
  | .ok ps => ps
  | .error _ => []

/-- What an index answers for a symbol is what the range of the symbol holds. -/
theorem own_arena_eq_collected (index : SymbolIndex) (id : Nat) :
    index.arena.own id = index.collected id := by
  rw [own_arena]
  unfold collected pieces
  cases index.entries[id]? with
  | none => rfl
  | some e =>
    cases hpieces : e.pieces with
    | nil => simp [hpieces]
    | cons p ps => simp [hpieces]

end SymbolIndex

namespace IndexBuilder

/-- What the answers to some requests, asked of an empty builder, and the index that is built then
have to do with each other. -/
structure Accounts (rs : List Request) (log : List Answered) (index : SymbolIndex) : Prop where
  /-- Every request is answered as the last symbol with the key of the requested one decides. -/
  verdicts : ∀ (before later : List Request) (r : Request), rs = before ++ r :: later →
    (empty.after before).Verdict r ((empty.after before).perform r).2
  /-- The symbols get the numbers 0, 1, 2 and so on in the order in which they are made. -/
  fresh : empty.made rs = index.symbols.zipIdx
  /-- The index answers what the range of a symbol in the arena holds, or an error for an empty
  range. -/
  ranges : ∀ (id : Nat) (s : Symbol), index.symbols[id]? = some s →
    index.pieces id = if (index.arena.own id).isEmpty then .error (.noDeclarations s.name)
      else .ok (index.arena.own id)
  /-- What the index answers, symbol after symbol, is the arena. -/
  arena : index.arena.pieces = index.ids.flatMap index.collected
  /-- Every accepted piece is answered once, for the number under which it was accepted. -/
  once : (index.ids.flatMap fun id => (index.collected id).map (Prod.mk id)).Perm (accepted log)
  /-- The accepted pieces of a symbol are sorted stably. -/
  sorted : ∀ id : Nat, StablySorted (index.collected id) (acceptedUnder id log)
  /-- A symbol with accepted pieces answers them. -/
  answered : ∀ id : Nat, acceptedUnder id log ≠ [] → index.pieces id = .ok (index.collected id)
  /-- An index misses the declarations of a symbol where it was declared and nothing was accepted.
  -/
  missing : ∀ (id : Nat) (name : Text), index.pieces id = .error (.noDeclarations name) ↔
    (∃ s : Symbol, ⟨.declare s, some id⟩ ∈ log ∧ s.name = name) ∧
      ∀ (s : Symbol) (p : Piece), ⟨.add s p, some id⟩ ∉ log
  /-- Without the refused requests, all other answers and the index are the same. -/
  refused : empty.log (kept log) = log.filter (fun x => x.answer.isSome) ∧
    (empty.after (kept log)).build = index

variable {b : IndexBuilder} {rs : List Request} {l : List Answered}

/-! ## The built index -/

/-- What is built of an entry: its pieces are sorted. -/
theorem getElem?_build (b : IndexBuilder) (id : Nat) :
    b.build.entries[id]? =
      (b.entries[id]?).map fun e => ⟨e.symbol, e.pieces.mergeSort Piece.startsBy⟩ :=
  List.getElem?_map ..

/-- A built index answers the pieces of the builder in order. -/
theorem collected_build (b : IndexBuilder) (id : Nat) :
    b.build.collected id = (b.piecesOf id).mergeSort Piece.startsBy := by
  rw [← SymbolIndex.own_arena_eq_collected, SymbolIndex.own_arena, getElem?_build]
  unfold piecesOf
  cases b.entries[id]? with
  | none => exact List.mergeSort_nil.symm
  | some e => rfl

/-- The pieces of a symbol are missing in the index when the builder has none. -/
theorem pieces_build_eq_missing_iff {id : Nat} {name : Text} :
    b.build.pieces id = .error (.noDeclarations name) ↔
      (∃ s, b.symbols[id]? = some s ∧ s.name = name) ∧ b.piecesOf id = [] := by
  unfold SymbolIndex.pieces piecesOf
  rw [getElem?_build, symbols_getElem?]
  cases b.entries[id]? with
  | none => simp
  | some e =>
    have hempty : e.pieces.mergeSort Piece.startsBy = [] ↔ e.pieces = [] := by
      rw [← List.length_eq_zero_iff, List.length_mergeSort, List.length_eq_zero_iff]
    by_cases hpieces : e.pieces = []
    · simp [hpieces]
    · simp [hempty, hpieces]

/-! ## Accepted pieces -/

/-- A piece is accepted under a number when a request was answered so. -/
theorem mem_accepted {id : Nat} {p : Piece} :
    (id, p) ∈ accepted l ↔ ∃ s, ⟨.add s p, some id⟩ ∈ l := by
  unfold accepted
  rw [List.mem_filterMap]
  constructor
  · rintro ⟨⟨r, answer⟩, hx, hsome⟩
    cases r with
    | declare s => simp [Answered.accepted?] at hsome
    | add s q =>
      cases answer with
      | none => simp [Answered.accepted?] at hsome
      | some i =>
        obtain ⟨rfl, rfl⟩ := Prod.mk.inj (Option.some.inj hsome)
        exact ⟨s, hx⟩
  · rintro ⟨s, hs⟩
    exact ⟨_, hs, rfl⟩

/-- Nothing is accepted under a number that no request was answered with. -/
theorem acceptedUnder_eq_nil_iff {id : Nat} :
    acceptedUnder id l = [] ↔ ∀ (s : Symbol) (p : Piece), ⟨.add s p, some id⟩ ∉ l := by
  unfold acceptedUnder
  rw [List.map_eq_nil_iff, List.filter_eq_nil_iff]
  constructor
  · intro h s p hmem
    exact h (id, p) (mem_accepted.2 ⟨s, hmem⟩) (by simp)
  · rintro h ⟨i, p⟩ hmem hi
    obtain rfl : i = id := by simpa using hi
    obtain ⟨s, hs⟩ := mem_accepted.1 hmem
    exact h s p hs

/-- The pieces that were accepted under a number, each with the number again. -/
theorem map_acceptedUnder (id : Nat) (l : List Answered) :
    (acceptedUnder id l).map (Prod.mk id) = (accepted l).filter fun x => x.1 = id := by
  unfold acceptedUnder
  rw [List.map_map]
  calc ((accepted l).filter fun x => x.1 = id).map (Prod.mk id ∘ Prod.snd)
      = ((accepted l).filter fun x => x.1 = id).map fun x => x := by
        refine List.map_congr_left fun x hx => ?_
        obtain rfl : x.1 = id := by simpa using (List.mem_filter.1 hx).2
        rfl
    _ = (accepted l).filter fun x => x.1 = id := List.map_id _

/-! ## The accounts -/

/-- The empty builder has no symbols. -/
theorem symbols_empty : empty.symbols = [] := rfl

/-- The empty builder has no pieces. -/
theorem piecesOf_empty (id : Nat) : empty.piecesOf id = [] := rfl

/-- The symbols that a run makes out of nothing are those of its index. -/
theorem made_eq_zipIdx (rs : List Request) :
    empty.made rs = (empty.after rs).build.symbols.zipIdx := by
  have h := zipIdx_symbols_after empty rs
  rwa [symbols_empty, List.zipIdx_nil, List.nil_append, ← symbols_build, eq_comm] at h

/-- The pieces of a symbol after a run that began with nothing are those that were accepted. -/
theorem piecesOf_after_empty (rs : List Request) (id : Nat) :
    (empty.after rs).piecesOf id = acceptedUnder id (empty.log rs) := by
  rw [piecesOf_after, piecesOf_empty, List.nil_append]

/-- Every piece that was accepted has the number of a symbol. -/
theorem lt_of_mem_accepted {x : SymbolId × Piece} (hx : x ∈ accepted (empty.log rs)) :
    x.1 < (empty.after rs).build.size := by
  obtain ⟨s, hs⟩ := mem_accepted.1 (show (x.1, x.2) ∈ accepted (empty.log rs) from hx)
  rw [SymbolIndex.size_eq, symbols_build]
  exact lt_of_answered hs rfl

/-- Every piece that is accepted is collected once. -/
theorem once_after (rs : List Request) :
    ((empty.after rs).build.ids.flatMap fun id =>
      ((empty.after rs).build.collected id).map (Prod.mk id)).Perm (accepted (empty.log rs)) := by
  have hclass : ∀ id : Nat, (((empty.after rs).build.collected id).map (Prod.mk id)).Perm
      ((accepted (empty.log rs)).filter fun x => x.1 = id) := by
    intro id
    rw [collected_build, piecesOf_after_empty, ← map_acceptedUnder]
    exact (List.mergeSort_perm _ _).map _
  have hall : ((accepted (empty.log rs)).filter fun x => x.1 < (empty.after rs).build.size) =
      accepted (empty.log rs) :=
    List.filter_eq_self.2 fun x hx => by simpa using lt_of_mem_accepted hx
  refine (List.Perm.flatMap_left _ fun id _ => hclass id).trans ?_
  rw [SymbolIndex.ids]
  refine (flatMap_range_filter_perm _ _ _).trans ?_
  rw [hall]

/-- A symbol lacks pieces when it was declared and no piece was accepted for it. -/
theorem missing_after (rs : List Request) (id : Nat) (name : Text) :
    (empty.after rs).build.pieces id = .error (.noDeclarations name) ↔
      (∃ s : Symbol, ⟨.declare s, some id⟩ ∈ empty.log rs ∧ s.name = name) ∧
        ∀ (s : Symbol) (p : Piece), ⟨.add s p, some id⟩ ∉ empty.log rs := by
  have hmade : ∀ s : Symbol, (empty.after rs).symbols[id]? = some s ↔ (s, id) ∈ empty.made rs := by
    intro s
    rw [made_eq_zipIdx, List.mem_zipIdx_iff_getElem?, symbols_build]
  rw [pieces_build_eq_missing_iff, piecesOf_after_empty, acceptedUnder_eq_nil_iff]
  refine and_congr_left fun hnone => ?_
  constructor
  · rintro ⟨s, hs, hname⟩
    obtain ⟨r, hsymbol, hlog⟩ := exists_request_of_made ((hmade s).1 hs)
    -- nothing was added under this number, so it was a declaration that made the symbol
    cases r with
    | declare t =>
      obtain rfl : t = s := hsymbol
      exact ⟨t, hlog, hname⟩
    | add t p => exact absurd hlog (hnone t p)
  · rintro ⟨s, hlog, hname⟩
    exact ⟨s, (hmade s).2 (made_of_declared hlog), hname⟩

/-- **A builder neither loses nor doubles a declaration.** -/
theorem accounts_of_nested (rs : List Request) (nested : empty.Nested rs) :
    Accounts rs (empty.log rs) (empty.after rs).build where
  verdicts := by
    rintro before later r rfl
    exact (keyed_empty.after (nested_append.1 nested).1).verdict r
  fresh := made_eq_zipIdx rs
  ranges _ _ hs := SymbolIndex.pieces_eq_own _ hs
  arena := by
    rw [SymbolIndex.pieces_arena]
    exact List.flatMap_congr fun id _ => SymbolIndex.own_arena_eq_collected _ id
  once := once_after rs
  sorted := by
    intro id
    rw [collected_build, piecesOf_after_empty]
    exact stablySorted_mergeSort _
  answered := by
    intro id hid
    rw [collected_build]
    rw [← piecesOf_after_empty] at hid
    unfold piecesOf at hid ⊢
    cases he : (empty.after rs).entries[id]? with
    | none => simp [he] at hid
    | some e => exact pieces_build_eq_ok he (by simpa [he] using hid)
  missing := missing_after rs
  refused := by
    obtain ⟨hlog, hafter⟩ := log_kept empty rs
    exact ⟨hlog, by rw [hafter]⟩

/-! ## A run with all answers -/

/-- A partial class and a partial method of it. -/
def partialClass : Symbol := { name := ['C'], kind := .class, isPartial := true }

/-- A partial method. -/
def partialMethod : Symbol :=
  { name := ['M'], kind := .method, container := some 0, isPartial := true }

/-- A piece of the class or the method at an offset of a file. -/
def pieceAt (file offset : Nat) (role : Role) : Piece := ⟨file, offset, offset + 1, 0, 0, "", role⟩

/-- Parts of the class arrive out of order, and the method is implemented twice.  Declaring it once
more makes a second symbol with its key, which takes the implementation that was refused before. -/
def mixedRequests : List Request :=
  [.add partialClass (pieceAt 1 0 .part), .add partialClass (pieceAt 0 0 .part),
   .add partialMethod (pieceAt 0 5 .defining), .add partialMethod (pieceAt 0 7 .implementing),
   .add partialMethod (pieceAt 1 5 .implementing), .declare partialMethod,
   .add partialMethod (pieceAt 1 5 .implementing), .declare { partialMethod with name := ['N'] }]

example : (empty.log mixedRequests).map Answered.answer =
    [some 0, some 0, some 1, some 1, none, some 2, some 2, some 3] := by
  decide +kernel

/-- The requests fit into each other. -/
theorem nested_mixedRequests : empty.Nested mixedRequests := by
  have hclass : ∀ (b : IndexBuilder) (c : Nat),
      partialClass.container = some c → c < b.symbols.length := by
    intro b c hc
    simp [partialClass] at hc
  have hmethod : ∀ (b : IndexBuilder) (s : Symbol), s.container = some 0 → 0 < b.symbols.length →
      ∀ c : Nat, s.container = some c → c < b.symbols.length := by
    intro b s hs hb c hc
    obtain rfl : 0 = c := Option.some.inj (hs.symm.trans hc)
    exact hb
  refine ⟨hclass _, hclass _, ?_, ?_, ?_, ?_, ?_, ?_, trivial⟩ <;>
    exact hmethod _ _ rfl (by decide +kernel)

/-- The accounts of this run. -/
theorem accounts_of_nested_mixedRequests : empty.Nested mixedRequests ∧
    Accounts mixedRequests (empty.log mixedRequests) (empty.after mixedRequests).build :=
  ⟨nested_mixedRequests, accounts_of_nested mixedRequests nested_mixedRequests⟩

end IndexBuilder

end PartialDocs
