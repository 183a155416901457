import PartialDocs.Proofs.Declaration.Roles
import PartialDocs.Proofs.Index.Step

/-!
# The invariant of the builder

`Sound` holds of every builder that a compilation reaches.  Symbols stand in types that
came before them, each key stands for exactly the symbol that has it, and the pieces of
every symbol fit it.  The main statement is `Sound.add`: a declaration that is placed and
has a fitting role keeps the invariant, whether it founds a symbol, joins one or is
refused.
-/

set_option autoImplicit false

namespace PartialDocs

/-- A symbol that may come after the given ones.  It is in one of the types among them or is itself
a type, and only a type that nothing contains states a namespace. -/
structure Placed (symbols : List Symbol) (s : Symbol) : Prop where
  inType : ∀ c : Nat, s.container = some c →
    ∃ t, symbols[c]? = some t ∧ t.kind.isType = true
  outside : s.container = none → s.kind.isType = true
  nameSpace : ∀ c : Nat, s.container = some c → s.nameSpace = none

/-- Every symbol may come after the ones before it. -/
def WellPlaced (symbols : List Symbol) : Prop :=
  ∀ (id : Nat) (s : Symbol), symbols[id]? = some s → Placed (symbols.take id) s

section Placement

variable {symbols : List Symbol} {s : Symbol}

/-- The container of a placed symbol has a number. -/
theorem Placed.container_lt (h : Placed symbols s) {c : Nat} (hc : s.container = some c) :
    c < symbols.length := by
  obtain ⟨t, ht, -⟩ := h.inType c hc
  exact (List.getElem?_eq_some_iff.1 ht).1

/-- What is placed among some symbols is placed among more. -/
theorem Placed.append (h : Placed symbols s) (later : List Symbol) :
    Placed (symbols ++ later) s where
  inType c hc := by
    obtain ⟨t, ht, htype⟩ := h.inType c hc
    refine ⟨t, ?_, htype⟩
    rw [List.getElem?_append_left (List.getElem?_eq_some_iff.1 ht).1, ht]
  outside := h.outside
  nameSpace := h.nameSpace

/-- A member is in a type. -/
theorem Placed.exists_container (h : Placed symbols s) (member : s.kind.isType = false) :
    ∃ c : Nat, s.container = some c := by
  cases hc : s.container with
  | none => simp [h.outside hc] at member
  | some c => exact ⟨c, rfl⟩

/-- Among well placed symbols each is placed. -/
theorem WellPlaced.placed (h : WellPlaced symbols) {id : Nat} (hs : symbols[id]? = some s) :
    Placed symbols s := by
  have hplaced := (h id s hs).append (symbols.drop id)
  rwa [List.take_append_drop] at hplaced

/-- Among well placed symbols containers come first. -/
theorem WellPlaced.containersFirst (h : WellPlaced symbols) : ContainersFirst symbols := by
  intro id c s hs hc
  have hlt := (h id s hs).container_lt hc
  rw [List.length_take] at hlt
  omega

/-- One more placed symbol keeps symbols well placed. -/
theorem wellPlaced_append_singleton (h : WellPlaced symbols) (hs : Placed symbols s) :
    WellPlaced (symbols ++ [s]) := by
  intro id t ht
  rcases Nat.lt_or_ge id symbols.length with hlt | hge
  · rw [List.getElem?_append_left hlt] at ht
    rw [List.take_append_of_le_length (Nat.le_of_lt hlt)]
    exact h id t ht
  · rw [List.getElem?_append_right hge, List.getElem?_singleton] at ht
    split at ht
    · rename_i hid
      rw [Option.some.injEq] at ht
      subst ht
      rw [show id = symbols.length by omega, List.take_left]
      exact hs
    · simp at ht

end Placement

namespace IndexBuilder

/-- What holds of the builder at every moment. -/
structure Sound (b : IndexBuilder) : Prop where
  placed : WellPlaced b.symbols
  /-- A key stands for a number exactly when the symbol with that number has the key. -/
  keyed : ∀ (k : SymbolKey) (id : Nat),
    b.find? k = some id ↔ ∃ s, b.symbols[id]? = some s ∧ b.key s = k
  pieces : ∀ e ∈ b.entries, PiecesFit e.symbol e.pieces

/-- A declaration that may be handed to the builder. -/
structure Allowed (b : IndexBuilder) (s : Symbol) (p : Piece) : Prop where
  placed : Placed b.symbols s
  role : p.role.Fits s

variable {b b' : IndexBuilder} {s t : Symbol} {p : Piece} {r : Option SymbolId}

/-! ## Symbols that share a key -/

/-- Symbols with one key are in one place, have one name and one arity, and are both types or are
members of one kind with one signature. -/
theorem key_eq_key (hs : Placed b.symbols s) (ht : Placed b.symbols t) (h : b.key s = b.key t) :
    s.container = t.container ∧ s.nameSpace = t.nameSpace ∧ s.name = t.name ∧
      s.arity = t.arity ∧ s.kind.isType = t.kind.isType ∧
      (s.kind.isType = false → s.kind = t.kind ∧
        ∀ c : Nat, s.container = some c → signature b.symbols c s = signature b.symbols c t) := by
  cases hks : s.kind.isType with
  | true =>
    rw [key_of_type b hks] at h
    cases hkt : t.kind.isType with
    | true =>
      rw [key_of_type b hkt] at h
      obtain ⟨hc, hn, hname, harity⟩ := SymbolKey.type.inj h
      exact ⟨hc, hn, hname, harity, rfl, by simp⟩
    | false =>
      obtain ⟨c, hc⟩ := ht.exists_container hkt
      rw [key_of_member b hkt hc] at h
      cases h
  | false =>
    obtain ⟨c, hc⟩ := hs.exists_container hks
    rw [key_of_member b hks hc] at h
    cases hkt : t.kind.isType with
    | true =>
      rw [key_of_type b hkt] at h
      cases h
    | false =>
      obtain ⟨d, hd⟩ := ht.exists_container hkt
      rw [key_of_member b hkt hd] at h
      obtain ⟨rfl, hkind, hname, harity, hsig⟩ := SymbolKey.member.inj h
      refine ⟨hc.trans hd.symm, ?_, hname, harity, rfl, ?_⟩
      · rw [hs.nameSpace _ hc, ht.nameSpace _ hd]
      · intro _
        refine ⟨hkind, ?_⟩
        intro c' hc'
        rw [hc, Option.some.injEq] at hc'
        rw [← hc']
        exact hsig

/-! ## The invariant -/

/-- The builder before any declaration is sound. -/
theorem sound_empty : Sound empty where
  placed := by
    intro id s hs
    simp [symbols, empty] at hs
  keyed := by
    intro k id
    simp [find?, symbols, empty]
  pieces := by
    intro e he
    simp [empty] at he

/-- An entry is found under the key of its symbol. -/
theorem Sound.entry_symbol (h : Sound b) {id : Nat} {k : SymbolKey} {e : IndexEntry}
    (taken : b.find? k = some id) (entry : b.entries[id]? = some e) : b.key e.symbol = k := by
  obtain ⟨t, ht, hkey⟩ := (h.keyed k id).1 taken
  rw [symbols_getElem?, entry, Option.map_some, Option.some.injEq] at ht
  rw [ht]
  exact hkey

/-- Each key stands for the symbol that has it, after a step as before. -/
theorem Sound.keyed_step (h : Sound b) (hs : Placed b.symbols s) (step : Step b s p b' r) :
    ∀ (k : SymbolKey) (id : Nat),
      b'.find? k = some id ↔ ∃ t, b'.symbols[id]? = some t ∧ b'.key t = k := by
  intro k id
  cases step with
  | founds free =>
    generalize hb' : (⟨b.entries ++ [⟨s, [p]⟩], (b.key s, b.entries.length) :: b.keys⟩ :
      IndexBuilder) = b'
    have hsymbols : b'.symbols = b.symbols ++ [s] := by
      rw [← hb']
      simp [symbols]
    have hfirst : ContainersFirst b'.symbols := by
      rw [hsymbols]
      exact (wellPlaced_append_singleton h.placed hs).containersFirst
    have hkey : ∀ t, Placed b.symbols t → b'.key t = b.key t := fun t ht =>
      key_of_append hsymbols hfirst fun c hc => ht.container_lt hc
    have hfind : b'.find? k = if k = b.key s then some b.symbols.length else b.find? k := by
      rw [← hb', length_symbols]
      unfold find?
      rw [List.lookup_cons]
      split
      · rename_i heq
        rw [if_pos (by simpa using heq)]
      · rename_i hne
        rw [if_neg (by simpa using hne)]
    rw [hfind, hsymbols]
    constructor
    · split
      · rename_i hk
        intro hid
        rw [Option.some.injEq] at hid
        refine ⟨s, ?_, (hkey s hs).trans hk.symm⟩
        rw [← hid]
        simp
      · intro hid
        obtain ⟨t, ht, htk⟩ := (h.keyed k id).1 hid
        refine ⟨t, ?_, (hkey t (h.placed.placed ht)).trans htk⟩
        rw [List.getElem?_append_left (List.getElem?_eq_some_iff.1 ht).1, ht]
    · rintro ⟨t, ht, htk⟩
      rcases Nat.lt_or_ge id b.symbols.length with hlt | hge
      · rw [List.getElem?_append_left hlt] at ht
        rw [hkey t (h.placed.placed ht)] at htk
        have hold := (h.keyed k id).2 ⟨t, ht, htk⟩
        -- the key of the new symbol was free, so it is not this one
        rw [if_neg (by rintro rfl; simp [free] at hold), hold]
      · rw [List.getElem?_append_right hge, List.getElem?_singleton] at ht
        split at ht
        · rename_i hid
          rw [Option.some.injEq] at ht
          subst ht
          rw [hkey s hs] at htk
          rw [if_pos htk.symm, show id = b.symbols.length by omega]
        · simp at ht
  | @joins id' e taken entry takes =>
    have hstep := Step.joins (p := p) taken entry takes
    obtain ⟨hfree, -⟩ | ⟨-, hsymbols, hkeys⟩ := hstep.symbols_eq
    · simp [taken] at hfree
    · rw [find?, hkeys, hsymbols]
      simp only [key_congr hsymbols]
      exact h.keyed k id
  | refuses => exact h.keyed k id

/-- **A declaration that may be handed to the builder keeps it sound.** -/
theorem Sound.add (h : Sound b) (hs : Allowed b s p) : Sound (b.add s p).1 := by
  have hstep := add_step b s p
  generalize b.add s p = result at hstep ⊢
  obtain ⟨b', r⟩ := result
  refine ⟨?_, h.keyed_step hs.placed hstep, ?_⟩
  · rcases hstep.symbols_eq with ⟨-, hsymbols⟩ | ⟨-, hsymbols, -⟩
    · rw [hsymbols]
      exact wellPlaced_append_singleton h.placed hs.placed
    · rw [hsymbols]
      exact h.placed
  · cases hstep with
    | founds free =>
      intro e he
      rcases List.mem_append.1 he with he | he
      · exact h.pieces e he
      · rw [List.mem_singleton.1 he]
        exact piecesFit_singleton hs.role
    | @joins id e taken entry takes =>
      have hkey := h.entry_symbol taken entry
      have he : e ∈ b.entries := List.mem_of_getElem? entry
      have hplaced : Placed b.symbols e.symbol :=
        h.placed.placed (by rw [symbols_getElem?, entry]; rfl)
      obtain ⟨-, -, -, -, htype, hkind⟩ := key_eq_key hs.placed hplaced hkey.symm
      have hpartial : s.isPartial = e.symbol.isPartial := by
        unfold IndexBuilder.takes at takes
        simp only [Bool.and_eq_true] at takes
        rw [takes.1.1, takes.1.2]
      have hrole := hs.role.congr hpartial htype fun hm => (hkind hm).1
      intro e' he'
      rcases List.mem_or_eq_of_mem_set he' with he' | rfl
      · exact h.pieces e' he'
      · exact (h.pieces e he).append_of_takes hrole takes
    | refuses => exact h.pieces

end IndexBuilder

end PartialDocs
