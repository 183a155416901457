import PartialDocs.Index.Builder
import PartialDocs.Proofs.Index.Chain

/-!
# What one declaration does to the builder

A declaration founds a symbol, joins one, or is refused.  `add_step` says so once, with
everything that is known in each case, and later proofs split into these three cases and
do not open `add`.  The rest of the file is about keys: which symbols share one, and that
a key stays the same while further symbols are founded.
-/

set_option autoImplicit false

namespace PartialDocs.IndexBuilder

/-- The symbols so far, in the order of their numbers. -/
def symbols (b : IndexBuilder) : List Symbol := b.entries.map IndexEntry.symbol

/-- What adding a declaration can do, with the answer. -/
inductive Step (b : IndexBuilder) (s : Symbol) (p : Piece) :
    IndexBuilder → Option SymbolId → Prop where
  /-- No symbol has the key, so the declaration founds one. -/
  | founds (free : b.find? (b.key s) = none) :
      Step b s p ⟨b.entries ++ [⟨s, [p]⟩], (b.key s, b.entries.length) :: b.keys⟩
        (some b.entries.length)
  /-- The symbol with the key takes the piece. -/
  | joins {id : Nat} {e : IndexEntry} (taken : b.find? (b.key s) = some id)
      (entry : b.entries[id]? = some e) (takes : takes e s p = true) :
      Step b s p ⟨b.entries.set id ⟨e.symbol, e.pieces ++ [p]⟩, b.keys⟩ (some id)
  /-- The symbol with the key does not take the piece. -/
  | refuses {id : Nat} (taken : b.find? (b.key s) = some id)
      (refused : ∀ e, b.entries[id]? = some e → IndexBuilder.takes e s p = false) :
      Step b s p b none

/-- Every addition is one of the three steps. -/
theorem add_step (b : IndexBuilder) (s : Symbol) (p : Piece) :
    Step b s p (b.add s p).1 (b.add s p).2 := by
  unfold add
  cases hfind : b.find? (b.key s) with
  | none => exact Step.founds hfind
  | some id =>
    cases hentry : b.entries[id]? with
    | none =>
      simp only [hentry]
      exact Step.refuses hfind (by simp [hentry])
    | some e =>
      by_cases htakes : takes e s p = true
      · simp only [hentry, htakes, if_true]
        exact Step.joins hfind hentry htakes
      · simp only [hentry, htakes]
        refine Step.refuses hfind ?_
        intro e' he'
        rw [hentry, Option.some.injEq] at he'
        rw [← he']
        simpa using htakes

/-! ## The symbols after a step -/

/-- There are as many symbols as entries. -/
theorem length_symbols (b : IndexBuilder) : b.symbols.length = b.entries.length :=
  List.length_map _

/-- The symbol of a number is that of its entry. -/
theorem symbols_getElem? (b : IndexBuilder) (id : Nat) :
    b.symbols[id]? = (b.entries[id]?).map IndexEntry.symbol := List.getElem?_map ..

/-- A step adds the declared symbol at the end, or leaves the symbols as they are. -/
theorem Step.symbols_eq {b b' : IndexBuilder} {s : Symbol} {p : Piece} {r : Option SymbolId}
    (h : Step b s p b' r) :
    (b.find? (b.key s) = none ∧ b'.symbols = b.symbols ++ [s]) ∨
      ((b.find? (b.key s)).isSome ∧ b'.symbols = b.symbols ∧ b'.keys = b.keys) := by
  cases h with
  | founds free => exact .inl ⟨free, by simp [symbols]⟩
  | @joins id e taken entry takes =>
    refine .inr ⟨by simp [taken], ?_, rfl⟩
    unfold symbols
    rw [List.map_set]
    apply List.ext_getElem?
    intro j
    rw [List.getElem?_set]
    split
    · rename_i hj
      subst hj
      have hlt : id < b.entries.length := (List.getElem?_eq_some_iff.1 entry).1
      rw [if_pos (by simpa using hlt), List.getElem?_map, entry]
      rfl
    · rfl
  | refuses taken => exact .inr ⟨by simp [taken], rfl, rfl⟩

/-- A step takes no symbol back. -/
theorem Step.symbols_extend {b b' : IndexBuilder} {s : Symbol} {p : Piece} {r : Option SymbolId}
    (h : Step b s p b' r) : b.symbols <+: b'.symbols := by
  rcases h.symbols_eq with ⟨-, hsymbols⟩ | ⟨-, hsymbols, -⟩
  · rw [hsymbols]
    exact List.prefix_append _ _
  · exact ⟨[], by rw [hsymbols, List.append_nil]⟩

/-- Every piece after a step was there before or is the one of the step. -/
theorem Step.mem_pieces {b b' : IndexBuilder} {s : Symbol} {p q : Piece} {r : Option SymbolId}
    (h : Step b s p b' r) {e : IndexEntry} (he : e ∈ b'.entries) (hq : q ∈ e.pieces) :
    (∃ e' ∈ b.entries, q ∈ e'.pieces) ∨ q = p := by
  cases h with
  | founds free =>
    rcases List.mem_append.1 he with he | he
    · exact .inl ⟨e, he, hq⟩
    · rw [List.mem_singleton.1 he] at hq
      exact .inr (List.mem_singleton.1 hq)
  | joins taken entry takes =>
    rcases List.mem_or_eq_of_mem_set he with he | rfl
    · exact .inl ⟨e, he, hq⟩
    · rcases List.mem_append.1 hq with hq | hq
      · exact .inl ⟨_, List.mem_of_getElem? entry, hq⟩
      · exact .inr (List.mem_singleton.1 hq)
  | refuses => exact .inl ⟨e, he, hq⟩

/-- A step leaves the symbol of an entry as it is and puts its piece after the others, if at all. -/
theorem Step.entry_extends {b b' : IndexBuilder} {s : Symbol} {p : Piece} {r : Option SymbolId}
    (h : Step b s p b' r) {id : Nat} {e : IndexEntry} (he : b.entries[id]? = some e) :
    ∃ more, b'.entries[id]? = some ⟨e.symbol, e.pieces ++ more⟩ ∧ ∀ q ∈ more, q = p := by
  have hlt : id < b.entries.length := (List.getElem?_eq_some_iff.1 he).1
  have hkept : some e = some (⟨e.symbol, e.pieces ++ []⟩ : IndexEntry) := by
    rw [List.append_nil]
  cases h with
  | founds free =>
    refine ⟨[], ?_, by simp⟩
    rw [List.getElem?_append_left hlt, he, hkept]
  | @joins id' e' taken entry takes =>
    by_cases hid : id' = id
    · subst hid
      obtain rfl : e' = e := Option.some.inj (entry.symm.trans he)
      exact ⟨[p], by simp [hlt], by simp⟩
    · refine ⟨[], ?_, by simp⟩
      rw [List.getElem?_set_ne hid, he, hkept]
  | refuses => exact ⟨[], he.trans hkept, by simp⟩

/-- The number that a step answers is the one for which the key stands afterwards. -/
theorem Step.find?_eq {b b' : IndexBuilder} {s : Symbol} {p : Piece} {id : SymbolId}
    (h : Step b s p b' (some id)) : b'.find? (b.key s) = some id := by
  cases h with
  | founds free => simp [find?]
  | joins taken entry takes => exact taken

/-- The number that a step answers is that of a symbol. -/
theorem Step.exists_symbol {b b' : IndexBuilder} {s : Symbol} {p : Piece} {id : SymbolId}
    (h : Step b s p b' (some id)) : ∃ t, b'.symbols[id]? = some t := by
  cases h with
  | founds free => exact ⟨s, by simp [symbols]⟩
  | @joins _ e taken entry takes =>
    have hlt : id < b.entries.length := (List.getElem?_eq_some_iff.1 entry).1
    exact ⟨e.symbol, by simp [symbols_getElem?, hlt]⟩

/-- A symbol after a step was one before, or it is the declared one with the number that the step
answers. -/
theorem Step.symbol_cases {b b' : IndexBuilder} {s t : Symbol} {p : Piece} {id : SymbolId}
    (h : Step b s p b' (some id)) {i : Nat} (ht : b'.symbols[i]? = some t) :
    b.symbols[i]? = some t ∨ i = id ∧ t = s := by
  have hsymbols := h.symbols_eq
  cases h with
  | founds free =>
    obtain ⟨-, hsame⟩ | ⟨htaken, -⟩ := hsymbols
    · rw [hsame] at ht
      rcases Nat.lt_or_ge i b.symbols.length with hlt | hge
      · rw [List.getElem?_append_left hlt] at ht
        exact .inl ht
      · rw [List.getElem?_append_right hge, List.getElem?_singleton] at ht
        split at ht
        · rename_i hi
          rw [length_symbols] at hi hge
          exact .inr ⟨by omega, (Option.some.inj ht).symm⟩
        · cases ht
    · simp [free] at htaken
  | joins taken entry takes =>
    obtain ⟨hfree, -⟩ | ⟨-, hsame, -⟩ := hsymbols
    · simp [taken] at hfree
    · rw [hsame] at ht
      exact .inl ht

/-- A declaration whose key is free founds a symbol of its own. -/
theorem add_of_free {b : IndexBuilder} {s : Symbol} {p : Piece}
    (free : b.find? (b.key s) = none) :
    b.add s p = ((b.declareWith s [p]).1, some b.entries.length) := by
  unfold add
  rw [free]
  rfl

/-- A declaration of a new key makes an entry of its own. -/
theorem entries_of_free {b : IndexBuilder} {s : Symbol} {p : Piece}
    (free : b.find? (b.key s) = none) :
    (b.add s p).1.entries[b.entries.length]? = some ⟨s, [p]⟩ := by
  rw [add_of_free free]
  simp [declareWith]

/-- A symbol that is partial takes a piece of a role that none of its pieces has. -/
theorem add_of_taken {b : IndexBuilder} {u : Symbol} {q : Piece} {id : SymbolId} {e : IndexEntry}
    (taken : b.find? (b.key u) = some id) (entry : b.entries[id]? = some e)
    (partials : e.symbol.isPartial = true ∧ u.isPartial = true)
    (roles : ∀ r ∈ e.pieces, r.role ≠ q.role) :
    b.add u q = (⟨b.entries.set id ⟨e.symbol, e.pieces ++ [q]⟩, b.keys⟩, some id) := by
  have htakes : takes e u q = true := by
    unfold takes
    rw [partials.1, partials.2, Bool.true_and, Bool.true_and, Bool.not_eq_true',
      Bool.and_eq_false_iff]
    right
    rw [List.any_eq_false]
    intro r hr
    simpa using roles r hr
  unfold add
  rw [taken]
  simp only
  rw [entry]
  simp only
  rw [if_pos htakes]

/-! ## Keys -/

/-- The spelling of the parameters of a member of the type with the given number. -/
def signature (symbols : List Symbol) (c : Nat) (s : Symbol) : Text :=
  encodeParameters ⟨nestedTypeParameters (chainOf symbols c), s.typeParameters⟩ s.parameters

/-- The key of a type: what is around it, its name and its arity. -/
theorem key_of_type (b : IndexBuilder) {s : Symbol} (h : s.kind.isType = true) :
    b.key s = .type s.container s.nameSpace s.name s.arity := by
  unfold key
  cases hc : s.container with
  | none => rfl
  | some c => simp [h]

/-- The key of a member: what is around it, its kind, name, arity and signature. -/
theorem key_of_member (b : IndexBuilder) {s : Symbol} {c : Nat} (h : s.kind.isType = false)
    (hc : s.container = some c) :
    b.key s = .member c s.kind s.name s.arity (signature b.symbols c s) := by
  unfold key
  simp only [hc, h]
  rfl

/-- A key depends on the builder through its symbols only. -/
theorem key_congr {b b' : IndexBuilder} (h : b'.symbols = b.symbols) (s : Symbol) :
    b'.key s = b.key s := by
  have houter : ∀ c : Nat, b'.outerTypeParameters c = b.outerTypeParameters c := by
    intro c
    unfold outerTypeParameters
    rw [show b'.entries.map IndexEntry.symbol = b.entries.map IndexEntry.symbol from h]
  unfold key
  simp only [houter]

/-- A key stays the same while further symbols are founded. -/
theorem key_of_append {b b' : IndexBuilder} {later : List Symbol} {s : Symbol}
    (hb : b'.symbols = b.symbols ++ later) (first : ContainersFirst b'.symbols)
    (hs : ∀ c : Nat, s.container = some c → c < b.symbols.length) :
    b'.key s = b.key s := by
  have firstOld : ContainersFirst b.symbols := by
    intro id c t ht hc
    refine first id c t ?_ hc
    rw [hb, List.getElem?_append_left (List.getElem?_eq_some_iff.1 ht).1, ht]
  cases hc : s.container with
  | none =>
    unfold key
    simp only [hc]
  | some c =>
    have hwalk : containerWalk b'.symbols c = containerWalk b.symbols c := by
      rw [hb] at first ⊢
      exact containerWalk_append firstOld later first (hs c hc)
    cases hk : s.kind.isType with
    | true => rw [key_of_type b hk, key_of_type b' hk]
    | false =>
      rw [key_of_member b hk hc, key_of_member b' hk hc, signature, signature, chainOf, chainOf,
        hwalk]

end PartialDocs.IndexBuilder
