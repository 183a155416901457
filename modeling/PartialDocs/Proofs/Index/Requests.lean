import PartialDocs.Proofs.Index.Step

/-!
# Requests to the builder

A builder is asked to declare symbols and to add declarations, in any order and for any
symbols.  `log` writes down every request with its answer.  Which answer a request gets is
decided by the last symbol with the key of the requested one (`Keyed.verdict`), and what the
builder holds can be read off the log: the symbols are those that were made (`zipIdx_symbols_after`)
and the pieces of each are those that were accepted under its number (`piecesOf_after`).
-/

set_option autoImplicit false

namespace PartialDocs.IndexBuilder

/-- What a builder can be asked to do. -/
inductive Request where
  | declare (symbol : Symbol)
  | add (symbol : Symbol) (piece : Piece)
  deriving DecidableEq, Repr

/-- The symbol that a request is about. -/
def Request.symbol : Request → Symbol
  | declare s => s
  | add s _ => s

/-- Carry out a request.  A symbol that is declared always gets a number. -/
def perform (b : IndexBuilder) : Request → IndexBuilder × Option SymbolId
  | .declare s => ((b.declare s).1, some (b.declare s).2)
  | .add s p => b.add s p

/-- The builder after some requests. -/
def after (b : IndexBuilder) (rs : List Request) : IndexBuilder :=
  rs.foldl (fun b r => (b.perform r).1) b

/-- A request with its answer. -/
structure Answered where
  request : Request
  answer : Option SymbolId
  deriving DecidableEq, Repr

/-- Requests in order, each with its answer. -/
def log : IndexBuilder → List Request → List Answered
  | _, [] => []
  | b, r :: rs => ⟨r, (b.perform r).2⟩ :: log (b.perform r).1 rs

/-- The symbol that a request makes, with its number: the answer is a number that no symbol had. -/
def made? (b : IndexBuilder) (r : Request) : Option (Symbol × SymbolId) :=
  ((b.perform r).2.filter fun id => (b.symbols[id]?).isNone).map fun id => (r.symbol, id)

/-- The symbols that requests make, in the order in which they are made. -/
def made : IndexBuilder → List Request → List (Symbol × SymbolId)
  | _, [] => []
  | b, r :: rs => (b.made? r).toList ++ made (b.perform r).1 rs

/-- The piece that a request adds, with the number that is answered. -/
def Answered.accepted? : Answered → Option (SymbolId × Piece)
  | ⟨.add _ p, some id⟩ => some (id, p)
  | _ => none

/-- The pieces that were accepted, each with the number that was answered, in their order. -/
def accepted (l : List Answered) : List (SymbolId × Piece) := l.filterMap Answered.accepted?

/-- The pieces that were accepted under a number. -/
def acceptedUnder (id : SymbolId) (l : List Answered) : List Piece :=
  ((accepted l).filter fun x => x.1 = id).map Prod.snd

/-- The requests that were not refused. -/
def kept (l : List Answered) : List Request :=
  (l.filter fun x => x.answer.isSome).map Answered.request

/-- Whether every symbol is in none or in one with a smaller number than it would get itself. -/
def Nested : IndexBuilder → List Request → Prop
  | _, [] => True
  | b, r :: rs =>
    (∀ c : Nat, r.symbol.container = some c → c < b.symbols.length) ∧ Nested (b.perform r).1 rs

/-- The number of the last symbol that has a key. -/
structure Latest (b : IndexBuilder) (k : SymbolKey) (id : Nat) : Prop where
  here : ∃ s, b.symbols[id]? = some s ∧ b.key s = k
  last : ∀ (j : Nat) (t : Symbol), b.symbols[j]? = some t → b.key t = k → j ≤ id

/-- Whether a symbol may get one more declaration.  Both are partial, and a piece without or with a
body is the first of its role. -/
structure Admissible (e : IndexEntry) (s : Symbol) (p : Piece) : Prop where
  isPartial : e.symbol.isPartial = true ∧ s.isPartial = true
  role : p.role = .defining ∨ p.role = .implementing → ∀ q ∈ e.pieces, q.role ≠ p.role

/-- Which answer a request gets. -/
inductive Verdict (b : IndexBuilder) : Request → Option SymbolId → Prop where
  /-- A declared symbol gets the next number. -/
  | declares (s : Symbol) : Verdict b (.declare s) (some b.symbols.length)
  /-- So does a symbol whose key no other symbol has. -/
  | founds {s : Symbol} (p : Piece)
      (new : ∀ (j : Nat) (t : Symbol), b.symbols[j]? = some t → b.key t ≠ b.key s) :
      Verdict b (.add s p) (some b.symbols.length)
  /-- Otherwise the last symbol with the key gets the declaration where it may. -/
  | joins {s : Symbol} {p : Piece} {id : Nat} {e : IndexEntry} (latest : b.Latest (b.key s) id)
      (entry : b.entries[id]? = some e) (admissible : Admissible e s p) :
      Verdict b (.add s p) (some id)
  | refuses {s : Symbol} {p : Piece} {id : Nat} {e : IndexEntry} (latest : b.Latest (b.key s) id)
      (entry : b.entries[id]? = some e) (conflict : ¬ Admissible e s p) :
      Verdict b (.add s p) none

/-- An entry takes the pieces that are admissible. -/
theorem takes_iff {e : IndexEntry} {s : Symbol} {p : Piece} :
    takes e s p = true ↔ Admissible e s p := by
  unfold takes
  rw [Bool.and_eq_true, Bool.and_eq_true, Bool.not_eq_true', Bool.and_eq_false_iff,
    Bool.or_eq_false_iff, List.any_eq_false]
  constructor
  · rintro ⟨hpartial, hrole⟩
    refine ⟨hpartial, ?_⟩
    intro hbody q hq
    rcases hrole with hrole | hrole
    · simp only [beq_eq_false_iff_ne] at hrole
      exact absurd hbody (by simp [hrole.1, hrole.2])
    · simpa using hrole q hq
  · rintro ⟨hpartial, hrole⟩
    refine ⟨hpartial, ?_⟩
    by_cases hbody : p.role = .defining ∨ p.role = .implementing
    · right
      intro q hq
      simpa using hrole hbody q hq
    · left
      simpa using hbody

variable {b b' : IndexBuilder} {r : Request} {rs : List Request} {s : Symbol} {p : Piece}

/-! ## One request -/

/-- A declared symbol comes last. -/
theorem symbols_declare (b : IndexBuilder) (s : Symbol) :
    (b.declare s).1.symbols = b.symbols ++ [s] := by
  simp [declare, declareWith, symbols]

/-- A request makes a symbol with the next number, or leaves the symbols and keys as they are. -/
theorem made?_cases (b : IndexBuilder) (r : Request) :
    (b.made? r = some (r.symbol, b.symbols.length) ∧
        (b.perform r).1.symbols = b.symbols ++ [r.symbol]) ∨
      (b.made? r = none ∧ (b.perform r).1.symbols = b.symbols ∧
        (b.perform r).1.keys = b.keys) := by
  cases r with
  | declare s =>
    left
    refine ⟨?_, symbols_declare b s⟩
    simp [made?, perform, declare, declareWith, Request.symbol, length_symbols, symbols_getElem?]
  | add s p =>
    have hstep := add_step b s p
    unfold made? perform Request.symbol
    simp only
    generalize b.add s p = result at hstep ⊢
    obtain ⟨b', a⟩ := result
    have hsymbols := hstep.symbols_eq
    cases hstep with
    | founds free =>
      left
      refine ⟨?_, by simp [symbols]⟩
      simp [length_symbols, symbols_getElem?]
    | @joins id e taken entry takes =>
      right
      obtain ⟨hfree, -⟩ | ⟨-, hsame, hkeys⟩ := hsymbols
      · simp [taken] at hfree
      · have hlt : id < b.entries.length := (List.getElem?_eq_some_iff.1 entry).1
        exact ⟨by simp [symbols_getElem?, hlt], hsame, hkeys⟩
    | refuses => exact .inr ⟨by simp, rfl, rfl⟩

/-- A refused request changes nothing. -/
theorem perform_of_refused (h : (b.perform r).2 = none) : (b.perform r).1 = b := by
  cases r with
  | declare s => simp [perform] at h
  | add s p =>
    have hstep := add_step b s p
    unfold perform at h ⊢
    simp only at h ⊢
    generalize b.add s p = result at hstep h ⊢
    obtain ⟨b', a⟩ := result
    cases hstep with
    | founds free => cases h
    | joins taken entry takes => cases h
    | refuses => rfl

/-- The pieces of a symbol, none where no symbol has the number. -/
def piecesOf (b : IndexBuilder) (id : Nat) : List Piece :=
  ((b.entries[id]?).map IndexEntry.pieces).getD []

/-- A new entry at the end brings its pieces under the next number. -/
theorem piecesOf_concat {e : IndexEntry} (hb : b'.entries = b.entries ++ [e]) (id : Nat) :
    b'.piecesOf id = b.piecesOf id ++ if b.entries.length = id then e.pieces else [] := by
  unfold piecesOf
  rw [hb]
  rcases Nat.lt_trichotomy id b.entries.length with hlt | rfl | hgt
  · rw [List.getElem?_append_left hlt, if_neg (by omega), List.append_nil]
  · rw [List.getElem?_concat_length, List.getElem?_eq_none (Nat.le_refl _), if_pos rfl]
    rfl
  · rw [List.getElem?_eq_none (by simp; omega), List.getElem?_eq_none (by omega),
      if_neg (by omega), List.append_nil]

/-- Declaring a symbol gives it no piece. -/
theorem acceptedUnder_declare (id : SymbolId) (s : Symbol) (answer : Option SymbolId) :
    acceptedUnder id [⟨.declare s, answer⟩] = [] := rfl

/-- A refused request gives no piece. -/
theorem acceptedUnder_refused (id : SymbolId) (s : Symbol) (p : Piece) :
    acceptedUnder id [⟨.add s p, none⟩] = [] := rfl

/-- An accepted piece belongs to the number in the answer. -/
theorem acceptedUnder_add (id i : SymbolId) (s : Symbol) (p : Piece) :
    acceptedUnder id [⟨.add s p, some i⟩] = if i = id then [p] else [] := by
  have haccepted : accepted [⟨.add s p, some i⟩] = [(i, p)] := rfl
  unfold acceptedUnder
  rw [haccepted]
  by_cases hi : i = id <;> simp [hi]

/-- A request puts a piece behind those of the symbol with the number that is answered, and changes
no other pieces. -/
theorem piecesOf_perform (b : IndexBuilder) (r : Request) (id : Nat) :
    (b.perform r).1.piecesOf id =
      b.piecesOf id ++ acceptedUnder id [⟨r, (b.perform r).2⟩] := by
  cases r with
  | declare s =>
    have hentries : (b.perform (.declare s)).1.entries = b.entries ++ [⟨s, []⟩] := rfl
    rw [piecesOf_concat hentries, acceptedUnder_declare, ite_self]
  | add s p =>
    have hstep := add_step b s p
    unfold perform
    simp only
    generalize b.add s p = result at hstep ⊢
    obtain ⟨b', a⟩ := result
    cases hstep with
    | founds free => rw [piecesOf_concat rfl, acceptedUnder_add]
    | @joins id' e taken entry takes =>
      have hlt : id' < b.entries.length := (List.getElem?_eq_some_iff.1 entry).1
      rw [acceptedUnder_add]
      unfold piecesOf
      by_cases hid : id' = id
      · subst hid
        rw [List.getElem?_set_self hlt, entry, if_pos rfl]
        rfl
      · rw [List.getElem?_set_ne hid, if_neg hid, List.append_nil]
    | refuses => rw [acceptedUnder_refused, List.append_nil]

/-! ## The key map -/

/-- What holds of the symbols and keys of a builder at every moment of a nested run. -/
structure Keyed (b : IndexBuilder) : Prop where
  first : ContainersFirst b.symbols
  /-- A key stands for the last symbol that has it. -/
  latest : ∀ (k : SymbolKey) (id : Nat), b.find? k = some id → b.Latest k id
  /-- The key of every symbol stands for some symbol. -/
  known : ∀ (j : Nat) (t : Symbol), b.symbols[j]? = some t → b.find? (b.key t) ≠ none

/-- The empty builder knows no keys. -/
theorem keyed_empty : Keyed empty where
  first := by
    intro id c s hs
    simp [symbols, empty] at hs
  latest := by
    intro k id hid
    simp [find?, empty] at hid
  known := by
    intro j t ht
    simp [symbols, empty] at ht

/-- What a builder knows by keys depends on its symbols and its keys only. -/
theorem Keyed.congr (h : b.Keyed) (symbols : b'.symbols = b.symbols) (keys : b'.keys = b.keys) :
    b'.Keyed where
  first := by
    rw [symbols]
    exact h.first
  latest := by
    intro k id hid
    rw [find?, keys] at hid
    obtain ⟨hhere, hlast⟩ := h.latest k id hid
    refine ⟨?_, ?_⟩
    · simpa only [symbols, key_congr symbols] using hhere
    · simpa only [symbols, key_congr symbols] using hlast
  known := by
    intro j t ht
    rw [symbols] at ht
    rw [key_congr symbols, find?, keys]
    exact h.known j t ht

/-- A further symbol is the last one with its key.  It changes neither the key of an earlier symbol
nor which symbol is the last one with any other key. -/
theorem Keyed.concat (h : b.Keyed) (nested : ∀ c : Nat, s.container = some c → c < b.symbols.length)
    (symbols : b'.symbols = b.symbols ++ [s])
    (keys : b'.keys = (b.key s, b.symbols.length) :: b.keys) : b'.Keyed := by
  have hsymbol : ∀ (j : Nat) (t : Symbol), b'.symbols[j]? = some t →
      b.symbols[j]? = some t ∨ j = b.symbols.length ∧ t = s := by
    intro j t ht
    rw [symbols] at ht
    rcases Nat.lt_or_ge j b.symbols.length with hlt | hge
    · rw [List.getElem?_append_left hlt] at ht
      exact .inl ht
    · rw [List.getElem?_append_right hge, List.getElem?_singleton] at ht
      split at ht
      · exact .inr ⟨by omega, (Option.some.inj ht).symm⟩
      · cases ht
  have hfirst : ContainersFirst b'.symbols := by
    intro id c t ht hc
    rcases hsymbol id t ht with hold | ⟨rfl, rfl⟩
    · exact h.first id c t hold hc
    · exact nested c hc
  -- keys look outward only, to symbols with smaller numbers
  have hkeyOld : ∀ (j : Nat) (t : Symbol), b.symbols[j]? = some t → b'.key t = b.key t := by
    intro j t ht
    refine key_of_append symbols hfirst fun c hc => ?_
    have hlt := h.first j c t ht hc
    have hj := (List.getElem?_eq_some_iff.1 ht).1
    omega
  have hkeyNew : b'.key s = b.key s := key_of_append symbols hfirst nested
  have hfind : ∀ k, b'.find? k = if k = b.key s then some b.symbols.length else b.find? k := by
    intro k
    unfold find?
    rw [keys, List.lookup_cons]
    split
    · rename_i heq
      rw [if_pos (by simpa using heq)]
    · rename_i hne
      rw [if_neg (by simpa using hne)]
  refine ⟨hfirst, ?_, ?_⟩
  · intro k id hid
    rw [hfind] at hid
    split at hid
    · rename_i hk
      obtain rfl : b.symbols.length = id := Option.some.inj hid
      refine ⟨⟨s, by simp [symbols], hkeyNew.trans hk.symm⟩, ?_⟩
      intro j t ht _
      rcases hsymbol j t ht with hold | ⟨rfl, -⟩
      · exact Nat.le_of_lt (List.getElem?_eq_some_iff.1 hold).1
      · exact Nat.le_refl _
    · rename_i hk
      obtain ⟨⟨t, ht, hkey⟩, hlast⟩ := h.latest k id hid
      have hlt : id < b.symbols.length := (List.getElem?_eq_some_iff.1 ht).1
      refine ⟨⟨t, ?_, (hkeyOld id t ht).trans hkey⟩, ?_⟩
      · rw [symbols, List.getElem?_append_left hlt, ht]
      · intro j u hu hkey'
        rcases hsymbol j u hu with hold | ⟨rfl, rfl⟩
        · exact hlast j u hold ((hkeyOld j u hold).symm.trans hkey')
        · exact absurd (hkeyNew.symm.trans hkey').symm hk
  · intro j t ht
    rw [hfind]
    split
    · simp
    · rename_i hk
      rcases hsymbol j t ht with hold | ⟨-, rfl⟩
      · rw [hkeyOld j t hold]
        exact h.known j t hold
      · exact absurd hkeyNew hk

/-- A nested request keeps the keys in order. -/
theorem Keyed.perform (h : b.Keyed)
    (nested : ∀ c : Nat, r.symbol.container = some c → c < b.symbols.length) :
    (b.perform r).1.Keyed := by
  cases r with
  | declare s =>
    refine h.concat nested (symbols_declare b s) ?_
    rw [length_symbols]
    rfl
  | add s p =>
    have hstep := add_step b s p
    unfold IndexBuilder.perform
    simp only
    generalize b.add s p = result at hstep ⊢
    obtain ⟨b', a⟩ := result
    have hsymbols := hstep.symbols_eq
    cases hstep with
    | founds free =>
      refine h.concat nested (by simp [symbols, Request.symbol]) ?_
      rw [length_symbols]
      rfl
    | joins taken entry takes =>
      obtain ⟨hfree, -⟩ | ⟨-, hsame, hkeys⟩ := hsymbols
      · simp [taken] at hfree
      · exact h.congr hsame hkeys
    | refuses => exact h

/-- **Which answer a request gets is decided by the last symbol with the key of the requested one.**
-/
theorem Keyed.verdict (h : b.Keyed) (r : Request) : b.Verdict r (b.perform r).2 := by
  cases r with
  | declare s =>
    have hanswer : (b.perform (.declare s)).2 = some b.symbols.length := by
      rw [length_symbols]
      rfl
    rw [hanswer]
    exact .declares s
  | add s p =>
    have hstep := add_step b s p
    unfold IndexBuilder.perform
    simp only
    generalize b.add s p = result at hstep ⊢
    obtain ⟨b', a⟩ := result
    cases hstep with
    | founds free =>
      rw [← length_symbols]
      refine .founds p fun j t ht hkey => ?_
      exact h.known j t ht (hkey ▸ free)
    | joins taken entry takes => exact .joins (h.latest _ _ taken) entry (takes_iff.1 takes)
    | @refuses id taken refused =>
      have hlatest := h.latest _ _ taken
      obtain ⟨t, ht, -⟩ := hlatest.here
      rw [symbols_getElem?, Option.map_eq_some_iff] at ht
      obtain ⟨e, entry, -⟩ := ht
      refine .refuses hlatest entry fun hadmissible => ?_
      have htakes := takes_iff.2 hadmissible
      rw [refused e entry] at htakes
      cases htakes

/-! ## Many requests -/

/-- No request leaves the builder as it is. -/
@[simp] theorem after_nil (b : IndexBuilder) : b.after [] = b := rfl

/-- Requests are carried out in turn. -/
@[simp] theorem after_cons (b : IndexBuilder) (r : Request) (rs : List Request) :
    b.after (r :: rs) = (b.perform r).1.after rs := rfl

/-- Requests fit into each other when they do so in turn. -/
theorem nested_append {rs' : List Request} :
    b.Nested (rs ++ rs') ↔ b.Nested rs ∧ (b.after rs).Nested rs' := by
  induction rs generalizing b with
  | nil => simp [Nested]
  | cons r rs ih => rw [List.cons_append, Nested, Nested, after_cons, ih, and_assoc]

/-- A builder knows its symbols by their keys after any requests. -/
theorem Keyed.after (h : b.Keyed) (nested : b.Nested rs) : (b.after rs).Keyed := by
  induction rs generalizing b with
  | nil => exact h
  | cons r rs ih => exact ih (h.perform nested.1) nested.2

/-- The symbols after some requests are those before and those that were made, each with its
number. -/
theorem zipIdx_symbols_after (b : IndexBuilder) (rs : List Request) :
    (b.after rs).symbols.zipIdx = b.symbols.zipIdx ++ b.made rs := by
  induction rs generalizing b with
  | nil => simp [made]
  | cons r rs ih =>
    rw [after_cons, ih, made]
    rcases made?_cases b r with ⟨hmade, hsymbols⟩ | ⟨hmade, hsymbols, -⟩
    · rw [hmade, hsymbols, List.zipIdx_append, List.append_assoc]
      simp
    · rw [hmade, hsymbols]
      simp

/-- What is accepted in turn. -/
theorem acceptedUnder_cons (id : SymbolId) (x : Answered) (l : List Answered) :
    acceptedUnder id (x :: l) = acceptedUnder id [x] ++ acceptedUnder id l := by
  unfold acceptedUnder accepted
  rw [← List.singleton_append, List.filterMap_append, List.filter_append, List.map_append]

/-- The pieces of a symbol after some requests are those before and those that were accepted under
its number. -/
theorem piecesOf_after (b : IndexBuilder) (rs : List Request) (id : Nat) :
    (b.after rs).piecesOf id = b.piecesOf id ++ acceptedUnder id (b.log rs) := by
  induction rs generalizing b with
  | nil => simp [log, acceptedUnder, accepted]
  | cons r rs ih =>
    rw [after_cons, ih, log, piecesOf_perform, acceptedUnder_cons _ _ (log _ rs), List.append_assoc]

/-- A number that is answered is that of a symbol from then on. -/
theorem lt_of_answered {x : Answered} (hx : x ∈ b.log rs) {id : Nat} (answer : x.answer = some id) :
    id < (b.after rs).symbols.length := by
  induction rs generalizing b with
  | nil => simp [log] at hx
  | cons r rs ih =>
    rw [log, List.mem_cons] at hx
    rcases hx with rfl | hx
    · have hgrows : (b.perform r).1.symbols.length ≤ ((b.perform r).1.after rs).symbols.length := by
        have hlength := congrArg List.length (zipIdx_symbols_after (b.perform r).1 rs)
        rw [List.length_append, List.length_zipIdx, List.length_zipIdx] at hlength
        omega
      refine Nat.lt_of_lt_of_le ?_ hgrows
      cases r with
      | declare s =>
        obtain rfl : b.entries.length = id := Option.some.inj answer
        rw [show (b.perform (.declare s)).1.symbols = _ from symbols_declare b s]
        simp [length_symbols]
      | add s p =>
        have hstep := add_step b s p
        rw [show (b.add s p).2 = some id from answer] at hstep
        obtain ⟨t, ht⟩ := hstep.exists_symbol
        exact (List.getElem?_eq_some_iff.1 ht).1
    · exact ih hx

/-- Every symbol that was made was asked for. -/
theorem exists_request_of_made {id : Nat} (h : (s, id) ∈ b.made rs) :
    ∃ r, r.symbol = s ∧ ⟨r, some id⟩ ∈ b.log rs := by
  induction rs generalizing b with
  | nil => simp [made] at h
  | cons r rs ih =>
    rw [made, List.mem_append] at h
    rw [log]
    rcases h with h | h
    · rw [Option.mem_toList, made?, Option.map_eq_some_iff] at h
      obtain ⟨id', hanswer, hpair⟩ := h
      obtain ⟨rfl, rfl⟩ := Prod.mk.inj hpair
      refine ⟨r, rfl, ?_⟩
      rw [(Option.filter_eq_some_iff.1 hanswer).1]
      exact List.mem_cons_self
    · obtain ⟨r', hsymbol, hlog⟩ := ih h
      exact ⟨r', hsymbol, List.mem_cons_of_mem _ hlog⟩

/-- Every symbol that was declared was made. -/
theorem made_of_declared {id : Nat} (h : ⟨.declare s, some id⟩ ∈ b.log rs) :
    (s, id) ∈ b.made rs := by
  induction rs generalizing b with
  | nil => simp [log] at h
  | cons r rs ih =>
    rw [log, List.mem_cons] at h
    rw [made, List.mem_append]
    rcases h with h | h
    · obtain ⟨rfl, hanswer⟩ := Answered.mk.inj h
      left
      have hid : id = b.symbols.length := by
        rw [length_symbols]
        exact Option.some.inj hanswer
      rw [hid, Option.mem_toList]
      simp [made?, perform, declare, declareWith, Request.symbol, length_symbols, symbols_getElem?]
    · exact .inr (ih h)

/-- Leaving out the refused requests changes neither the other answers nor the builder. -/
theorem log_kept (b : IndexBuilder) (rs : List Request) :
    b.log (kept (b.log rs)) = (b.log rs).filter (fun x => x.answer.isSome) ∧
      b.after (kept (b.log rs)) = b.after rs := by
  induction rs generalizing b with
  | nil => exact ⟨rfl, rfl⟩
  | cons r rs ih =>
    obtain ⟨hlog, hafter⟩ := ih (b.perform r).1
    unfold kept at hlog hafter ⊢
    rw [log]
    cases hanswer : (b.perform r).2 with
    | none =>
      -- a refused request is left out, and the builder after it is the one before it
      rw [perform_of_refused hanswer] at hlog hafter ⊢
      rw [List.filter_cons_of_neg (by simp), after_cons, perform_of_refused hanswer]
      exact ⟨hlog, hafter⟩
    | some id =>
      rw [List.filter_cons_of_pos (by simp), List.map_cons, log, hanswer, hlog, after_cons,
        after_cons, hafter]
      exact ⟨rfl, rfl⟩

end PartialDocs.IndexBuilder
