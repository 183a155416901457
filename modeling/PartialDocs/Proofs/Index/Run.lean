import PartialDocs.Proofs.Index.Invariant

/-!
# The run of the builder over an outline

`handed` lists the declarations that an outline hands to the builder, each symbol already
in its place, and `enter_eq_addAll` says that entering the outline adds them one after
another.  What is proved of every addition is thereby proved of every outline: proper
declarations hand over nothing but allowed additions (`admits_handed`), so that every
builder on the way is sound.
-/

set_option autoImplicit false

namespace PartialDocs

namespace IndexBuilder

/-- The builder after further declarations, each with its piece. -/
def addAll (b : IndexBuilder) (ds : List (Symbol × Piece)) : IndexBuilder :=
  ds.foldl (fun b d => (b.add d.1 d.2).1) b

mutual

/-- What `enter` hands over to `add`, each symbol in its place. -/
def handed (b : IndexBuilder) (container : Option SymbolId) :
    Declaration → List (Symbol × Piece)
  | .mk s p ds =>
    (placeIn container s, p) ::
      match b.add (placeIn container s) p with
      | (_, none) => []
      | (b, some id) => handedAll b (some id) ds

/-- What `enterAll` hands over to `add`, each symbol in its place. -/
def handedAll (b : IndexBuilder) (container : Option SymbolId) :
    List Declaration → List (Symbol × Piece)
  | [] => []
  | d :: ds => handed b container d ++ handedAll (enter b container d) container ds

end

/-- Nothing is added. -/
@[simp] theorem addAll_nil (b : IndexBuilder) : b.addAll [] = b := rfl

/-- Declarations are added in turn. -/
@[simp] theorem addAll_cons (b : IndexBuilder) (d : Symbol × Piece) (ds : List (Symbol × Piece)) :
    b.addAll (d :: ds) = (b.add d.1 d.2).1.addAll ds := rfl

/-- Declarations are added one part after the other. -/
theorem addAll_append (b : IndexBuilder) (ds ds' : List (Symbol × Piece)) :
    b.addAll (ds ++ ds') = (b.addAll ds).addAll ds' := List.foldl_append

mutual

/-- Entering a declaration is adding what it hands over. -/
theorem enter_eq_addAll (b : IndexBuilder) (container : Option SymbolId) :
    ∀ d : Declaration, enter b container d = b.addAll (handed b container d)
  | .mk s p ds => by
    unfold enter handed
    rw [addAll_cons]
    split
    · rename_i b' hadd
      rw [hadd]
      rfl
    · rename_i b' id hadd
      rw [hadd]
      exact enterAll_eq_addAll b' (some id) ds

/-- Entering declarations is adding those that are handed on. -/
theorem enterAll_eq_addAll (b : IndexBuilder) (container : Option SymbolId) :
    ∀ ds : List Declaration, enterAll b container ds = b.addAll (handedAll b container ds)
  | [] => by
    unfold enterAll handedAll
    rfl
  | d :: ds => by
    unfold enterAll handedAll
    rw [addAll_append, ← enter_eq_addAll b container d]
    exact enterAll_eq_addAll (enter b container d) container ds

end

/-- A declaration without a body hands over itself. -/
theorem handed_member (b : IndexBuilder) (container : Option SymbolId) (s : Symbol) (p : Piece) :
    b.handed container (.mk s p []) = [(placeIn container s, p)] := by
  unfold handed handedAll
  split <;> rfl

/-! ## Allowed runs -/

/-- Every declaration is allowed at the moment when it is added. -/
def Admits : IndexBuilder → List (Symbol × Piece) → Prop
  | _, [] => True
  | b, d :: ds => b.Allowed d.1 d.2 ∧ Admits (b.add d.1 d.2).1 ds

/-- Declarations are admitted when they are in turn. -/
theorem admits_append {b : IndexBuilder} {ds ds' : List (Symbol × Piece)} :
    b.Admits (ds ++ ds') ↔ b.Admits ds ∧ (b.addAll ds).Admits ds' := by
  induction ds generalizing b with
  | nil => simp [Admits]
  | cons d ds ih =>
    rw [List.cons_append, addAll_cons, Admits, Admits, ih, and_assoc]

/-- An allowed run keeps the builder sound. -/
theorem Sound.addAll {b : IndexBuilder} (h : b.Sound) {ds : List (Symbol × Piece)}
    (allowed : b.Admits ds) : (b.addAll ds).Sound := by
  induction ds generalizing b with
  | nil => exact h
  | cons d ds ih => exact ih (h.add allowed.1) allowed.2

/-- Symbols are never taken back. -/
theorem symbols_extend_addAll (b : IndexBuilder) (ds : List (Symbol × Piece)) :
    b.symbols <+: (b.addAll ds).symbols := by
  induction ds generalizing b with
  | nil => exact List.prefix_rfl
  | cons d ds ih => exact (add_step b d.1 d.2).symbols_extend.trans (ih (b.add d.1 d.2).1)

/-- A symbol keeps its number. -/
theorem symbols_getElem?_addAll (b : IndexBuilder) (ds : List (Symbol × Piece)) {id : Nat}
    {s : Symbol} (hs : b.symbols[id]? = some s) : (b.addAll ds).symbols[id]? = some s := by
  obtain ⟨later, hlater⟩ := symbols_extend_addAll b ds
  rw [← hlater, List.getElem?_append_left (List.getElem?_eq_some_iff.1 hs).1, hs]

/-- Every piece was there before or has been added. -/
theorem mem_pieces_addAll {b : IndexBuilder} {ds : List (Symbol × Piece)} {e : IndexEntry}
    {q : Piece} (he : e ∈ (b.addAll ds).entries) (hq : q ∈ e.pieces) :
    (∃ e' ∈ b.entries, q ∈ e'.pieces) ∨ ∃ s, (s, q) ∈ ds := by
  induction ds generalizing b with
  | nil => exact .inl ⟨e, he, hq⟩
  | cons d ds ih =>
    rcases ih he with ⟨e', he', hq'⟩ | ⟨s, hs⟩
    · rcases (add_step b d.1 d.2).mem_pieces he' hq' with hold | rfl
      · exact .inl hold
      · exact .inr ⟨d.1, List.mem_cons_self⟩
    · exact .inr ⟨s, List.mem_cons_of_mem _ hs⟩

/-- A run leaves the symbol of an entry as it is and puts pieces of the run after the others. -/
theorem entry_extends_addAll {b : IndexBuilder} (ds : List (Symbol × Piece)) {id : Nat}
    {e : IndexEntry} (he : b.entries[id]? = some e) :
    ∃ more, (b.addAll ds).entries[id]? = some ⟨e.symbol, e.pieces ++ more⟩ ∧
      ∀ q ∈ more, ∃ s, (s, q) ∈ ds := by
  induction ds generalizing b e with
  | nil => exact ⟨[], by simpa using he, by simp⟩
  | cons d ds ih =>
    obtain ⟨first, hfirst, hpiece⟩ := (add_step b d.1 d.2).entry_extends he
    obtain ⟨rest, hrest, hpieces⟩ := ih hfirst
    refine ⟨first ++ rest, ?_, ?_⟩
    · rw [addAll_cons, hrest, List.append_assoc]
    · intro q hq
      rcases List.mem_append.1 hq with hq | hq
      · exact ⟨d.1, by simp [hpiece q hq]⟩
      · obtain ⟨s, hs⟩ := hpieces q hq
        exact ⟨s, List.mem_cons_of_mem _ hs⟩

end IndexBuilder

/-! ## What outlines hand over -/

/-- A declaration as an outline has it: its piece has a fitting role and is one of the given pieces,
and only types have a namespace or a body with declarations. -/
inductive Declaration.Proper (Known : Piece → Prop) : Declaration → Prop where
  | type {s : Symbol} {p : Piece} {ds : List Declaration} (type : s.kind.isType = true)
      (role : p.role.Fits s) (known : Known p) (members : ∀ d ∈ ds, Proper Known d) :
      Proper Known (.mk s p ds)
  | member {s : Symbol} {p : Piece} (member : s.kind.isType = false)
      (nameSpace : s.nameSpace = none) (role : p.role.Fits s) (known : Known p) :
      Proper Known (.mk s p [])

namespace IndexBuilder

variable {Known : Piece → Prop}

/-- A number that a declaration may have as its container: that of a type. -/
def IsTypeOrNone (b : IndexBuilder) (container : Option SymbolId) : Prop :=
  ∀ c : Nat, container = some c → ∃ t, b.symbols[c]? = some t ∧ t.kind.isType = true

/-- A container stays a type. -/
theorem IsTypeOrNone.addAll {b : IndexBuilder} {container : Option SymbolId}
    (h : b.IsTypeOrNone container) (ds : List (Symbol × Piece)) :
    (b.addAll ds).IsTypeOrNone container := by
  intro c hc
  obtain ⟨t, ht, htype⟩ := h c hc
  exact ⟨t, symbols_getElem?_addAll b ds ht, htype⟩

/-- A type, or a member of a type, is placed in its container. -/
theorem placed_placeIn {b : IndexBuilder} {container : Option SymbolId} {s : Symbol}
    (h : b.IsTypeOrNone container) (hs : s.kind.isType = true ∨
      container.isSome = true ∧ s.nameSpace = none) : Placed b.symbols (placeIn container s) where
  inType c hc := by
    unfold placeIn at hc
    by_cases hn : s.nameSpace.isSome = true
    · simp [hn] at hc
    · simp only [hn] at hc
      exact h c hc
  outside hc := by
    rcases hs with hs | ⟨hsome, hn⟩
    · exact hs
    · unfold placeIn at hc
      simp [hn] at hc
      simp [hc] at hsome
  nameSpace c hc := by
    unfold placeIn at hc ⊢
    by_cases hn : s.nameSpace.isSome = true
    · simp [hn] at hc
    · simpa using hn

/-- The number that an addition answers is that of a symbol with the key of the declaration. -/
theorem Sound.key_of_add {b : IndexBuilder} (h : b.Sound) {s : Symbol} {p : Piece}
    (hs : b.Allowed s p) {id : Nat} (hid : (b.add s p).2 = some id) :
    ∃ t, (b.add s p).1.symbols[id]? = some t ∧ (b.add s p).1.key t = (b.add s p).1.key s := by
  have hsound := h.add hs
  have hstep := add_step b s p
  obtain ⟨later, hlater⟩ := hstep.symbols_extend
  rw [hid] at hstep
  obtain ⟨t, ht, hkey⟩ := (hsound.keyed (b.key s) id).1 hstep.find?_eq
  have hsame : (b.add s p).1.key s = b.key s :=
    key_of_append hlater.symm hsound.placed.containersFirst fun c hc => hs.placed.container_lt hc
  exact ⟨t, ht, hkey.trans hsame.symm⟩

/-- What is placed before an addition is placed after it. -/
theorem placed_add {b : IndexBuilder} {s t : Symbol} (p : Piece) (ht : Placed b.symbols t) :
    Placed (b.add s p).1.symbols t := by
  obtain ⟨later, hlater⟩ := (add_step b s p).symbols_extend
  rw [← hlater]
  exact ht.append later

/-- The number that an addition answers is that of a symbol of the declared sort. -/
theorem Sound.symbol_of_add {b : IndexBuilder} (h : b.Sound) {s : Symbol} {p : Piece}
    (hs : b.Allowed s p) {id : Nat} (hid : (b.add s p).2 = some id) :
    ∃ t, (b.add s p).1.symbols[id]? = some t ∧ t.kind.isType = s.kind.isType := by
  obtain ⟨t, ht, hkey⟩ := h.key_of_add hs hid
  obtain ⟨-, -, -, -, htype, -⟩ :=
    key_eq_key ((h.add hs).placed.placed ht) (placed_add p hs.placed) hkey
  exact ⟨t, ht, htype⟩

/-- A declaration that founds a symbol and, after any others, one with the same key in another role
are pieces of that symbol. -/
theorem add_joins_founder {b : IndexBuilder} {s u : Symbol} {p q : Piece} (sound : b.Sound)
    (allowed : b.Allowed s p) (free : b.find? (b.key s) = none)
    (partials : s.isPartial = true ∧ u.isPartial = true)
    (hkey : ∀ b : IndexBuilder, b.key s = b.key u) {ds : List (Symbol × Piece)}
    (admits : (b.add s p).1.Admits ds)
    (roles : ∀ e, ((b.add s p).1.addAll ds).entries[b.entries.length]? = some e →
      ∀ r ∈ e.pieces, r.role ≠ q.role) :
    (b.add s p).2 = some b.entries.length ∧
    (((b.add s p).1.addAll ds).add u q).2 = some b.entries.length ∧
    ∃ e, (((b.add s p).1.addAll ds).add u q).1.entries[b.entries.length]? = some e ∧
      p ∈ e.pieces ∧ q ∈ e.pieces := by
  have hfounds := add_of_free (p := p) free
  have hsound := (sound.add allowed).addAll admits
  have hfirst := entries_of_free (p := p) free
  obtain ⟨more, hentry, -⟩ := entry_extends_addAll ds hfirst
  generalize (b.add s p).1.addAll ds = b' at *
  have hsymbol : b'.symbols[b.entries.length]? = some s := by
    rw [symbols_getElem?, hentry]
    rfl
  have htaken : b'.find? (b'.key u) = some b.entries.length := by
    rw [hsound.keyed]
    exact ⟨s, hsymbol, hkey b'⟩
  have hadd := add_of_taken htaken hentry partials (roles _ hentry)
  have hlt : b.entries.length < b'.entries.length := (List.getElem?_eq_some_iff.1 hentry).1
  rw [hadd]
  refine ⟨by rw [hfounds], rfl, _, List.getElem?_set_self hlt, ?_, ?_⟩
  · simp
  · simp

/-- What a list of declarations hands over is allowed when this holds of each of them. -/
theorem admits_handedAll {container : Option SymbolId} {ds : List Declaration}
    (h : ∀ d ∈ ds, ∀ b : IndexBuilder, b.Sound → b.IsTypeOrNone container →
      b.Admits (b.handed container d) ∧ ∀ x ∈ b.handed container d, Known x.2)
    (b : IndexBuilder) (hb : b.Sound) (hc : b.IsTypeOrNone container) :
    b.Admits (b.handedAll container ds) ∧ ∀ x ∈ b.handedAll container ds, Known x.2 := by
  induction ds generalizing b with
  | nil =>
    unfold handedAll
    exact ⟨trivial, by simp⟩
  | cons d ds ih =>
    obtain ⟨hadmits, hknown⟩ := h d List.mem_cons_self b hb hc
    unfold handedAll
    rw [enter_eq_addAll]
    obtain ⟨hadmits', hknown'⟩ := ih (fun d' hd' => h d' (List.mem_cons_of_mem _ hd'))
      (b.addAll (b.handed container d)) (hb.addAll hadmits) (hc.addAll _)
    refine ⟨admits_append.2 ⟨hadmits, hadmits'⟩, ?_⟩
    intro x hx
    rcases List.mem_append.1 hx with hx | hx
    · exact hknown x hx
    · exact hknown' x hx

/-- Proper declarations are allowed at every moment of their run.  The induction is on the
declaration: the members of a type are handed over only after the type has got its number. -/
theorem admits_handed {d : Declaration} (h : d.Proper Known) :
    ∀ (b : IndexBuilder) (container : Option SymbolId), b.Sound → b.IsTypeOrNone container →
      (d.symbol.kind.isType = true ∨ container.isSome = true) →
      b.Admits (b.handed container d) ∧ ∀ x ∈ b.handed container d, Known x.2 := by
  induction h with
  | @type s p ds type role known members ih =>
    intro b container hb hcontainer _
    have hallowed : b.Allowed (placeIn container s) p :=
      ⟨placed_placeIn hcontainer (.inl type), role⟩
    unfold handed
    cases hadd : b.add (placeIn container s) p with
    | mk b' r =>
      have hb' : b'.Sound := by
        have := hb.add hallowed
        rwa [hadd] at this
      cases r with
      | none => exact ⟨⟨hallowed, trivial⟩, by simpa using known⟩
      | some id =>
        have hid : b'.IsTypeOrNone (some id) := by
          intro c hc
          have hanswer : (b.add (placeIn container s) p).2 = some id := by rw [hadd]
          obtain ⟨t, ht, htype⟩ := hb.symbol_of_add hallowed hanswer
          rw [hadd] at ht
          rw [Option.some.injEq] at hc
          exact ⟨t, hc ▸ ht, htype.trans type⟩
        obtain ⟨hrest, hknown⟩ := admits_handedAll
          (fun d hd b hb hc => ih d hd b (some id) hb hc (.inr rfl)) b' hb' hid
        refine ⟨⟨hallowed, ?_⟩, ?_⟩
        · rw [hadd]
          exact hrest
        · intro x hx
          rcases List.mem_cons.1 hx with rfl | hx
          · exact known
          · exact hknown x hx
  | @member s p member nameSpace role known =>
    intro b container hb hcontainer hsome
    have hsome : container.isSome = true := by
      rcases hsome with htype | hsome
      · rw [Declaration.symbol] at htype
        simp [htype] at member
      · exact hsome
    have hallowed : b.Allowed (placeIn container s) p :=
      ⟨placed_placeIn hcontainer (.inr ⟨hsome, nameSpace⟩), role⟩
    rw [handed_member]
    exact ⟨⟨hallowed, trivial⟩, by simpa using known⟩

end IndexBuilder

end PartialDocs
