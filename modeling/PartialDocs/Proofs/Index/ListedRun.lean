import PartialDocs.Proofs.Index.Tracking

/-!
# Runs over listed declarations

Entering declarations and listing them go along with each other: a smooth run leads to a
builder that tracks the listing, and a run is smooth when the listing is orderly
(`mirrors_handed`).  The induction is on the declarations.  On the way the number that a
container has got in the builder represents the symbols around it in the listing.
-/

set_option autoImplicit false

namespace PartialDocs.IndexBuilder

open Declaration (listing listingAll outerOf)

variable {b b' : IndexBuilder} {l m : List Listed} {s : Symbol} {p : Piece} {x : Listed}
  {container : Option SymbolId} {outer : List Symbol}

/-! ## Containers -/

/-- Whether a number stands for the given symbols, the innermost of which it names. -/
structure Represents (b : IndexBuilder) (container : Option SymbolId) (outer : List Symbol) :
    Prop where
  isType : b.IsTypeOrNone container
  headings : (container.elim [] (chainOf b.symbols)).map heading = outer.map heading

/-- Without a container nothing is around. -/
theorem represents_none (b : IndexBuilder) : b.Represents none [] where
  isType := by simp [IsTypeOrNone]
  headings := rfl

/-- What is listed inside the symbols that a number represents describes what is handed over. -/
theorem Represents.describes (h : b.Represents container outer) (s : Symbol) (p : Piece) :
    (Listed.mk (outerOf outer s) s p).Describes b.symbols (placeIn container s) where
  outer := by
    unfold chainAround placeIn outerOf
    by_cases hn : s.nameSpace.isSome = true
    · simp only [hn, if_true, List.map_nil]
    · simp only [hn]
      have hheadings := h.headings
      cases container with
      | none => exact hheadings
      | some c => exact hheadings
  symbol := ⟨_, rfl⟩

/-- A number goes on to represent the same symbols. -/
theorem Represents.mono (h : b.Represents container outer) (hb : b.Sound) (hb' : b'.Sound)
    (extends' : b.symbols <+: b'.symbols) : b'.Represents container outer := by
  obtain ⟨later, hlater⟩ := extends'
  have hfirst := hb'.placed.containersFirst
  rw [← hlater] at hfirst
  refine ⟨?_, ?_⟩
  · intro c hc
    obtain ⟨t, ht, htype⟩ := h.isType c hc
    refine ⟨t, ?_, htype⟩
    rw [← hlater, List.getElem?_append_left (List.getElem?_eq_some_iff.1 ht).1, ht]
  · have hheadings := h.headings
    cases container with
    | none => exact hheadings
    | some c =>
      obtain ⟨t, ht, -⟩ := h.isType c rfl
      have hlt : c < b.symbols.length := (List.getElem?_eq_some_iff.1 ht).1
      have hwalk := containerWalk_append hb.placed.containersFirst later hfirst hlt
      unfold Option.elim chainOf at hheadings ⊢
      simp only at hheadings ⊢
      rw [← hlater, hwalk, hheadings]

/-- The number that a type has got represents the type and what is around it. -/
theorem represents_of_accepts (hb : b.Sound) (hs : b.Allowed s p) (hx : x.Describes b.symbols s)
    (type : s.kind.isType = true) (accepts : b.Accepts s p) {id : SymbolId}
    (answer : (b.add s p).2 = some id) :
    (b.add s p).1.Represents (some id) (x.symbol :: x.outer) := by
  obtain ⟨-, id', t, hanswer, ht, hparameters⟩ := accepts
  obtain rfl : id' = id := Option.some.inj (hanswer.symm.trans answer)
  have hsound := hb.add hs
  obtain ⟨t', ht', hkey⟩ := hb.key_of_add hs answer
  obtain rfl : t' = t := Option.some.inj (ht'.symm.trans ht)
  obtain ⟨hcontainer, hnameSpace, hname, -, htype, -⟩ :=
    key_eq_key (hsound.placed.placed ht) (placed_add p hs.placed) hkey
  obtain ⟨later, hlater⟩ := (add_step b s p).symbols_extend
  have hplaced := hsound.placed
  rw [← hlater] at hplaced
  have houter : chainAround (b.add s p).1.symbols t' = chainAround b.symbols s := by
    rw [chainAround_congr hcontainer, ← hlater,
      chainAround_append hplaced hb.placed.containersFirst hs.placed]
  have hheading : heading t' = heading x.symbol := by
    obtain ⟨c, hsymbol⟩ := hx.symbol
    unfold heading
    rw [hnameSpace, hname, hparameters type, hsymbol]
  refine ⟨?_, ?_⟩
  · intro c hc
    obtain rfl : id' = c := Option.some.inj hc
    exact ⟨t', ht, htype.trans type⟩
  · unfold Option.elim
    simp only
    rw [chainOf_eq_cons_chainAround hsound.placed.containersFirst ht, houter, List.map_cons,
      List.map_cons, hheading, hx.outer]

/-! ## Declarations -/

/-- Whether a run goes along with the listing that the given declarations add to one. -/
structure Mirrors (b : IndexBuilder) (l : List Listed) (ds : List (Symbol × Piece))
    (m : List Listed) : Prop where
  tracks : b.Smooth ds → (b.addAll ds).Tracks (l ++ m)
  smooth : Orderly (l ++ m) → b.Smooth ds

/-- Nothing mirrors nothing. -/
theorem mirrors_nil (h : b.Tracks l) : b.Mirrors l [] [] where
  tracks _ := by
    rw [List.append_nil]
    exact h
  smooth _ := trivial

/-- What mirrors in turn mirrors as a whole. -/
theorem Mirrors.append {ds es : List (Symbol × Piece)} {n : List Listed} (h : b.Mirrors l ds m)
    (rest : b.Smooth ds → (b.addAll ds).Tracks (l ++ m) →
      (b.addAll ds).Mirrors (l ++ m) es n) : b.Mirrors l (ds ++ es) (m ++ n) where
  tracks hsmooth := by
    obtain ⟨hfirst, hsecond⟩ := smooth_append.1 hsmooth
    rw [addAll_append, ← List.append_assoc]
    exact (rest hfirst (h.tracks hfirst)).tracks hsecond
  smooth horderly := by
    rw [← List.append_assoc] at horderly
    have hfirst := h.smooth horderly.left
    exact smooth_append.2 ⟨hfirst, (rest hfirst (h.tracks hfirst)).smooth horderly⟩

/-- One declaration goes along with its listing. -/
theorem Tracks.mirrors_singleton (h : b.Tracks l) (hs : b.Allowed s p)
    (hx : x.Describes b.symbols s) (hp : x.piece = p) : b.Mirrors l [(s, p)] [x] where
  tracks hsmooth := h.add hs hx hp hsmooth.1
  smooth horderly := ⟨h.accepts hs hx hp horderly, trivial⟩

/-- Declarations go along with their listing when each of them does. -/
theorem mirrors_handedAll {ds : List Declaration}
    (h : ∀ d ∈ ds, ∀ (b : IndexBuilder) (l : List Listed), b.Tracks l →
      b.Represents container outer → b.Mirrors l (b.handed container d) (listing outer d))
    (b : IndexBuilder) (l : List Listed) (hl : b.Tracks l) (hc : b.Represents container outer) :
    b.Mirrors l (b.handedAll container ds) (listingAll outer ds) := by
  induction ds generalizing b l with
  | nil =>
    unfold handedAll listingAll
    exact mirrors_nil hl
  | cons d ds ih =>
    unfold handedAll listingAll
    rw [enter_eq_addAll]
    refine (h d List.mem_cons_self b l hl hc).append ?_
    intro _ htracks
    exact ih (fun d' hd' => h d' (List.mem_cons_of_mem _ hd')) _ _ htracks
      (hc.mono hl.sound htracks.sound (symbols_extend_addAll b _))

/-- A proper declaration goes along with its listing. -/
theorem mirrors_handed {Known : Piece → Prop} {d : Declaration} (h : d.Proper Known) :
    ∀ (b : IndexBuilder) (l : List Listed) (container : Option SymbolId) (outer : List Symbol),
      b.Tracks l → b.Represents container outer →
      (d.symbol.kind.isType = true ∨ container.isSome = true) →
      b.Mirrors l (b.handed container d) (listing outer d) := by
  induction h with
  | @type s p ds type role known members ih =>
    intro b l container outer hl hc _
    have hallowed : b.Allowed (placeIn container s) p :=
      ⟨placed_placeIn hc.isType (.inl type), role⟩
    have hx := hc.describes s p
    unfold handed listing
    refine (hl.mirrors_singleton hallowed hx rfl).append ?_
    intro hsmooth htracks
    obtain ⟨id, t, hanswer, -⟩ := hsmooth.1.2
    -- the members are entered under the number that the type has got
    have hinside := represents_of_accepts hl.sound hallowed hx type hsmooth.1 hanswer
    rw [addAll_cons, addAll_nil] at htracks ⊢
    generalize b.add (placeIn container s) p = result at hanswer hinside htracks ⊢
    obtain ⟨b', r⟩ := result
    simp only at hanswer
    rw [hanswer]
    exact mirrors_handedAll (fun d hd b l hl hc => ih d hd b l (some id) _ hl hc (.inr rfl)) b' _
      htracks hinside
  | @member s p member nameSpace role known =>
    intro b l container outer hl hc hsome
    have hsome : container.isSome = true := by
      rcases hsome with htype | hsome
      · rw [Declaration.symbol] at htype
        simp [htype] at member
      · exact hsome
    have hallowed : b.Allowed (placeIn container s) p :=
      ⟨placed_placeIn hc.isType (.inr ⟨hsome, nameSpace⟩), role⟩
    -- a member has no body, so that the listing is this one declaration
    have hlisting : listing outer (.mk s p []) = [⟨outerOf outer s, s, p⟩] := by
      unfold listing listingAll
      rfl
    rw [handed_member, hlisting]
    exact hl.mirrors_singleton hallowed (hc.describes s p) rfl

end PartialDocs.IndexBuilder
