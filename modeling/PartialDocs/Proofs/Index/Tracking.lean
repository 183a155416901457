import Mathlib.Data.List.Pairwise
import PartialDocs.Proofs.Declaration.Listing
import PartialDocs.Proofs.Index.Addresses
import PartialDocs.Proofs.Index.Run

/-!
# What a listing says about the builder

As long as nothing is refused, the builder can be read off the listing of the declarations
that it has got: the symbols are the addresses that are listed, and the pieces of a symbol
are those that are listed under its address, in the order of the listing (`Tracks`).  Also
whether anything will be refused can be seen in the listing alone (`Orderly`).
-/

set_option autoImplicit false

namespace PartialDocs

/-- Whether the types of all parameters can be read. -/
def Symbol.Readable (s : Symbol) : Prop := ∀ q ∈ s.parameters, (TypeRef.ofText? q.type).isSome

/-! ## Orderly listings -/

namespace Listed

/-- The address of a declaration. -/
def address (x : Listed) : Address := addressIn x.outer x.symbol

/-- Whether two declarations of one address may be pieces of one symbol. -/
structure Agrees (x y : Listed) : Prop where
  isPartial : x.symbol.isPartial = true ∧ y.symbol.isPartial = true
  role : x.piece.role = y.piece.role → x.piece.role ≠ .defining ∧ x.piece.role ≠ .implementing
  typeParameters : x.symbol.kind.isType = true → x.symbol.typeParameters = y.symbol.typeParameters

variable {x y : Listed}

/-- Declarations of one address are types or none of them is. -/
theorem isType_eq_of_address (h : x.address = y.address) :
    x.symbol.kind.isType = y.symbol.kind.isType := isType_eq_of_address_eq h

/-- Declarations of one address agree either way. -/
theorem Agrees.symm (h : x.Agrees y) (address : x.address = y.address) : y.Agrees x where
  isPartial := h.isPartial.symm
  role hrole := by
    rw [hrole]
    exact h.role hrole.symm
  typeParameters htype := (h.typeParameters ((isType_eq_of_address address).trans htype)).symm

end Listed

/-- A listing of readable declarations of which any two with one address may be pieces of one
symbol. -/
structure Orderly (l : List Listed) : Prop where
  agrees : l.Pairwise fun x y => x.address = y.address → x.Agrees y
  readable : ∀ x ∈ l, x.symbol.Readable

section Orderly

variable {l m : List Listed} {x y : Listed}

/-- What comes first is orderly. -/
theorem Orderly.left (h : Orderly (l ++ m)) : Orderly l where
  agrees := (List.pairwise_append.1 h.agrees).1
  readable x hx := h.readable x (List.mem_append_left m hx)

/-- One more declaration is orderly when it can be read and agrees with those of its address. -/
theorem orderly_append_singleton : Orderly (l ++ [x]) ↔
    Orderly l ∧ x.symbol.Readable ∧ ∀ y ∈ l, y.address = x.address → y.Agrees x := by
  constructor
  · intro h
    refine ⟨h.left, h.readable x (by simp), ?_⟩
    intro y hy
    exact (List.pairwise_append.1 h.agrees).2.2 y hy x List.mem_cons_self
  · rintro ⟨h, hreadable, hagrees⟩
    refine ⟨?_, ?_⟩
    · rw [List.pairwise_append]
      refine ⟨h.agrees, List.pairwise_singleton _ _, ?_⟩
      intro y hy z hz
      rw [List.mem_singleton.1 hz]
      exact hagrees y hy
    · intro y hy
      rcases List.mem_append.1 hy with hy | hy
      · exact h.readable y hy
      · rw [List.mem_singleton.1 hy]
        exact hreadable

/-- Declarations of one address in an orderly listing are the same or agree. -/
theorem Orderly.eq_or_agrees (h : Orderly l) (hx : x ∈ l) (hy : y ∈ l)
    (address : x.address = y.address) : x = y ∨ x.Agrees y := by
  have hsymm : Std.Symm fun x y : Listed => x.address = y.address → x.Agrees y := by
    constructor
    intro u v huv hvu
    exact (huv hvu.symm).symm hvu.symm
  by_cases hxy : x = y
  · exact .inl hxy
  · exact .inr (h.agrees.forall hx hy hxy address)

/-- The order of declarations does not matter to whether they are orderly. -/
theorem Orderly.perm (h : Orderly l) (hperm : l.Perm m) : Orderly m where
  agrees := by
    refine h.agrees.perm hperm ?_
    intro u v huv hvu
    exact (huv hvu.symm).symm hvu.symm
  readable x hx := h.readable x (hperm.mem_iff.2 hx)

/-- A listing under other ordinals is as orderly. -/
theorem Orderly.renumber (h : Orderly l) (place : Nat → Nat) :
    Orderly (l.map (Listed.renumber place)) where
  agrees := by
    rw [List.pairwise_map]
    refine h.agrees.imp ?_
    intro x y hagrees address
    obtain ⟨hpartial, hrole, hparameters⟩ := hagrees address
    exact ⟨hpartial, hrole, hparameters⟩
  readable x hx := by
    obtain ⟨y, hy, rfl⟩ := List.mem_map.1 hx
    exact h.readable y hy

end Orderly

/-! ## Listed declarations and symbols -/

/-- Whether a symbol that stands among the given ones is a listed one with a number for its
container. -/
structure Listed.Describes (symbols : List Symbol) (s : Symbol) (x : Listed) : Prop where
  outer : (chainAround symbols s).map heading = x.outer.map heading
  symbol : ∃ c, s = { x.symbol with container := c }

section Describes

variable {symbols later : List Symbol} {s : Symbol} {x : Listed}

/-- A described symbol has the address of the declaration. -/
theorem Listed.Describes.address (h : x.Describes symbols s) :
    addressOf symbols s = x.address := by
  obtain ⟨c, hs⟩ := h.symbol
  unfold addressOf Listed.address
  apply addressIn_congr h.outer
  · rw [hs]
    rfl
  · rw [hs]
  · rw [hs]

/-- Symbols that come later do not matter. -/
theorem Listed.Describes.append (h : x.Describes symbols s) (placed : WellPlaced (symbols ++ later))
    (first : ContainersFirst symbols) (hs : Placed symbols s) :
    x.Describes (symbols ++ later) s where
  outer := by
    rw [chainAround_append placed first hs]
    exact h.outer
  symbol := h.symbol

/-- Later symbols do not change an address. -/
theorem addressOf_append (placed : WellPlaced (symbols ++ later)) (first : ContainersFirst symbols)
    (hs : Placed symbols s) : addressOf (symbols ++ later) s = addressOf symbols s := by
  unfold addressOf
  rw [chainAround_append placed first hs]

end Describes

namespace IndexBuilder

/-! ## Smooth runs -/

/-- Whether a declaration that can be read founds a symbol or joins one, which for a type spells its
type parameters alike. -/
def Accepts (b : IndexBuilder) (s : Symbol) (p : Piece) : Prop :=
  s.Readable ∧ ∃ id t, (b.add s p).2 = some id ∧ (b.add s p).1.symbols[id]? = some t ∧
    (s.kind.isType = true → t.typeParameters = s.typeParameters)

/-- Every declaration is accepted at the moment when it is added. -/
def Smooth : IndexBuilder → List (Symbol × Piece) → Prop
  | _, [] => True
  | b, d :: ds => b.Accepts d.1 d.2 ∧ Smooth (b.add d.1 d.2).1 ds

/-- Declarations go smoothly when they do so in turn. -/
theorem smooth_append {b : IndexBuilder} {ds es : List (Symbol × Piece)} :
    b.Smooth (ds ++ es) ↔ b.Smooth ds ∧ (b.addAll ds).Smooth es := by
  induction ds generalizing b with
  | nil => simp [Smooth]
  | cons d ds ih =>
    rw [List.cons_append, addAll_cons, Smooth, Smooth, ih, and_assoc]

/-! ## Tracking -/

/-- Whether a listing says which symbols and pieces a builder has. -/
structure Tracks (b : IndexBuilder) (l : List Listed) : Prop where
  sound : b.Sound
  orderly : Orderly l
  fits : ∀ x ∈ l, x.piece.role.Fits x.symbol
  /-- Every symbol has been declared as listed. -/
  founder : ∀ e ∈ b.entries, ∃ x ∈ l, x.Describes b.symbols e.symbol
  /-- Every address that is listed is that of a symbol. -/
  listed : ∀ x ∈ l, ∃ e ∈ b.entries, addressOf b.symbols e.symbol = x.address
  /-- The pieces of a symbol are those that are listed under its address. -/
  pieces : ∀ e ∈ b.entries, e.pieces =
    (l.filter fun x => x.address = addressOf b.symbols e.symbol).map Listed.piece

variable {b : IndexBuilder} {l : List Listed} {s : Symbol} {p : Piece} {x : Listed}

/-- The empty builder has been given nothing. -/
theorem tracks_empty : empty.Tracks [] where
  sound := sound_empty
  orderly := ⟨List.Pairwise.nil, by simp⟩
  fits := by simp
  founder := by simp [empty]
  listed := by simp
  pieces := by simp [empty]

/-- The symbols of a builder that has been tracked are placed. -/
theorem Tracks.placed_of_mem (h : b.Tracks l) {e : IndexEntry} (he : e ∈ b.entries) :
    Placed b.symbols e.symbol := by
  obtain ⟨id, hid⟩ := List.mem_iff_getElem?.1 he
  exact h.sound.placed.placed (by rw [symbols_getElem?, hid]; rfl)

/-- A symbol is partial and spells its type parameters as every declaration under its address. -/
theorem Tracks.agrees (h : b.Tracks l) {e : IndexEntry} (he : e ∈ b.entries) (hx : x ∈ l)
    (address : addressOf b.symbols e.symbol = x.address) :
    e.symbol.isPartial = x.symbol.isPartial ∧
      (x.symbol.kind.isType = true → e.symbol.typeParameters = x.symbol.typeParameters) := by
  obtain ⟨y, hy, hdescribes⟩ := h.founder e he
  have hsame : y.address = x.address := hdescribes.address.symm.trans address
  obtain ⟨c, hsymbol⟩ := hdescribes.symbol
  rw [hsymbol]
  rcases h.orderly.eq_or_agrees hy hx hsame with rfl | hagrees
  · exact ⟨rfl, fun _ => rfl⟩
  · refine ⟨hagrees.isPartial.1.trans hagrees.isPartial.2.symm, ?_⟩
    intro htype
    exact hagrees.typeParameters ((Listed.isType_eq_of_address hsame).trans htype)

/-- Nothing is listed under the address of a declaration whose key is free. -/
theorem Tracks.address_ne_of_free (h : b.Tracks l) (hs : Placed b.symbols s)
    (hx : x.Describes b.symbols s) (free : b.find? (b.key s) = none) {y : Listed} (hy : y ∈ l) :
    y.address ≠ x.address := by
  intro haddress
  obtain ⟨e, he, hentry⟩ := h.listed y hy
  have hkey : b.key e.symbol = b.key s := by
    rw [key_eq_iff_address_eq h.sound (h.placed_of_mem he) hs, hentry, haddress, hx.address]
  obtain ⟨id, hid⟩ := List.mem_iff_getElem?.1 he
  have hfind : b.find? (b.key s) = some id :=
    (h.sound.keyed _ id).2 ⟨e.symbol, by rw [symbols_getElem?, hid]; rfl, hkey⟩
  rw [free] at hfind
  cases hfind

/-- The symbol for which the key of a declaration stands has its address. -/
theorem Tracks.address_of_taken (h : b.Tracks l) (hs : Placed b.symbols s)
    (hx : x.Describes b.symbols s) {id : Nat} {e : IndexEntry}
    (taken : b.find? (b.key s) = some id) (entry : b.entries[id]? = some e) :
    addressOf b.symbols e.symbol = x.address := by
  have hkey := h.sound.entry_symbol taken entry
  rw [key_eq_iff_address_eq h.sound (h.placed_of_mem (List.mem_of_getElem? entry)) hs] at hkey
  exact hkey.trans hx.address

/-! ### Pieces under an address -/

/-- One more declaration of an address adds its piece. -/
theorem pieces_append_of_eq {address : Address} (h : x.address = address) :
    ((l ++ [x]).filter fun y => y.address = address).map Listed.piece =
      (l.filter fun y => y.address = address).map Listed.piece ++ [x.piece] := by
  rw [List.filter_append, List.map_append, List.filter_cons_of_pos (by simpa using h)]
  rfl

/-- One more declaration of another address adds none. -/
theorem pieces_append_of_ne {address : Address} (h : x.address ≠ address) :
    ((l ++ [x]).filter fun y => y.address = address).map Listed.piece =
      (l.filter fun y => y.address = address).map Listed.piece := by
  rw [List.filter_append, List.map_append, List.filter_cons_of_neg (by simpa using h)]
  simp

/-! ### One declaration -/

/-- One more piece that is allowed fits its symbol as the other ones do. -/
theorem fits_append (h : b.Tracks l) (hs : b.Allowed s p) (hx : x.Describes b.symbols s)
    (hp : x.piece = p) : ∀ y ∈ l ++ [x], y.piece.role.Fits y.symbol := by
  intro y hy
  rcases List.mem_append.1 hy with hy | hy
  · exact h.fits y hy
  · obtain ⟨c, hsymbol⟩ := hx.symbol
    have hrole := hs.role
    rw [hsymbol] at hrole
    rw [List.mem_singleton.1 hy, hp]
    exact hrole.congr rfl rfl fun _ => rfl

/-- A declaration that founds a symbol is the first one listed under its address. -/
theorem Tracks.found (h : b.Tracks l) (hs : b.Allowed s p) (hx : x.Describes b.symbols s)
    (hp : x.piece = p) (readable : x.symbol.Readable) (free : b.find? (b.key s) = none)
    {b' : IndexBuilder}
    (sound : b'.Sound) (entries : b'.entries = b.entries ++ [⟨s, [p]⟩]) : b'.Tracks (l ++ [x]) := by
  have hsymbols : b'.symbols = b.symbols ++ [s] := by
    unfold symbols
    rw [entries, List.map_append]
    rfl
  have hplaced := sound.placed
  rw [hsymbols] at hplaced
  have hfirst := h.sound.placed.containersFirst
  have hne : ∀ y ∈ l, y.address ≠ x.address := fun y hy =>
    h.address_ne_of_free hs.placed hx free hy
  have hold : ∀ e ∈ b.entries, addressOf b'.symbols e.symbol = addressOf b.symbols e.symbol := by
    intro e he
    rw [hsymbols, addressOf_append hplaced hfirst (h.placed_of_mem he)]
  have hnew : x.Describes b'.symbols s := by
    rw [hsymbols]
    exact hx.append hplaced hfirst hs.placed
  refine ⟨sound, ?_, ?_, ?_, ?_, ?_⟩
  · exact orderly_append_singleton.2
      ⟨h.orderly, readable, fun y hy haddress => absurd haddress (hne y hy)⟩
  · exact fits_append h hs hx hp
  · intro e he
    rw [entries, List.mem_append, List.mem_singleton] at he
    rcases he with he | rfl
    · obtain ⟨y, hy, hdescribes⟩ := h.founder e he
      refine ⟨y, List.mem_append_left _ hy, ?_⟩
      rw [hsymbols]
      exact hdescribes.append hplaced hfirst (h.placed_of_mem he)
    · exact ⟨x, by simp, hnew⟩
  · intro y hy
    rw [entries]
    rcases List.mem_append.1 hy with hy | hy
    · obtain ⟨e, he, haddress⟩ := h.listed y hy
      exact ⟨e, List.mem_append_left _ he, (hold e he).trans haddress⟩
    · rw [List.mem_singleton.1 hy]
      exact ⟨⟨s, [p]⟩, by simp, hnew.address⟩
  · intro e he
    rw [entries, List.mem_append, List.mem_singleton] at he
    rcases he with he | rfl
    · obtain ⟨y, hy, hdescribes⟩ := h.founder e he
      have hother : x.address ≠ addressOf b.symbols e.symbol := by
        rw [hdescribes.address]
        exact (hne y hy).symm
      rw [hold e he, pieces_append_of_ne hother, ← h.pieces e he]
    · have hnone : (l.filter fun y => y.address = addressOf b'.symbols s) = [] := by
        rw [List.filter_eq_nil_iff]
        intro y hy
        simpa [hnew.address] using hne y hy
      rw [pieces_append_of_eq hnew.address.symm, hnone, hp]
      rfl

/-- A declaration that a symbol takes agrees with those listed under its address. -/
theorem Tracks.agrees_of_takes (h : b.Tracks l) (hx : x.Describes b.symbols s)
    (hp : x.piece = p) {e : IndexEntry} (he : e ∈ b.entries)
    (address : addressOf b.symbols e.symbol = x.address)
    (takes : IndexBuilder.takes e s p = true)
    (alike : s.kind.isType = true → e.symbol.typeParameters = s.typeParameters) {y : Listed}
    (hy : y ∈ l) (same : y.address = x.address) : y.Agrees x := by
  obtain ⟨c, hsymbol⟩ := hx.symbol
  have haddress : addressOf b.symbols e.symbol = y.address := address.trans same.symm
  obtain ⟨hpartial, hparameters⟩ := h.agrees he hy haddress
  unfold IndexBuilder.takes at takes
  simp only [Bool.and_eq_true, Bool.not_eq_true', Bool.and_eq_false_iff] at takes
  obtain ⟨⟨hfounder, hjoins⟩, hrole⟩ := takes
  refine ⟨⟨hpartial ▸ hfounder, ?_⟩, ?_, ?_⟩
  · rw [hsymbol] at hjoins
    exact hjoins
  · intro hroles
    have hpiece : y.piece ∈ e.pieces := by
      rw [h.pieces e he]
      exact List.mem_map_of_mem (List.mem_filter.2 ⟨hy, by simpa using haddress.symm⟩)
    rw [hp] at hroles
    rcases hrole with hrole | hrole
    · rw [hroles]
      simpa using hrole
    · rw [List.any_eq_false] at hrole
      simpa [hroles] using hrole y.piece hpiece
  · intro htype
    have htype' : s.kind.isType = true := by
      rw [hsymbol]
      exact (Listed.isType_eq_of_address same).symm.trans htype
    rw [← hparameters htype, alike htype', hsymbol]

/-- Conversely, a symbol takes a declaration that agrees with all those under its address. -/
theorem Tracks.takes_of_agrees (h : b.Tracks l) (hx : x.Describes b.symbols s)
    (hp : x.piece = p) {e : IndexEntry} (he : e ∈ b.entries)
    (address : addressOf b.symbols e.symbol = x.address)
    (agrees : ∀ y ∈ l, y.address = x.address → y.Agrees x) :
    IndexBuilder.takes e s p = true := by
  obtain ⟨c, hsymbol⟩ := hx.symbol
  obtain ⟨y, hy, hdescribes⟩ := h.founder e he
  have hpartial := (agrees y hy (hdescribes.address.symm.trans address)).isPartial
  have hfounder : e.symbol.isPartial = true :=
    (h.agrees he hy hdescribes.address).1.trans hpartial.1
  have hjoins : s.isPartial = true := by
    rw [hsymbol]
    exact hpartial.2
  have hrole : ∀ q ∈ e.pieces, q.role = p.role →
      p.role ≠ .defining ∧ p.role ≠ .implementing := by
    intro q hq hsame
    rw [h.pieces e he] at hq
    obtain ⟨z, hz, rfl⟩ := List.mem_map.1 hq
    rw [List.mem_filter, decide_eq_true_eq, address] at hz
    rw [← hsame]
    exact (agrees z hz.1 hz.2).role (hsame.trans (congrArg Piece.role hp.symm))
  unfold IndexBuilder.takes
  rw [hfounder, hjoins]
  simp only [Bool.and_self, Bool.true_and, Bool.not_eq_true', Bool.and_eq_false_iff]
  by_cases hbody : p.role = .defining ∨ p.role = .implementing
  · right
    rw [List.any_eq_false]
    intro q hq hsame
    obtain ⟨hdefining, himplementing⟩ := hrole q hq (by simpa using hsame)
    exact hbody.elim hdefining himplementing
  · left
    simpa using hbody

/-- A declaration that joins a symbol is one more listed under the address of the symbol. -/
theorem Tracks.join (h : b.Tracks l) (hs : b.Allowed s p) (hx : x.Describes b.symbols s)
    (hp : x.piece = p) (readable : x.symbol.Readable) {id : Nat} {e : IndexEntry}
    (taken : b.find? (b.key s) = some id) (entry : b.entries[id]? = some e)
    (takes : IndexBuilder.takes e s p = true)
    (alike : s.kind.isType = true → e.symbol.typeParameters = s.typeParameters)
    {b' : IndexBuilder} (sound : b'.Sound)
    (entries : b'.entries = b.entries.set id ⟨e.symbol, e.pieces ++ [p]⟩)
    (symbols : b'.symbols = b.symbols) : b'.Tracks (l ++ [x]) := by
  have he : e ∈ b.entries := List.mem_of_getElem? entry
  have haddress := h.address_of_taken hs.placed hx taken entry
  refine ⟨sound, ?_, fits_append h hs hx hp, ?_, ?_, ?_⟩
  · refine orderly_append_singleton.2 ⟨h.orderly, readable, ?_⟩
    intro y hy hsame
    exact h.agrees_of_takes hx hp he haddress takes alike hy hsame
  · intro e' he'
    rw [entries] at he'
    rw [symbols]
    rcases List.mem_or_eq_of_mem_set he' with he' | rfl
    · obtain ⟨y, hy, hdescribes⟩ := h.founder e' he'
      exact ⟨y, List.mem_append_left _ hy, hdescribes⟩
    · obtain ⟨y, hy, hdescribes⟩ := h.founder e he
      exact ⟨y, List.mem_append_left _ hy, hdescribes⟩
  · -- an entry may have got a piece, but its symbol is still there
    have hkept : ∀ u ∈ b.entries, ∃ v ∈ b'.entries, v.symbol = u.symbol := by
      intro u hu
      have hmem : u.symbol ∈ b'.symbols := by
        rw [symbols]
        exact List.mem_map_of_mem hu
      exact List.mem_map.1 hmem
    intro y hy
    have hlisted : ∃ u ∈ b.entries, addressOf b.symbols u.symbol = y.address := by
      rcases List.mem_append.1 hy with hy | hy
      · exact h.listed y hy
      · rw [List.mem_singleton.1 hy]
        exact ⟨e, he, haddress⟩
    obtain ⟨u, hu, haddress'⟩ := hlisted
    obtain ⟨v, hv, hsymbol⟩ := hkept u hu
    refine ⟨v, hv, ?_⟩
    rw [symbols, hsymbol, haddress']
  · intro e' he'
    obtain ⟨j, hj⟩ := List.mem_iff_getElem?.1 he'
    rw [entries, List.getElem?_set] at hj
    rw [symbols]
    by_cases hid : id = j
    · rw [if_pos hid] at hj
      split at hj
      · rw [Option.some.injEq] at hj
        rw [← hj]
        simp only
        rw [pieces_append_of_eq haddress.symm, ← h.pieces e he, hp]
      · cases hj
    · rw [if_neg hid] at hj
      -- one address would mean one number
      have hother : x.address ≠ addressOf b.symbols e'.symbol := by
        intro hsame
        refine hid (h.sound.eq_of_address_eq (s := e.symbol) (t := e'.symbol) ?_ ?_ ?_)
        · rw [symbols_getElem?, entry]
          rfl
        · rw [symbols_getElem?, hj]
          rfl
        · exact haddress.trans hsame
      rw [pieces_append_of_ne hother, ← h.pieces e' (List.mem_of_getElem? hj)]

/-- What accepts a declaration tracks the listing that goes on with it. -/
theorem Tracks.add (h : b.Tracks l) (hs : b.Allowed s p) (hx : x.Describes b.symbols s)
    (hp : x.piece = p) (accepts : b.Accepts s p) : (b.add s p).1.Tracks (l ++ [x]) := by
  obtain ⟨hreadable, id, t, hanswer, ht, alike⟩ := accepts
  have readable : x.symbol.Readable := by
    obtain ⟨c, hsymbol⟩ := hx.symbol
    rw [hsymbol] at hreadable
    exact hreadable
  have sound := h.sound.add hs
  have hstep := add_step b s p
  generalize b.add s p = result at sound hstep hanswer ht ⊢
  obtain ⟨b', r⟩ := result
  have hsymbols := hstep.symbols_eq
  cases hstep with
  | founds free => exact h.found hs hx hp readable free sound rfl
  | @joins id' e taken entry takes =>
    obtain ⟨hfree, -⟩ | ⟨-, hsame, -⟩ := hsymbols
    · simp [taken] at hfree
    · obtain rfl : id' = id := Option.some.inj hanswer
      rw [hsame, symbols_getElem?, entry, Option.map_some, Option.some.injEq] at ht
      exact h.join hs hx hp readable taken entry takes (ht ▸ alike) sound rfl hsame
  | refuses => cases hanswer

/-- A declaration is accepted when the listing stays orderly. -/
theorem Tracks.accepts (h : b.Tracks l) (hs : b.Allowed s p) (hx : x.Describes b.symbols s)
    (hp : x.piece = p) (orderly : Orderly (l ++ [x])) : b.Accepts s p := by
  obtain ⟨-, hreadable, hagrees⟩ := orderly_append_singleton.1 orderly
  obtain ⟨c, hsymbol⟩ := hx.symbol
  have readable : s.Readable := by
    rw [hsymbol]
    exact hreadable
  have hstep := add_step b s p
  refine ⟨readable, ?_⟩
  generalize b.add s p = result at hstep ⊢
  obtain ⟨b', r⟩ := result
  cases hstep with
  | founds free =>
    refine ⟨b.entries.length, s, rfl, ?_, fun _ => rfl⟩
    simp [symbols]
  | @joins id e taken entry takes =>
    have he : e ∈ b.entries := List.mem_of_getElem? entry
    have haddress := h.address_of_taken hs.placed hx taken entry
    have hlt : id < b.entries.length := (List.getElem?_eq_some_iff.1 entry).1
    refine ⟨id, e.symbol, rfl, ?_, ?_⟩
    · rw [symbols_getElem?]
      simp [hlt]
    · intro htype
      obtain ⟨y, hy, hdescribes⟩ := h.founder e he
      have hsame : y.address = x.address := hdescribes.address.symm.trans haddress
      have htype' : y.symbol.kind.isType = true := by
        rw [hsymbol] at htype
        exact (Listed.isType_eq_of_address hsame).trans htype
      rw [(h.agrees he hy hdescribes.address).2 htype', hsymbol]
      exact (hagrees y hy hsame).typeParameters htype'
  | @refuses id taken refused =>
    obtain ⟨t, ht, -⟩ := (h.sound.keyed _ id).1 taken
    rw [symbols_getElem?, Option.map_eq_some_iff] at ht
    obtain ⟨e, entry, -⟩ := ht
    have haddress := h.address_of_taken hs.placed hx taken entry
    have htakes := h.takes_of_agrees hx hp (List.mem_of_getElem? entry) haddress hagrees
    rw [refused e entry] at htakes
    cases htakes

end IndexBuilder

end PartialDocs
