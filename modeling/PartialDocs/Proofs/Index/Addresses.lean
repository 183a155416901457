import PartialDocs.Proofs.DocId.Members
import PartialDocs.Proofs.DocId.Paths

/-!
# Addresses

A key knows a symbol by the number of its container, and numbers depend on the order in
which declarations come.  An address says the same without numbers: it has the path of
the container in their place.  Among the symbols of one sound builder keys and addresses
tell apart the same symbols (`key_eq_iff_address_eq`), but addresses can be compared
between builders too.
-/

set_option autoImplicit false

namespace PartialDocs

/-- What an address or a documentation ID takes from a symbol that stands around another one. -/
def heading (s : Symbol) : Option Text × Text × List Text :=
  (s.nameSpace, s.name, s.typeParameters)

/-- Where a symbol is declared and what is declared there, in terms of names. -/
inductive Address where
  | type (path : Option Text × List (Text × Nat))
  | member (path : Option Text × List (Text × Nat)) (kind : SymbolKind) (name : Text) (arity : Nat)
      (parameters : Text)
  deriving DecidableEq, Repr

/-- The address of a symbol that stands in the given ones. -/
def addressIn (outer : List Symbol) (s : Symbol) : Address :=
  if s.kind.isType then .type (typePath (s :: outer))
  else
    .member (typePath outer) s.kind s.name s.arity
      (encodeParameters ⟨nestedTypeParameters outer, s.typeParameters⟩ s.parameters)

/-- The address of a symbol that stands among the given ones. -/
def addressOf (symbols : List Symbol) (s : Symbol) : Address :=
  addressIn (chainAround symbols s) s

variable {s t : Symbol} {chain other : List Symbol}

/-! ## What depends on headings only -/

/-- The path of types depends on the headings only. -/
theorem typePath_congr (h : chain.map heading = other.map heading) :
    typePath chain = typePath other := by
  have hpath : ∀ l : List Symbol, typePath l =
      ((l.map heading).getLast?.bind fun x => x.1,
        (l.map heading).map fun x => (x.2.1, x.2.2.length)) := by
    intro l
    unfold typePath
    rw [List.map_map, List.getLast?_map, Option.bind_map]
    rfl
  rw [hpath chain, hpath other, h]

/-- The type parameters around a symbol depend on the headings only. -/
theorem nestedTypeParameters_congr (h : chain.map heading = other.map heading) :
    nestedTypeParameters chain = nestedTypeParameters other := by
  have hnested : ∀ l : List Symbol, nestedTypeParameters l =
      (l.map heading).reverse.flatMap fun x => x.2.2 := by
    intro l
    unfold nestedTypeParameters
    rw [← List.map_reverse, List.flatMap_map]
    rfl
  rw [hnested chain, hnested other, h]

/-- A dotted name is spelled from the path. -/
theorem dottedName_eq_of_typePath_eq (h : typePath chain = typePath other) :
    dottedName chain = dottedName other := by
  have hnames : ∀ l : List Symbol, l.map nameWithArity =
      (typePath l).2.map fun x => if x.2 > 0 then x.1 ++ '\x60' :: Text.ofNat x.2 else x.1 := by
    intro l
    unfold typePath
    rw [List.map_map]
    rfl
  have hnameSpace : chain.getLast?.bind Symbol.nameSpace = other.getLast?.bind Symbol.nameSpace :=
    congrArg Prod.fst h
  unfold dottedName
  rw [hnames chain, hnames other, h, hnameSpace]

/-- An address depends on the headings around and on the declaration. -/
theorem addressIn_congr (outer : chain.map heading = other.map heading)
    (own : heading s = heading t) (kind : s.kind = t.kind)
    (parameters : s.parameters = t.parameters) :
    addressIn chain s = addressIn other t := by
  have hname : s.name = t.name := congrArg (fun x => x.2.1) own
  have hparameters : s.typeParameters = t.typeParameters := congrArg (fun x => x.2.2) own
  have hpath : typePath (s :: chain) = typePath (t :: other) := by
    apply typePath_congr
    rw [List.map_cons, List.map_cons, own, outer]
  unfold addressIn Symbol.arity
  rw [hpath, typePath_congr outer, nestedTypeParameters_congr outer, kind, parameters, hname,
    hparameters]

/-! ## What addresses tell -/

/-- An address tells types from members. -/
theorem isType_eq_of_address_eq (h : addressIn chain s = addressIn other t) :
    s.kind.isType = t.kind.isType := by
  unfold addressIn at h
  cases hs : s.kind.isType <;> cases ht : t.kind.isType <;> simp [hs, ht] at h ⊢

/-- The address of a type tells the path to it. -/
theorem path_eq_of_address_eq (type : s.kind.isType = true)
    (h : addressIn chain s = addressIn other t) :
    typePath (s :: chain) = typePath (t :: other) := by
  have htype := isType_eq_of_address_eq h
  unfold addressIn at h
  rw [if_pos type, if_pos (htype ▸ type)] at h
  exact Address.type.inj h

/-- The address of a member tells the path around it, its kind, name, arity and parameters. -/
theorem member_eq_of_address_eq (member : s.kind.isType = false)
    (h : addressIn chain s = addressIn other t) :
    typePath chain = typePath other ∧ s.kind = t.kind ∧ s.name = t.name ∧ s.arity = t.arity ∧
      encodeParameters ⟨nestedTypeParameters chain, s.typeParameters⟩ s.parameters =
        encodeParameters ⟨nestedTypeParameters other, t.typeParameters⟩ t.parameters := by
  have htype := isType_eq_of_address_eq h
  unfold addressIn at h
  rw [if_neg (by simp [member]), if_neg (by simp [← htype, member])] at h
  exact Address.member.inj h

/-! ## Addresses and keys -/

section Builder

variable {b : IndexBuilder}

/-- Symbols whose containers have one path are in one container. -/
theorem container_eq_of_typePath_eq (h : b.Sound) (hs : Placed b.symbols s)
    (ht : Placed b.symbols t)
    (path : typePath (chainAround b.symbols s) = typePath (chainAround b.symbols t)) :
    s.container = t.container := by
  have hnames := congrArg Prod.snd path
  -- the path of a symbol in no container has no names, that of any other symbol has one
  cases hc : s.container with
  | none =>
    cases hd : t.container with
    | none => rfl
    | some d =>
      obtain ⟨q, -, -, hchain⟩ := ht.exists_outer h.placed hd
      rw [chainAround_of_top hc, hchain] at hnames
      simp [typePath] at hnames
  | some c =>
    obtain ⟨o, ho, htype, hchain⟩ := hs.exists_outer h.placed hc
    cases hd : t.container with
    | none =>
      rw [chainAround_of_top hd, hchain] at hnames
      simp [typePath] at hnames
    | some d =>
      obtain ⟨q, hq, htype', hchain'⟩ := ht.exists_outer h.placed hd
      rw [hchain, hchain'] at path
      rw [h.eq_of_typePath_eq ho hq htype htype' path]

/-- Types with one path are in one container and one namespace. -/
theorem container_eq_of_typePath_cons_eq (h : b.Sound) (hs : Placed b.symbols s)
    (ht : Placed b.symbols t)
    (path : typePath (s :: chainAround b.symbols s) = typePath (t :: chainAround b.symbols t)) :
    s.container = t.container ∧ s.nameSpace = t.nameSpace := by
  have hnames : (chainAround b.symbols s).map (fun u => (u.name, u.arity)) =
      (chainAround b.symbols t).map fun u => (u.name, u.arity) := by
    have := congrArg (fun x => x.2.tail) path
    simpa [typePath] using this
  have hnameSpace := congrArg Prod.fst path
  cases hc : s.container with
  | none =>
    cases hd : t.container with
    | none =>
      rw [chainAround_of_top hc, chainAround_of_top hd] at hnameSpace
      exact ⟨rfl, by simpa [typePath] using hnameSpace⟩
    | some d =>
      obtain ⟨q, -, -, hchain⟩ := ht.exists_outer h.placed hd
      rw [chainAround_of_top hc, hchain] at hnames
      simp at hnames
  | some c =>
    obtain ⟨o, ho, htype, hchain⟩ := hs.exists_outer h.placed hc
    cases hd : t.container with
    | none =>
      rw [chainAround_of_top hd, hchain] at hnames
      simp at hnames
    | some d =>
      obtain ⟨q, hq, htype', hchain'⟩ := ht.exists_outer h.placed hd
      have hpath : typePath (o :: chainAround b.symbols o) =
          typePath (q :: chainAround b.symbols q) := by
        rw [hchain, hchain'] at hnames hnameSpace
        exact Prod.ext (by simpa [typePath] using hnameSpace) hnames
      rw [h.eq_of_typePath_eq ho hq htype htype' hpath, hs.nameSpace c hc, ht.nameSpace d hd]
      exact ⟨rfl, rfl⟩

/-- **Placed symbols have one key exactly when they have one address.** -/
theorem key_eq_iff_address_eq (h : b.Sound) (hs : Placed b.symbols s) (ht : Placed b.symbols t) :
    b.key s = b.key t ↔ addressOf b.symbols s = addressOf b.symbols t := by
  constructor
  · intro hkey
    obtain ⟨hcontainer, hnameSpace, hname, harity, htype, hmember⟩ :=
      IndexBuilder.key_eq_key hs ht hkey
    have hchain : chainAround b.symbols s = chainAround b.symbols t := chainAround_congr hcontainer
    unfold addressOf addressIn
    rw [← hchain, ← htype]
    cases hkind : s.kind.isType with
    | true =>
      have hpath : typePath (s :: chainAround b.symbols s) =
          typePath (t :: chainAround b.symbols s) := by
        unfold typePath
        rw [List.map_cons, List.map_cons, hname, harity]
        cases chainAround b.symbols s with
        | nil => simp [hnameSpace]
        | cons o outer => simp
      rw [if_pos rfl, if_pos rfl, hpath]
    | false =>
      obtain ⟨hsame, hsignature⟩ := hmember hkind
      obtain ⟨c, hc⟩ := hs.exists_container hkind
      have hspelling := hsignature c hc
      rw [signature_eq hc, signature_eq (hcontainer ▸ hc), contextOf, contextOf, ← hchain]
        at hspelling
      rw [if_neg (by simp), if_neg (by simp), hsame, hname, harity, hspelling]
  · intro haddress
    have htype := isType_eq_of_address_eq haddress
    cases hkind : s.kind.isType with
    | true =>
      have hpath := path_eq_of_address_eq hkind haddress
      obtain ⟨hcontainer, hnameSpace⟩ := container_eq_of_typePath_cons_eq h hs ht hpath
      have hnames := congrArg (fun x => x.2.head?) hpath
      simp only [typePath, List.map_cons, List.head?_cons, Option.some.injEq,
        Prod.mk.injEq] at hnames
      rw [b.key_of_type hkind, b.key_of_type (htype ▸ hkind), hcontainer, hnameSpace, hnames.1,
        hnames.2]
    | false =>
      obtain ⟨hpath, hsame, hname, harity, hspelling⟩ := member_eq_of_address_eq hkind haddress
      have hcontainer := container_eq_of_typePath_eq h hs ht hpath
      obtain ⟨c, hc⟩ := hs.exists_container hkind
      rw [b.key_of_member hkind hc, b.key_of_member (htype ▸ hkind) (hcontainer ▸ hc), hsame, hname,
        harity, signature_eq hc, signature_eq (hcontainer ▸ hc)]
      exact congrArg _ hspelling

/-- Symbols with one address have one number. -/
theorem IndexBuilder.Sound.eq_of_address_eq (h : b.Sound) {i j : Nat}
    (hs : b.symbols[i]? = some s) (ht : b.symbols[j]? = some t)
    (address : addressOf b.symbols s = addressOf b.symbols t) : i = j :=
  h.eq_of_key_eq hs ht
    ((key_eq_iff_address_eq h (h.placed.placed hs) (h.placed.placed ht)).2 address)

end Builder

end PartialDocs
