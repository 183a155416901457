import PartialDocs.Proofs.Index.Answers
import PartialDocs.Proofs.Text.Cuts

/-!
# The dotted names of types

The dotted name of a type is spelled from its path: the namespace, and the name and arity
of every type from the outermost inward.  No two types of a sound builder have one path
(`Sound.eq_of_typePath_eq`).  Paths that differ may still be spelled alike, because a dot
may belong to the namespace or stand between two types; where the names of types are plain
this takes paths of different depth (`typePath_eq_of_dottedName_eq`).
-/

set_option autoImplicit false

namespace PartialDocs

/-- The namespace around nested types, given innermost first, and the name and arity of each. -/
def typePath (chain : List Symbol) : Option Text × List (Text × Nat) :=
  (chain.getLast?.bind Symbol.nameSpace, chain.map fun s => (s.name, s.arity))

/-- The name of a type as the grammar has it, an identifier: none of the characters that a
documentation ID puts between its parts. -/
def PlainTypeName (name : Text) : Prop := ∀ c ∈ ['.', '\x60', '(', '~'], c ∉ name

/-! ## One path for each type -/

section Chains

variable {symbols : List Symbol} {s t : Symbol}

/-- Nothing is around a symbol without a container. -/
theorem chainAround_of_top (hc : s.container = none) : chainAround symbols s = [] := by
  unfold chainAround
  rw [hc]

/-- The symbols around a placed symbol are its container and those around that. -/
theorem Placed.exists_outer (hs : Placed symbols s) (placed : WellPlaced symbols) {c : Nat}
    (hc : s.container = some c) : ∃ o, symbols[c]? = some o ∧ o.kind.isType = true ∧
      chainAround symbols s = o :: chainAround symbols o := by
  obtain ⟨o, ho, htype⟩ := hs.inType c hc
  refine ⟨o, ho, htype, ?_⟩
  rw [← chainOf_eq_cons_chainAround placed.containersFirst ho, chainAround, hc]

/-- The container of a symbol is a type, and around the symbol are the type and what is around it.
-/
theorem exists_outer (placed : WellPlaced symbols) {c i : Nat} (hs : symbols[i]? = some s)
    (hc : s.container = some c) : ∃ o, symbols[c]? = some o ∧ o.kind.isType = true ∧
      chainAround symbols s = o :: chainAround symbols o :=
  (placed.placed hs).exists_outer placed hc

/-- Symbols with one key have one number. -/
theorem IndexBuilder.Sound.eq_of_key_eq {b : IndexBuilder} (h : b.Sound) {i j : Nat}
    (hs : b.symbols[i]? = some s) (ht : b.symbols[j]? = some t) (key : b.key s = b.key t) :
    i = j := by
  have hi : b.find? (b.key s) = some i := (h.keyed _ i).2 ⟨s, hs, rfl⟩
  have hj : b.find? (b.key s) = some j := (h.keyed _ j).2 ⟨t, ht, key.symm⟩
  exact Option.some.inj (hi.symm.trans hj)

/-- **Types with one path have one number.**  The induction goes outward along the containers. -/
theorem IndexBuilder.Sound.eq_of_typePath_eq {b : IndexBuilder} (h : b.Sound) {i j : Nat}
    {s t : Symbol} (hs : b.symbols[i]? = some s) (ht : b.symbols[j]? = some t)
    (type : s.kind.isType = true) (type' : t.kind.isType = true)
    (path : typePath (s :: chainAround b.symbols s) = typePath (t :: chainAround b.symbols t)) :
    i = j := by
  induction i using Nat.strongRecOn generalizing j s t with
  | _ i ih =>
    have hnames := congrArg Prod.snd path
    simp only [typePath, List.map_cons, List.cons.injEq, Prod.mk.injEq] at hnames
    obtain ⟨⟨hname, harity⟩, houter⟩ := hnames
    refine h.eq_of_key_eq hs ht ?_
    rw [b.key_of_type type, b.key_of_type type', hname, harity]
    -- paths of one length end at types that are both contained or both not
    cases hc : s.container with
    | none =>
      rw [chainAround_of_top hc] at houter path
      cases hd : t.container with
      | none =>
        rw [chainAround_of_top hd] at path
        have hnameSpace : s.nameSpace = t.nameSpace := by
          simpa [typePath] using congrArg Prod.fst path
        rw [hnameSpace]
      | some d =>
        obtain ⟨q, -, -, hchain⟩ := exists_outer h.placed ht hd
        simp [hchain] at houter
    | some c =>
      obtain ⟨o, ho, htype, hchain⟩ := exists_outer h.placed hs hc
      cases hd : t.container with
      | none =>
        rw [chainAround_of_top hd, hchain] at houter
        simp at houter
      | some d =>
        obtain ⟨q, hq, htype', hchain'⟩ := exists_outer h.placed ht hd
        have hpath : typePath (o :: chainAround b.symbols o) =
            typePath (q :: chainAround b.symbols q) := by
          rw [← hchain, ← hchain']
          refine Prod.ext ?_ houter
          have hnameSpace := congrArg Prod.fst path
          rwa [hchain, hchain'] at hnameSpace ⊢
        have hlt := h.placed.containersFirst i c s hs hc
        rw [ih c hlt ho hq htype htype' hpath, (h.placed.placed hs).nameSpace c hc,
          (h.placed.placed ht).nameSpace d hd]

end Chains

/-! ## Reading a path off a dotted name -/

section Spelling

variable {s t : Symbol} {chain other : List Symbol}

/-- A name with its arity has the characters of the name, digits and backticks. -/
theorem not_mem_nameWithArity {c : Char} (name : c ∉ s.name) (mark : c ≠ '\x60')
    (digit : c.isDigit = false) : c ∉ nameWithArity s := by
  unfold nameWithArity
  split
  · rw [List.mem_append, List.mem_cons]
    rintro (h | h | h)
    · exact name h
    · exact mark h
    · simp [Text.isDigit_of_mem_ofNat h] at digit
  · exact name

/-- The name and the arity can be read off where the name has no backtick. -/
theorem nameWithArity_inj (hs : '\x60' ∉ s.name) (ht : '\x60' ∉ t.name)
    (h : nameWithArity s = nameWithArity t) : s.name = t.name ∧ s.arity = t.arity := by
  unfold nameWithArity at h
  by_cases hpos : s.arity > 0
  · by_cases hpos' : t.arity > 0
    · rw [if_pos hpos, if_pos hpos'] at h
      obtain ⟨hname, hdigits⟩ := Text.append_cons_inj hs ht h
      exact ⟨hname, Text.ofNat_inj hdigits⟩
    · rw [if_pos hpos, if_neg hpos'] at h
      rw [← h] at ht
      simp at ht
  · by_cases hpos' : t.arity > 0
    · rw [if_neg hpos, if_pos hpos'] at h
      rw [h] at hs
      simp at hs
    · rw [if_neg hpos, if_neg hpos'] at h
      exact ⟨h, by omega⟩

/-- The pieces of a namespace. -/
def nameSpacePieces : Option Text → List Text
  | none => []
  | some nameSpace => Text.splitOn '.' nameSpace

/-- Namespaces can be told from their pieces. -/
theorem nameSpacePieces_inj {m n : Option Text} (h : nameSpacePieces m = nameSpacePieces n) :
    m = n := by
  match m, n with
  | none, none => rfl
  | none, some n => exact absurd h.symm (Text.splitOn_ne_nil '.' n)
  | some m, none => exact absurd h (Text.splitOn_ne_nil '.' m)
  | some m, some n =>
    have hjoined : Text.joinWith ['.'] (Text.splitOn '.' m) =
        Text.joinWith ['.'] (Text.splitOn '.' n) := congrArg _ h
    rw [Text.joinWith_splitOn, Text.joinWith_splitOn] at hjoined
    rw [hjoined]

/-- Splitting a dotted name at its dots gives the pieces of the namespace and the names of the
types. -/
theorem splitOn_dottedName (plain : ∀ s ∈ chain, PlainTypeName s.name) (ne : chain ≠ []) :
    Text.splitOn '.' (dottedName chain) =
      nameSpacePieces (typePath chain).1 ++ (chain.map nameWithArity).reverse := by
  have hnames : ∀ x ∈ (chain.map nameWithArity).reverse, '.' ∉ x := by
    intro x hx
    rw [List.mem_reverse, List.mem_map] at hx
    obtain ⟨s, hs, rfl⟩ := hx
    exact not_mem_nameWithArity (plain s hs '.' (by simp)) (by decide) (by decide)
  have hne : (chain.map nameWithArity).reverse ≠ [] := by simpa using ne
  unfold dottedName typePath
  cases chain.getLast?.bind Symbol.nameSpace with
  | none =>
    simp only
    rw [Text.splitOn_joinWith '.' hne, Text.flatMap_splitOn_of_not_mem hnames]
    rfl
  | some n =>
    simp only
    rw [Text.splitOn_joinWith '.' (by simp), List.flatMap_cons,
      Text.flatMap_splitOn_of_not_mem hnames]
    rfl

/-- The names and arities of plain types can be read off one by one. -/
theorem names_eq_of_map_nameWithArity (plain : ∀ s ∈ chain, PlainTypeName s.name)
    (plain' : ∀ s ∈ other, PlainTypeName s.name)
    (h : chain.map nameWithArity = other.map nameWithArity) :
    (chain.map fun s => (s.name, s.arity)) = other.map fun s => (s.name, s.arity) := by
  induction chain generalizing other with
  | nil =>
    have hnil : other = [] := by simpa using h.symm
    rw [hnil]
  | cons s chain ih =>
    cases other with
    | nil => simp at h
    | cons t other =>
      rw [List.map_cons, List.map_cons, List.cons.injEq] at h
      obtain ⟨hname, harity⟩ := nameWithArity_inj (plain s List.mem_cons_self '\x60' (by simp))
        (plain' t List.mem_cons_self '\x60' (by simp)) h.1
      rw [List.map_cons, List.map_cons, hname, harity,
        ih (fun u hu => plain u (List.mem_cons_of_mem _ hu))
          (fun u hu => plain' u (List.mem_cons_of_mem _ hu)) h.2]

/-- **Plain paths of one depth that are spelled alike are one path.** -/
theorem typePath_eq_of_dottedName_eq (plain : ∀ s ∈ chain, PlainTypeName s.name)
    (plain' : ∀ s ∈ other, PlainTypeName s.name) (ne : chain ≠ [])
    (depth : chain.length = other.length) (h : dottedName chain = dottedName other) :
    typePath chain = typePath other := by
  have ne' : other ≠ [] := by
    rintro rfl
    exact ne (List.length_eq_zero_iff.1 depth)
  have hsplit := congrArg (Text.splitOn '.') h
  rw [splitOn_dottedName plain ne, splitOn_dottedName plain' ne'] at hsplit
  obtain ⟨hpieces, hnames⟩ := List.append_inj' hsplit (by simp [depth])
  rw [List.reverse_inj] at hnames
  exact Prod.ext (nameSpacePieces_inj hpieces) (names_eq_of_map_nameWithArity plain plain' hnames)

end Spelling

end PartialDocs
