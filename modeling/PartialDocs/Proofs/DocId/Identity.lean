import PartialDocs.Proofs.DocId.ProperNames
import PartialDocs.Proofs.Resolution.Emission

/-!
# What a documentation ID identifies

In a compilation the documentation ID of a symbol is its own up to clashes.  A search for
an ID finds the first symbol that has it, and a documentation file names two members alike
only where their symbols clash.  The builder keeps clashing symbols apart, since a
documentation ID is a spelling and takes no part in grouping.
-/

set_option autoImplicit false

namespace PartialDocs.Compilation

/-- Whether documentation IDs identify the symbols of a compilation. -/
structure Identified (c : Compilation) : Prop where
  /-- Different symbols have different documentation IDs. -/
  docId : ∀ i j, i < c.index.size → j < c.index.size → c.index.docId i = c.index.docId j → i = j
  /-- A search for the ID of a symbol finds this symbol. -/
  find : ∀ i, i < c.index.size →
    ∃ docId, c.index.docId i = .ok docId ∧ c.findByDocId? docId = some i
  /-- A documentation file has no two members of one name. -/
  file : ∀ policy assembly, ∃ emitted : List Emitted,
    c.docFile policy assembly =
      .ok ⟨assembly, emitted.length, Xml.file assembly (emitted.map Emitted.element)⟩ ∧
    (emitted.map Emitted.docId).Nodup

/-- How far the documentation IDs of a compilation tell its symbols apart. -/
structure IdentifiedUpToClash (c : Compilation) : Prop where
  /-- Two symbols have one documentation ID exactly when they are the same or clash. -/
  docId : ∀ (i j : Nat) (s t : Symbol), c.index.symbol i = .ok s → c.index.symbol j = .ok t →
    (c.index.docId i = c.index.docId j ↔ i = j ∨ Clash c.index.symbols s t)
  /-- With proper names, two symbols have one ID exactly when they are the same or confused. -/
  proper : ProperNames c.index.symbols → ∀ (i j : Nat) (s t : Symbol),
    c.index.symbol i = .ok s → c.index.symbol j = .ok t →
      (c.index.docId i = c.index.docId j ↔ i = j ∨ Confused c.index.symbols s t)
  /-- Documentation IDs identify the symbols where no two of them clash. -/
  identified : Identified c ↔ ∀ (i j : Nat) (s t : Symbol), c.index.symbol i = .ok s →
    c.index.symbol j = .ok t → i ≠ j → ¬ Clash c.index.symbols s t
  /-- With proper names they do so where no two symbols are confused. -/
  properly : ProperNames c.index.symbols → (Identified c ↔ ∀ (i j : Nat) (s t : Symbol),
    c.index.symbol i = .ok s → c.index.symbol j = .ok t → i ≠ j →
      ¬ Confused c.index.symbols s t)
  /-- A search for the ID of a symbol finds this symbol or an earlier one that clashes with it. -/
  find : ∀ (i : Nat) (s : Symbol), c.index.symbol i = .ok s →
    ∃ (docId : Text) (first : Nat) (t : Symbol), c.index.docId i = .ok docId ∧
      c.findByDocId? docId = some first ∧ first ≤ i ∧ c.index.symbol first = .ok t ∧
      (first = i ∨ Clash c.index.symbols t s)
  /-- A documentation file holds members of different symbols, two of which have one name only where
  their symbols clash. -/
  file : ∀ policy assembly, ∃ emitted : List Emitted,
    c.docFile policy assembly =
      .ok ⟨assembly, emitted.length, Xml.file assembly (emitted.map Emitted.element)⟩ ∧
    (∀ e ∈ emitted, c.index.docId e.id = .ok e.docId) ∧
    emitted.Pairwise fun d e => d.id < e.id ∧ (d.docId = e.docId →
      ∃ s t, c.index.symbol d.id = .ok s ∧ c.index.symbol e.id = .ok t ∧
        Clash c.index.symbols s t)

/-! ## Documentation IDs of a compilation -/

variable {files : List SourceFile}

/-- The documentation ID of a symbol. -/
theorem docId_ofFiles {id : Nat} {s : Symbol} (hs : (ofFiles files).index.symbol id = .ok s) :
    (ofFiles files).index.docId id = .ok (placedDocId (ofFiles files).index.symbols s) :=
  SymbolIndex.docId_eq_ok (wellPlaced_ofFiles files) (SymbolIndex.symbol_eq_ok_iff.1 hs)

/-- There is a symbol for every number below the size. -/
theorem exists_symbol (files : List SourceFile) {id : Nat} (hid : id < (ofFiles files).index.size) :
    ∃ s, (ofFiles files).index.symbol id = .ok s := by
  obtain ⟨e, -, hs⟩ := exists_entry files hid
  exact ⟨e.symbol, SymbolIndex.symbol_eq_ok_iff.2 hs⟩

/-- The number of a symbol is below the size. -/
theorem lt_size_of_symbol {id : Nat} {s : Symbol} (hs : (ofFiles files).index.symbol id = .ok s) :
    id < (ofFiles files).index.size := by
  rw [SymbolIndex.symbol_eq_ok_iff] at hs
  rw [SymbolIndex.size_eq]
  exact (List.getElem?_eq_some_iff.1 hs).1

/-- Symbols of a compilation have one documentation ID exactly when they are the same or clash. -/
theorem docId_eq_iff {i j : Nat} {s t : Symbol} (hs : (ofFiles files).index.symbol i = .ok s)
    (ht : (ofFiles files).index.symbol j = .ok t) :
    (ofFiles files).index.docId i = (ofFiles files).index.docId j ↔
      i = j ∨ Clash (ofFiles files).index.symbols s t := by
  rw [docId_ofFiles hs, docId_ofFiles ht, Except.ok.injEq]
  rw [SymbolIndex.symbol_eq_ok_iff, symbols_ofFiles] at hs ht
  rw [symbols_ofFiles]
  exact placedDocId_eq_iff (sound_builderOf files) hs ht

/-- With proper names they do exactly when they are the same or confused. -/
theorem docId_eq_iff_of_proper (proper : ProperNames (ofFiles files).index.symbols) {i j : Nat}
    {s t : Symbol} (hs : (ofFiles files).index.symbol i = .ok s)
    (ht : (ofFiles files).index.symbol j = .ok t) :
    (ofFiles files).index.docId i = (ofFiles files).index.docId j ↔
      i = j ∨ Confused (ofFiles files).index.symbols s t := by
  rw [docId_ofFiles hs, docId_ofFiles ht, Except.ok.injEq]
  rw [SymbolIndex.symbol_eq_ok_iff, symbols_ofFiles] at hs ht
  rw [symbols_ofFiles] at proper ⊢
  exact placedDocId_eq_iff_of_proper (sound_builderOf files) proper hs ht

/-! ## The search for an ID -/

/-- The search for a documentation ID finds the first symbol that has it. -/
theorem exists_findByDocId? {c : Compilation} {id : Nat} {docId : Text} (hid : id < c.index.size)
    (h : c.index.docId id = .ok docId) :
    ∃ first : Nat, c.findByDocId? docId = some first ∧ first ≤ id ∧
      c.index.docId first = .ok docId := by
  have hsome : (c.findByDocId? docId).isSome := by
    unfold findByDocId?
    rw [List.find?_isSome]
    exact ⟨id, List.mem_range.2 hid, by simp [h]⟩
  obtain ⟨first, hfirst⟩ := Option.isSome_iff_exists.1 hsome
  have hrange := hfirst
  unfold findByDocId? SymbolIndex.ids at hrange
  obtain ⟨hfound, -, hleast⟩ := List.find?_range_eq_some.1 hrange
  refine ⟨first, hfirst, ?_, ?_⟩
  · refine Nat.le_of_not_lt fun hlt => ?_
    have hnot := hleast id hlt
    simp [h] at hnot
  · cases hd : c.index.docId first with
    | error e => simp [hd] at hfound
    | ok d =>
      rw [hd] at hfound
      rw [show d = docId from beq_iff_eq.1 hfound]

/-! ## The members of a documentation file -/

/-- A documentation file is always written, and its members are those of different symbols. -/
theorem exists_emitted (files : List SourceFile) (policy : UnimplementedPolicy) (assembly : Text) :
    ∃ emitted : List Emitted,
      (ofFiles files).docFile policy assembly =
        .ok ⟨assembly, emitted.length, Xml.file assembly (emitted.map Emitted.element)⟩ ∧
      (∀ e ∈ emitted, (ofFiles files).index.docId e.id = .ok e.docId) ∧
      (∀ e ∈ emitted, e.id < (ofFiles files).index.size) ∧
      emitted.Pairwise fun d e => d.id < e.id := by
  obtain ⟨emitted, hfile, hids, hspeaks⟩ := exists_documented files policy assembly
  have hsublist : (emitted.map Emitted.id).Sublist (ofFiles files).index.ids := by
    rw [hids]
    exact List.filter_sublist
  refine ⟨emitted, hfile, fun e he => (hspeaks e he).docId, ?_, ?_⟩
  · intro e he
    exact List.mem_range.1 (hsublist.subset (List.mem_map_of_mem he))
  · exact List.pairwise_map.1 (List.Pairwise.sublist hsublist List.pairwise_lt_range)

/-! ## The law -/

/-- Documentation IDs identify the symbols of a compilation as soon as they differ. -/
theorem identified_of_docId (h : ∀ i j, i < (ofFiles files).index.size →
    j < (ofFiles files).index.size →
    (ofFiles files).index.docId i = (ofFiles files).index.docId j → i = j) :
    Identified (ofFiles files) where
  docId := h
  find i hi := by
    obtain ⟨s, hs⟩ := exists_symbol files hi
    have hdocId := docId_ofFiles hs
    obtain ⟨first, hfind, hle, hfirst⟩ := exists_findByDocId? hi hdocId
    obtain rfl : first = i :=
      h first i (Nat.lt_of_le_of_lt hle hi) hi (hfirst.trans hdocId.symm)
    exact ⟨_, hdocId, hfind⟩
  file policy assembly := by
    obtain ⟨emitted, hfile, hdocIds, hlt, hsorted⟩ := exists_emitted files policy assembly
    refine ⟨emitted, hfile, List.pairwise_map.2 (hsorted.imp_of_mem ?_)⟩
    intro d e hd he hde hsame
    have hid : d.id = e.id :=
      h d.id e.id (hlt d hd) (hlt e he) (by rw [hdocIds d hd, hdocIds e he, hsame])
    omega

/-- Where a relation says which symbols have one documentation ID, they are identified exactly when
it holds of no two of them. -/
theorem identified_iff {r : Symbol → Symbol → Prop}
    (h : ∀ (i j : Nat) (s t : Symbol), (ofFiles files).index.symbol i = .ok s →
      (ofFiles files).index.symbol j = .ok t →
      ((ofFiles files).index.docId i = (ofFiles files).index.docId j ↔ i = j ∨ r s t)) :
    Identified (ofFiles files) ↔ ∀ (i j : Nat) (s t : Symbol),
      (ofFiles files).index.symbol i = .ok s → (ofFiles files).index.symbol j = .ok t → i ≠ j →
        ¬ r s t := by
  constructor
  · intro hidentified i j s t hs ht hij hr
    exact hij (hidentified.docId i j (lt_size_of_symbol hs) (lt_size_of_symbol ht)
      ((h i j s t hs ht).2 (.inr hr)))
  · intro hnone
    refine identified_of_docId ?_
    intro i j hi hj hdocId
    obtain ⟨s, hs⟩ := exists_symbol files hi
    obtain ⟨t, ht⟩ := exists_symbol files hj
    by_contra hij
    rcases (h i j s t hs ht).1 hdocId with hsame | hr
    · exact hij hsame
    · exact hnone i j s t hs ht hij hr

/-- **In every compilation documentation IDs tell symbols apart up to clashes**, and with proper
names up to the few that are confused. -/
theorem identified_upToClash (files : List SourceFile) : IdentifiedUpToClash (ofFiles files) where
  docId i j s t hs ht := docId_eq_iff hs ht
  proper proper i j s t hs ht := docId_eq_iff_of_proper proper hs ht
  identified := identified_iff fun _ _ _ _ hs ht => docId_eq_iff hs ht
  properly proper := identified_iff fun _ _ _ _ hs ht => docId_eq_iff_of_proper proper hs ht
  find i s hs := by
    have hid := lt_size_of_symbol hs
    have hdocId := docId_ofFiles hs
    obtain ⟨first, hfind, hle, hfirst⟩ := exists_findByDocId? hid hdocId
    obtain ⟨t, ht⟩ := exists_symbol files (Nat.lt_of_le_of_lt hle hid)
    exact ⟨_, first, t, hdocId, hfind, hle, ht,
      (docId_eq_iff ht hs).1 (hfirst.trans hdocId.symm)⟩
  file policy assembly := by
    obtain ⟨emitted, hfile, hdocIds, hlt, hsorted⟩ := exists_emitted files policy assembly
    refine ⟨emitted, hfile, hdocIds, hsorted.imp_of_mem ?_⟩
    intro d e hd he hde
    refine ⟨hde, ?_⟩
    intro hsame
    obtain ⟨s, hs⟩ := exists_symbol files (hlt d hd)
    obtain ⟨t, ht⟩ := exists_symbol files (hlt e he)
    have heq : (ofFiles files).index.docId d.id = (ofFiles files).index.docId e.id := by
      rw [hdocIds d hd, hdocIds e he, hsame]
    rcases (docId_eq_iff hs ht).1 heq with hid | hclash
    · exact absurd hid (Nat.ne_of_lt hde)
    · exact ⟨s, t, hs, ht, hclash⟩

/-! ## A destructor beside a method Finalize -/

/-- A class with a destructor and with a method that has the metadata name of destructors. -/
def twoFinalizers : SourceFile where
  path := "file0.cs".toList
  text := "class C \x7b ~C() \x7b \x7d void Finalize() \x7b \x7d \x7d".toList
  tree :=
    .named "compilation_unit" 0 40 none
      [.named "class_declaration" 0 40 none
        [.token "class" 0 5, .named "identifier" 6 7 (some "name") [],
         .named "declaration_list" 8 40 (some "body")
          [.token "\x7b" 8 9,
           .named "destructor_declaration" 10 18 none
            [.token "~" 10 11, .named "identifier" 11 12 (some "name") [],
             .named "parameter_list" 12 14 (some "parameters")
              [.token "(" 12 13, .token ")" 13 14],
             .named "block" 15 18 (some "body") []],
           .named "method_declaration" 19 38 none
            [.named "predefined_type" 19 23 (some "returns") [],
             .named "identifier" 24 32 (some "name") [],
             .named "parameter_list" 32 34 (some "parameters")
              [.token "(" 32 33, .token ")" 33 34],
             .named "block" 35 38 (some "body") []],
           .token "\x7d" 39 40]]]

/-- The class and its finalizers as they are outlined. -/
theorem outline_twoFinalizers : twoFinalizers.outline 0 =
    [.mk { name := ['C'], kind := .class } ⟨0, 0, 40, 0, 0, "class_declaration", .whole⟩
      [.mk { name := ['C'], kind := .destructor }
        ⟨0, 10, 18, 0, 10, "destructor_declaration", .whole⟩ [],
       .mk { name := "Finalize".toList, kind := .method }
        ⟨0, 19, 38, 0, 19, "method_declaration", .whole⟩ []]] := by
  decide +kernel

/-- The class and its finalizers as they are handed on. -/
theorem handed_twoFinalizers : handed [twoFinalizers] =
    [({ name := ['C'], kind := .class }, ⟨0, 0, 40, 0, 0, "class_declaration", .whole⟩),
      ({ name := ['C'], kind := .destructor, container := some 0 },
        ⟨0, 10, 18, 0, 10, "destructor_declaration", .whole⟩),
      ({ name := "Finalize".toList, kind := .method, container := some 0 },
        ⟨0, 19, 38, 0, 19, "method_declaration", .whole⟩)] := by
  rw [handed, List.zipIdx_cons, handedFrom, outline_twoFinalizers]
  decide +kernel

/-! ## A type in a type beside one in a namespace -/

/-- A class in a namespace of two names, and a class in a class in a namespace, by the same three
names. -/
def spelledTwice : SourceFile where
  path := "file0.cs".toList
  text := ("namespace A.B \x7b class C \x7b \x7d \x7d " ++
    "namespace A \x7b class B \x7b class C \x7b \x7d \x7d \x7d").toList
  tree :=
    .named "compilation_unit" 0 69 none
      [.named "namespace_declaration" 0 29 none
        [.token "namespace" 0 9, .named "qualified_name" 10 13 (some "name") [],
         .named "declaration_list" 14 29 (some "body")
          [.token "\x7b" 14 15,
           .named "class_declaration" 16 27 none
            [.token "class" 16 21, .named "identifier" 22 23 (some "name") [],
             .named "declaration_list" 24 27 (some "body")
              [.token "\x7b" 24 25, .token "\x7d" 26 27]],
           .token "\x7d" 28 29]],
       .named "namespace_declaration" 30 69 none
        [.token "namespace" 30 39, .named "identifier" 40 41 (some "name") [],
         .named "declaration_list" 42 69 (some "body")
          [.token "\x7b" 42 43,
           .named "class_declaration" 44 67 none
            [.token "class" 44 49, .named "identifier" 50 51 (some "name") [],
             .named "declaration_list" 52 67 (some "body")
              [.token "\x7b" 52 53,
               .named "class_declaration" 54 65 none
                [.token "class" 54 59, .named "identifier" 60 61 (some "name") [],
                 .named "declaration_list" 62 65 (some "body")
                  [.token "\x7b" 62 63, .token "\x7d" 64 65]],
               .token "\x7d" 66 67]],
           .token "\x7d" 68 69]]]

/-- The classes as they are outlined. -/
theorem outline_spelledTwice : spelledTwice.outline 0 =
    [.mk { name := ['C'], kind := .class, nameSpace := some "A.B".toList }
        ⟨0, 16, 27, 0, 16, "class_declaration", .whole⟩ [],
     .mk { name := ['B'], kind := .class, nameSpace := some ['A'] }
        ⟨0, 44, 67, 0, 44, "class_declaration", .whole⟩
      [.mk { name := ['C'], kind := .class }
        ⟨0, 54, 65, 0, 54, "class_declaration", .whole⟩ []]] := by
  decide +kernel

/-- The classes as they are handed on. -/
theorem handed_spelledTwice : handed [spelledTwice] =
    [({ name := ['C'], kind := .class, nameSpace := some "A.B".toList },
        ⟨0, 16, 27, 0, 16, "class_declaration", .whole⟩),
      ({ name := ['B'], kind := .class, nameSpace := some ['A'] },
        ⟨0, 44, 67, 0, 44, "class_declaration", .whole⟩),
      ({ name := ['C'], kind := .class, container := some 1 },
        ⟨0, 54, 65, 0, 54, "class_declaration", .whole⟩)] := by
  rw [handed, List.zipIdx_cons, handedFrom, outline_spelledTwice]
  decide +kernel

/-! ## The same documentation ID twice -/

/-- The destructor and the method have one documentation ID, by which only the destructor is found,
and so have the class in a class and the one in a namespace. -/
theorem finalizers_share_docId :
    ((ofFiles [twoFinalizers]).index.docId 1 = .ok "M:C.Finalize".toList ∧
      (ofFiles [twoFinalizers]).index.docId 2 = .ok "M:C.Finalize".toList ∧
      (ofFiles [twoFinalizers]).findByDocId? "M:C.Finalize".toList = some 1) ∧
    (ofFiles [spelledTwice]).index.docId 0 = .ok "T:A.B.C".toList ∧
      (ofFiles [spelledTwice]).index.docId 2 = .ok "T:A.B.C".toList ∧
      (ofFiles [spelledTwice]).findByDocId? "T:A.B.C".toList = some 0 := by
  have hindex : ∀ f : SourceFile, ofFiles [f] =
      ⟨[f], (IndexBuilder.empty.addAll (handed [f])).build⟩ := by
    intro f
    rw [← builderOf_eq_addAll]
    rfl
  rw [hindex twoFinalizers, handed_twoFinalizers, hindex spelledTwice, handed_spelledTwice]
  exact ⟨⟨rfl, rfl, rfl⟩, rfl, rfl, rfl⟩

end PartialDocs.Compilation
