import PartialDocs.Proofs.Compilation.PieceRoles
import PartialDocs.Proofs.DocId.Members

/-!
# Declarations that share a key

A declaration whose key is taken is refused or joins the symbol that has the key.  The key
does not hold everything that a documentation ID shows: it leaves out the target of a
conversion, and it does not tell a parameter of no spelling from none at all.
`docId_of_grouped` states for every such declaration of every compilation exactly when its
own documentation ID is that of the symbol.
-/

set_option autoImplicit false

namespace PartialDocs

variable {symbols : List Symbol} {s t : Symbol}

/-- The dotted name of a type comes from its name, its arity and what is around it. -/
theorem dottedName_cons_congr (name : s.name = t.name) (arity : s.arity = t.arity)
    (nameSpace : s.nameSpace = t.nameSpace) (outer : List Symbol) :
    dottedName (s :: outer) = dottedName (t :: outer) := by
  have hnames : nameWithArity s = nameWithArity t := by
    unfold nameWithArity
    rw [name, arity]
  unfold dottedName
  cases outer with
  | nil => simp [hnames, nameSpace]
  | cons o os => simp [hnames]

/-- A documentation ID shows nothing of a type that its key does not hold. -/
theorem shownAlike_of_type (type : s.kind.isType = true) : ShownAlike symbols s t where
  target h := by simp [h, SymbolKind.isType] at type
  parameters h := by
    cases hkind : s.kind <;> simp [hkind, SymbolKind.isType, SymbolKind.showsParameters] at type h
  operator h := by simp [h, SymbolKind.isType] at type

/-- Symbols with one key have one documentation ID exactly when it shows them alike. -/
theorem placedDocId_eq_iff_of_key {b : IndexBuilder} (hs : Placed b.symbols s)
    (ht : Placed b.symbols t) (h : b.key s = b.key t) :
    placedDocId b.symbols s = placedDocId b.symbols t ↔ ShownAlike b.symbols s t := by
  obtain ⟨hcontainer, hnameSpace, hname, harity, htype, hmember⟩ := IndexBuilder.key_eq_key hs ht h
  have hchain : chainAround b.symbols s = chainAround b.symbols t := chainAround_congr hcontainer
  cases hkind : s.kind.isType with
  | true =>
    have heq : placedDocId b.symbols s = placedDocId b.symbols t := by
      unfold placedDocId
      rw [if_pos hkind, if_pos (htype ▸ hkind), hchain,
        dottedName_cons_congr hname harity hnameSpace]
    exact ⟨fun _ => shownAlike_of_type hkind, fun _ => heq⟩
  | false =>
    obtain ⟨hsame, hsignature⟩ := hmember hkind
    obtain ⟨c, hc⟩ := hs.exists_container hkind
    have hspelling : encodeParameters (contextOf b.symbols s) s.parameters =
        encodeParameters (contextOf b.symbols t) t.parameters := by
      rw [← signature_eq hc, ← signature_eq (hcontainer ▸ hc)]
      exact hsignature c hc
    rw [placedDocId_of_member hkind, placedDocId_of_member (htype ▸ hkind), hsame, hchain,
      List.append_cancel_left_eq, List.append_cancel_left_eq, List.cons_eq_cons]
    simp only [true_and]
    exact memberText_eq_iff hsame hname harity hspelling

namespace IndexBuilder

/-- The documentation ID that a symbol has when it gets a number of its own. -/
theorem docId_declare {b : IndexBuilder} (h : b.Sound) (hs : Placed b.symbols s) :
    (b.declare s).1.build.docId (b.declare s).2 = .ok (placedDocId b.symbols s) := by
  have hsymbols : (b.declare s).1.build.symbols = b.symbols ++ [s] := by
    rw [symbols_build]
    simp [declare, declareWith, symbols]
  have hplaced := wellPlaced_append_singleton h.placed hs
  have hnumber : (b.declare s).1.build.symbols[(b.declare s).2]? = some s := by
    rw [hsymbols]
    simp [declare, declareWith, ← length_symbols]
  rw [SymbolIndex.docId_eq_ok (hsymbols ▸ hplaced) hnumber, hsymbols,
    placedDocId_append hplaced h.placed.containersFirst hs]

/-- A declaration that founds no symbol meets one with its key. -/
theorem Sound.exists_symbol_of_grouped {b : IndexBuilder} (h : b.Sound) {p : Piece}
    (grouped : (b.add s p).2 = none ∨ ∃ id < b.entries.length, (b.add s p).2 = some id) :
    ∃ (id : Nat) (t : Symbol), b.find? (b.key s) = some id ∧
      ((b.add s p).2 = none ∨ (b.add s p).2 = some id) ∧ b.symbols[id]? = some t ∧
      b.key t = b.key s := by
  have hstep := add_step b s p
  generalize b.add s p = result at hstep grouped ⊢
  obtain ⟨b', r⟩ := result
  cases hstep with
  | founds free =>
    rcases grouped with hnone | ⟨id, hlt, hid⟩
    · simp at hnone
    · simp only [Option.some.injEq] at hid
      rw [← hid] at hlt
      exact absurd hlt (Nat.lt_irrefl _)
  | @joins id e taken entry takes =>
    obtain ⟨t, ht, hkey⟩ := (h.keyed _ id).1 taken
    exact ⟨id, t, taken, .inr rfl, ht, hkey⟩
  | @refuses id taken refused =>
    obtain ⟨t, ht, hkey⟩ := (h.keyed _ id).1 taken
    exact ⟨id, t, taken, .inl rfl, ht, hkey⟩

end IndexBuilder

namespace Compilation

/-- **A declaration of a compilation that is refused or joins a symbol would have the documentation
ID of that symbol exactly when the ID shows the two alike.** -/
theorem docId_of_grouped (files : List SourceFile) {before after : List (Symbol × Piece)}
    {s : Symbol} {p : Piece} (here : handed files = before ++ (s, p) :: after)
    (grouped : ((IndexBuilder.empty.addAll before).add s p).2 = none ∨
      ∃ id < (IndexBuilder.empty.addAll before).entries.length,
        ((IndexBuilder.empty.addAll before).add s p).2 = some id) :
    ∃ id t own docId,
      (IndexBuilder.empty.addAll before).find? ((IndexBuilder.empty.addAll before).key s) =
        some id ∧
      (((IndexBuilder.empty.addAll before).add s p).2 = none ∨
        ((IndexBuilder.empty.addAll before).add s p).2 = some id) ∧
      (ofFiles files).index.symbol id = .ok t ∧
      ((IndexBuilder.empty.addAll before).declare s).1.build.docId
        ((IndexBuilder.empty.addAll before).declare s).2 = .ok own ∧
      (ofFiles files).index.docId id = .ok docId ∧
      (own = docId ↔ ShownAlike (IndexBuilder.empty.addAll before).symbols s t) := by
  obtain ⟨hsound, hallowed⟩ := allowed_of_handed here
  have hfiles : (ofFiles files).index.symbols =
      ((IndexBuilder.empty.addAll before).addAll ((s, p) :: after)).symbols := by
    rw [← IndexBuilder.addAll_append, ← here, ← builderOf_eq_addAll, symbols_ofFiles]
  generalize IndexBuilder.empty.addAll before = b at hsound hallowed grouped hfiles ⊢
  obtain ⟨id, t, hfind, hanswer, ht, hkey⟩ := hsound.exists_symbol_of_grouped grouped
  obtain ⟨later, hlater⟩ := IndexBuilder.symbols_extend_addAll b ((s, p) :: after)
  rw [← hlater] at hfiles
  have hplaced : WellPlaced (b.symbols ++ later) := by
    rw [← hfiles]
    exact wellPlaced_ofFiles files
  have htPlaced := hsound.placed.placed ht
  have htFiles : (ofFiles files).index.symbols[id]? = some t := by
    rw [hfiles, List.getElem?_append_left (List.getElem?_eq_some_iff.1 ht).1, ht]
  have hdocId : (ofFiles files).index.docId id = .ok (placedDocId b.symbols t) := by
    rw [SymbolIndex.docId_eq_ok (hfiles ▸ hplaced) htFiles, hfiles,
      placedDocId_append hplaced hsound.placed.containersFirst htPlaced]
  exact ⟨id, t, _, _, hfind, hanswer, SymbolIndex.symbol_eq_ok_iff.2 htFiles,
    IndexBuilder.docId_declare hsound hallowed.placed, hdocId,
    placedDocId_eq_iff_of_key hallowed.placed htPlaced hkey.symm⟩

/-- What both parts hand over, up to the implementing piece of the method and after it. -/
theorem handed_bothParts : handed bothParts =
    [(sharedClass, firstPart), (sharedMethod, definingPiece), (sharedClass, secondPart)] ++
      (sharedMethod, implementingPiece) ::
        [(innerClass, innerClassPiece), (innerMethod, innerMethodPiece)] := by
  rw [handed, bothParts, List.zipIdx_cons, List.zipIdx_cons, List.zipIdx_nil, handedFrom,
    handedFrom, outline_definingPart, outline_implementingPart, IndexBuilder.enterFile,
    outline_definingPart]
  decide +kernel

/-- The implementing piece of a partial method joins the method, whose documentation ID it would
have by itself. -/
theorem docId_of_grouped_bothParts : ∃ before after s p,
    handed bothParts = before ++ (s, p) :: after ∧
      ((IndexBuilder.empty.addAll before).add s p).2 = some 1 ∧
      ∃ docId,
        ((IndexBuilder.empty.addAll before).declare s).1.build.docId
          ((IndexBuilder.empty.addAll before).declare s).2 = .ok docId ∧
        (ofFiles bothParts).index.docId 1 = .ok docId := by
  refine ⟨_, _, _, _, handed_bothParts, by decide +kernel, ?_⟩
  obtain ⟨id, t, own, docId, hfind, -, ht, hown, hdocId, hiff⟩ :=
    docId_of_grouped bothParts handed_bothParts (.inr ⟨1, by decide +kernel, by decide +kernel⟩)
  have hid : some id = some 1 := hfind.symm.trans (by decide +kernel)
  rw [Option.some.injEq] at hid
  subst hid
  rw [SymbolIndex.symbol_eq_ok_iff, symbols_bothParts] at ht
  obtain rfl : sharedMethod = t := Option.some.inj ht
  have hsame : own = docId := hiff.2 ⟨fun _ => rfl, fun _ => Iff.rfl, fun _ => rfl⟩
  exact ⟨docId, hsame ▸ hown, hdocId⟩

/-! ## Two conversions that differ in their targets -/

/-- A conversion of a class A that begins at a byte and has a target and a body of the given
lengths. -/
def conversionNode (start target body : Nat) : Tree :=
  let list := start + 32 + target
  let stop := list + 6 + body
  .named "conversion_operator_declaration" start (stop + 1) none
    [.named "modifier" start (start + 6) none [],
     .named "modifier" (start + 7) (start + 13) none [],
     .token "implicit" (start + 14) (start + 22), .token "operator" (start + 23) (start + 31),
     .named "predefined_type" (start + 32) list (some "type") [],
     .named "parameter_list" list (list + 5) (some "parameters")
      [.token "(" list (list + 1),
       .named "parameter" (list + 1) (list + 4) none
        [.named "identifier" (list + 1) (list + 2) (some "type") [],
         .named "identifier" (list + 3) (list + 4) (some "name") []],
       .token ")" (list + 4) (list + 5)],
     .named "arrow_expression_clause" (list + 6) stop (some "body") [],
     .token ";" stop (stop + 1)]

/-- A class that converts itself to an integer and to a string. -/
def twoConversions : SourceFile where
  path := "file0.cs".toList
  text := ("class A \x7b public static implicit operator int(A a) => 1; " ++
    "public static implicit operator string(A a) => \"\"; \x7d").toList
  tree :=
    .named "compilation_unit" 0 109 none
      [.named "class_declaration" 0 109 none
        [.token "class" 0 5, .named "identifier" 6 7 (some "name") [],
         .named "declaration_list" 8 109 (some "body")
          [.token "\x7b" 8 9, conversionNode 10 3 4, conversionNode 57 6 5,
           .token "\x7d" 108 109]]]

/-- The conversion to a type, in the class with the number zero. -/
def conversionTo (target : Text) : Symbol where
  name := "implicit".toList
  kind := .conversion
  container := some 0
  parameters := [⟨['A'], false⟩]
  returnType := some target

/-- The class and its conversions as they are outlined. -/
theorem outline_twoConversions : twoConversions.outline 0 =
    [.mk { name := ['A'], kind := .class } ⟨0, 0, 109, 0, 0, "class_declaration", .whole⟩
      [.mk { conversionTo "int".toList with container := none }
        ⟨0, 10, 56, 0, 10, "conversion_operator_declaration", .whole⟩ [],
       .mk { conversionTo "string".toList with container := none }
        ⟨0, 57, 107, 0, 57, "conversion_operator_declaration", .whole⟩ []]] := by
  decide +kernel

/-- The class and its conversions as they are handed on. -/
theorem handed_twoConversions : handed [twoConversions] =
    [({ name := ['A'], kind := .class }, ⟨0, 0, 109, 0, 0, "class_declaration", .whole⟩),
      (conversionTo "int".toList,
        ⟨0, 10, 56, 0, 10, "conversion_operator_declaration", .whole⟩)] ++
      (conversionTo "string".toList,
        ⟨0, 57, 107, 0, 57, "conversion_operator_declaration", .whole⟩) :: [] := by
  rw [handed, List.zipIdx_cons, handedFrom, outline_twoConversions]
  decide +kernel

/-- The conversion to a string is refused for the sake of the conversion to an integer, although its
documentation ID is another. -/
theorem conversion_refused : ∃ before after s p id own docId,
    handed [twoConversions] = before ++ (s, p) :: after ∧
      ((IndexBuilder.empty.addAll before).add s p).2 = none ∧
      (IndexBuilder.empty.addAll before).find? ((IndexBuilder.empty.addAll before).key s) =
        some id ∧
      ((IndexBuilder.empty.addAll before).declare s).1.build.docId
        ((IndexBuilder.empty.addAll before).declare s).2 = .ok own ∧
      (ofFiles [twoConversions]).index.docId id = .ok docId ∧
      own = "M:A.op_Implicit(A)~System.String".toList ∧
      docId = "M:A.op_Implicit(A)~System.Int32".toList ∧ own ≠ docId := by
  have hindex : (ofFiles [twoConversions]).index =
      (IndexBuilder.empty.addAll (handed [twoConversions])).build := by
    rw [← builderOf_eq_addAll]
    rfl
  refine ⟨_, _, _, _, 1, "M:A.op_Implicit(A)~System.String".toList,
    "M:A.op_Implicit(A)~System.Int32".toList, handed_twoConversions, by decide +kernel,
    by decide +kernel, by rfl, ?_, rfl, rfl, by decide⟩
  rw [hindex, handed_twoConversions]
  rfl

end Compilation

end PartialDocs
