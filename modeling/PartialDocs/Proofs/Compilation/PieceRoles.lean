import PartialDocs.Proofs.Compilation.Handover
import PartialDocs.Proofs.Index.Answers

/-!
# The roles of the pieces of a symbol

For every list of source files, whatever the shape of their trees, the index of the
compilation answers pieces whose roles match the symbol: one whole, or parts, or at most
one piece without and at most one with a body.  This is the invariant of the builder
(`IndexBuilder.Sound`) carried through the final sorting of pieces.
-/

set_option autoImplicit false

namespace PartialDocs

/-- Which roles the pieces of a symbol have. -/
structure PiecesByKind (s : Symbol) (pieces : List Piece) : Prop where
  /-- A symbol that is not partial has exactly one piece, which is the whole of it. -/
  notPartial : s.isPartial = false → ∃ p, pieces = [p] ∧ p.role = .whole
  /-- A partial type has at least one piece, and all its pieces are parts. -/
  partialType : s.isPartial = true → s.kind.isType = true →
    pieces ≠ [] ∧ ∀ p ∈ pieces, p.role = .part
  /-- A partial method has at least one piece, at most one without and at most one with a body, and
  no other. -/
  partialMethod : s.isPartial = true → s.kind = .method →
    pieces ≠ [] ∧ pieces.countP (fun p => p.role == .defining) ≤ 1 ∧
      pieces.countP (fun p => p.role == .implementing) ≤ 1 ∧
      ∀ p ∈ pieces, p.role = .defining ∨ p.role = .implementing
  /-- Nothing but types and methods is partial. -/
  kinds : s.isPartial = true → s.kind.isType = true ∨ s.kind = .method

/-- Pieces that fit a symbol are as its kind demands. -/
theorem PiecesFit.byKind {s : Symbol} {pieces : List Piece} (h : PiecesFit s pieces) :
    PiecesByKind s pieces where
  notPartial := h.exists_whole
  partialType hs type := ⟨h.nonempty, fun p hp => (h.fits p hp).eq_part hs type⟩
  partialMethod hs kind := by
    have hmethod : s.isPartialMethod = true := isPartialMethod_iff.2 ⟨kind, hs⟩
    exact ⟨h.nonempty, h.defining, h.implementing,
      fun p hp => (h.fits p hp).eq_defining_or_implementing hmethod⟩
  kinds hs := by
    obtain ⟨p, hp⟩ := List.exists_mem_of_ne_nil pieces h.nonempty
    exact (h.fits p hp).kind_of_isPartial hs

namespace Compilation

/-- The symbols of a compilation are those of its builder. -/
theorem symbols_ofFiles (files : List SourceFile) :
    (ofFiles files).index.symbols = (builderOf files).symbols := IndexBuilder.symbols_build _

/-- The symbols of files are well placed. -/
theorem wellPlaced_ofFiles (files : List SourceFile) :
    WellPlaced (ofFiles files).index.symbols := by
  rw [symbols_ofFiles]
  exact (sound_builderOf files).placed

/-- The symbol with a number in the index of a compilation, with its entry in the builder. -/
theorem exists_entry (files : List SourceFile) {id : Nat}
    (hid : id < (ofFiles files).index.size) :
    ∃ e, (builderOf files).entries[id]? = some e ∧
      (ofFiles files).index.symbols[id]? = some e.symbol := by
  rw [SymbolIndex.size_eq, symbols_ofFiles, IndexBuilder.length_symbols] at hid
  refine ⟨(builderOf files).entries[id], List.getElem?_eq_getElem hid, ?_⟩
  rw [symbols_ofFiles, IndexBuilder.symbols_getElem?, List.getElem?_eq_getElem hid]
  rfl

/-- A symbol with one piece has it as its answer. -/
theorem pieces_of_singleton {files : List SourceFile} {id : Nat} {s : Symbol} {p : Piece}
    (h : (builderOf files).entries[id]? = some ⟨s, [p]⟩) :
    (ofFiles files).index.pieces id = .ok [p] := by
  have hsorted := IndexBuilder.pieces_build_eq_ok h (List.cons_ne_nil _ _)
  rw [List.mergeSort_singleton] at hsorted
  exact hsorted

/-- **In every compilation the pieces of every symbol have the roles that its kind allows.** -/
theorem pieces_by_kind (files : List SourceFile) (id : Nat)
    (hid : id < (ofFiles files).index.size) :
    ∃ s pieces, (ofFiles files).index.symbol id = .ok s ∧
      (ofFiles files).index.pieces id = .ok pieces ∧ PiecesByKind s pieces := by
  obtain ⟨e, he, hs⟩ := exists_entry files hid
  obtain ⟨ps, hps, -, hfit, -⟩ := (sound_builderOf files).pieces_build he
  exact ⟨e.symbol, ps, SymbolIndex.symbol_eq_ok_iff.2 hs, hps, hfit.byKind⟩

/-! ## A generic class in two files -/

/-- A documented part of a generic class that declares a partial method and documents it. -/
def definingPart : SourceFile where
  path := "A.cs".toList
  text := "/// First.\npartial class C<T> \x7b\n  /// One.\n  partial void M(T x);\n\x7d".toList
  tree :=
    .named "compilation_unit" 0 67 none
     [.named "comment" 0 10 none [],
      .named "class_declaration" 11 67 none
       [.named "modifier" 11 18 none [], .token "class" 19 24,
        .named "identifier" 25 26 (some "name") [],
        .named "type_parameter_list" 26 29 none
         [.token "<" 26 27,
          .named "type_parameter" 27 28 none [.named "identifier" 27 28 (some "name") []],
          .token ">" 28 29],
        .named "declaration_list" 30 67 (some "body")
         [.token "\x7b" 30 31, .named "comment" 34 42 none [],
          .named "method_declaration" 45 65 none
           [.named "modifier" 45 52 none [], .named "predefined_type" 53 57 (some "returns") [],
            .named "identifier" 58 59 (some "name") [],
            .named "parameter_list" 59 64 (some "parameters")
             [.token "(" 59 60,
              .named "parameter" 60 63 none
               [.named "identifier" 60 61 (some "type") [],
                .named "identifier" 62 63 (some "name") []],
              .token ")" 63 64],
            .token ";" 64 65],
          .token "\x7d" 66 67]]]

/-- A documented part of the same class that implements the method without a comment, and holds
another generic class. -/
def implementingPart : SourceFile where
  path := "B.cs".toList
  text :=
    ("/// Second.\npartial class C<T> \x7b\n  partial void M(T x) \x7b \x7d\n" ++
      "  class D<U> \x7b\n    /// Both.\n    void N(T x, U y) \x7b \x7d\n  \x7d\n\x7d").toList
  tree :=
    .named "compilation_unit" 0 118 none
     [.named "comment" 0 11 none [],
      .named "class_declaration" 12 118 none
       [.named "modifier" 12 19 none [], .token "class" 20 25,
        .named "identifier" 26 27 (some "name") [],
        .named "type_parameter_list" 27 30 none
         [.token "<" 27 28,
          .named "type_parameter" 28 29 none [.named "identifier" 28 29 (some "name") []],
          .token ">" 29 30],
        .named "declaration_list" 31 118 (some "body")
         [.token "\x7b" 31 32,
          .named "method_declaration" 35 58 none
           [.named "modifier" 35 42 none [], .named "predefined_type" 43 47 (some "returns") [],
            .named "identifier" 48 49 (some "name") [],
            .named "parameter_list" 49 54 (some "parameters")
             [.token "(" 49 50,
              .named "parameter" 50 53 none
               [.named "identifier" 50 51 (some "type") [],
                .named "identifier" 52 53 (some "name") []],
              .token ")" 53 54],
            .named "block" 55 58 (some "body") []],
          .named "class_declaration" 61 116 none
           [.token "class" 61 66, .named "identifier" 67 68 (some "name") [],
            .named "type_parameter_list" 68 71 none
             [.token "<" 68 69,
              .named "type_parameter" 69 70 none [.named "identifier" 69 70 (some "name") []],
              .token ">" 70 71],
            .named "declaration_list" 72 116 (some "body")
             [.token "\x7b" 72 73, .named "comment" 78 87 none [],
              .named "method_declaration" 92 112 none
               [.named "predefined_type" 92 96 (some "returns") [],
                .named "identifier" 97 98 (some "name") [],
                .named "parameter_list" 98 108 (some "parameters")
                 [.token "(" 98 99,
                  .named "parameter" 99 102 none
                   [.named "identifier" 99 100 (some "type") [],
                    .named "identifier" 101 102 (some "name") []],
                  .token "," 102 103,
                  .named "parameter" 104 107 none
                   [.named "identifier" 104 105 (some "type") [],
                    .named "identifier" 106 107 (some "name") []],
                  .token ")" 107 108],
                .named "block" 109 112 (some "body") []],
              .token "\x7d" 115 116]],
          .token "\x7d" 117 118]]]

/-- The files of both parts. -/
def bothParts : List SourceFile := [definingPart, implementingPart]

/-- The class. -/
def sharedClass : Symbol :=
  { name := ['C'], kind := .class, typeParameters := [['T']], isPartial := true }

/-- The partial method of the class. -/
def sharedMethod : Symbol :=
  { name := ['M'], kind := .method, container := some 0, parameters := [⟨['T'], false⟩],
    isPartial := true }

/-- The class inside the class. -/
def innerClass : Symbol :=
  { name := ['D'], kind := .class, container := some 0, typeParameters := [['U']] }

/-- The method of the inner class, with a parameter of a type parameter of either class. -/
def innerMethod : Symbol :=
  { name := ['N'], kind := .method, container := some 2,
    parameters := [⟨['T'], false⟩, ⟨['U'], false⟩] }

/-- The piece of the class in the first file. -/
def firstPart : Piece := ⟨0, 11, 67, 1, 0, "class_declaration", .part⟩

/-- The piece of the class in the second file. -/
def secondPart : Piece := ⟨1, 12, 118, 1, 0, "class_declaration", .part⟩

/-- The piece that declares the method in the first file. -/
def definingPiece : Piece := ⟨0, 45, 65, 3, 2, "method_declaration", .defining⟩

/-- The piece that implements the method in the second file. -/
def implementingPiece : Piece := ⟨1, 35, 58, 2, 2, "method_declaration", .implementing⟩

/-- The piece of the inner class. -/
def innerClassPiece : Piece := ⟨1, 61, 116, 3, 2, "class_declaration", .whole⟩

/-- The piece of the method of the inner class. -/
def innerMethodPiece : Piece := ⟨1, 92, 112, 5, 4, "method_declaration", .whole⟩

/-- The first file declares the class and its method. -/
theorem outline_definingPart : definingPart.outline 0 =
    [.mk sharedClass firstPart
      [.mk { sharedMethod with container := none } definingPiece []]] := by
  decide +kernel

/-- The second file declares the class, its method, and the inner class with its method. -/
theorem outline_implementingPart : implementingPart.outline 1 =
    [.mk sharedClass secondPart
      [.mk { sharedMethod with container := none } implementingPiece [],
       .mk { innerClass with container := none } innerClassPiece
        [.mk { innerMethod with container := none } innerMethodPiece []]]] := by
  decide +kernel

/-- The class and its method have a piece from either file, the inner class and its method one
from the second file. -/
theorem entries_bothParts : (builderOf bothParts).entries =
    [⟨sharedClass, [firstPart, secondPart]⟩, ⟨sharedMethod, [definingPiece, implementingPiece]⟩,
     ⟨innerClass, [innerClassPiece]⟩, ⟨innerMethod, [innerMethodPiece]⟩] := by
  unfold builderOf bothParts
  simp only [List.zipIdx_cons, List.zipIdx_nil, List.foldl_cons, List.foldl_nil, Nat.zero_add,
    IndexBuilder.enterFile, outline_definingPart, outline_implementingPart]
  decide +kernel

/-- The symbols of both parts. -/
theorem symbols_bothParts : (ofFiles bothParts).index.symbols =
    [sharedClass, sharedMethod, innerClass, innerMethod] := by
  rw [symbols_ofFiles, IndexBuilder.symbols, entries_bothParts]
  rfl

/-- Both parts have four symbols. -/
theorem size_bothParts : (ofFiles bothParts).index.size = 4 := by
  rw [SymbolIndex.size_eq, symbols_bothParts]
  rfl

/-- The pieces of the class have one role, and those of its method one each. -/
theorem pieces_by_kind_bothParts : 0 < (ofFiles bothParts).index.size ∧
    1 < (ofFiles bothParts).index.size ∧
    (∃ s pieces, (ofFiles bothParts).index.symbol 0 = .ok s ∧
      (ofFiles bothParts).index.pieces 0 = .ok pieces ∧ PiecesByKind s pieces) ∧
    ∃ s pieces, (ofFiles bothParts).index.symbol 1 = .ok s ∧
      (ofFiles bothParts).index.pieces 1 = .ok pieces ∧ PiecesByKind s pieces := by
  have hzero : 0 < (ofFiles bothParts).index.size := by
    rw [size_bothParts]
    decide
  have hone : 1 < (ofFiles bothParts).index.size := by
    rw [size_bothParts]
    decide
  exact ⟨hzero, hone, pieces_by_kind bothParts 0 hzero, pieces_by_kind bothParts 1 hone⟩

end Compilation

end PartialDocs
