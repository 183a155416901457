import PartialDocs.Proofs.DocId.Overloads
import PartialDocs.Proofs.TypeRef.BuiltInNames

/-!
# Partial methods whose halves spell built-in types differently

The two halves of a partial method may write a built-in type under its keyword and under its full
name.  They are one symbol with one documentation ID exactly where the same question marks of both
stand right behind the keyword for a value type (`keyword_and_fullName_alike`).  A half with `int?`
and one with `System.Int32?` are taken for different methods (`halves_apart`).
-/

set_option autoImplicit false

namespace PartialDocs

open TypeRef (ofText? Synonymous valueMarks)

/-! ## Parameters -/

/-- For every question mark in a type as written, whether it stands right behind the keyword for a
value type. -/
def valueMarks? (s : Text) : Option (List Bool) := (ofText? s).map valueMarks

/-- Whether two types as written can be read and differ at most in how they spell built-in types. -/
def WrittenAlike (s s' : Text) : Prop :=
  ∃ t u, ofText? s = some t ∧ ofText? s' = some u ∧ Synonymous t u

/-- Whether two parameters are passed in the same way and differ at most in how they spell built-in
types. -/
structure ParametersAlike (p q : Parameter) : Prop where
  byRef : p.byRef = q.byRef
  type : WrittenAlike p.type q.type

variable {s s' : Text} {p q : Parameter} {ps qs : List Parameter} {context : TypeContext}

/-- Types that are written alike are encoded alike just when they have the same marks. -/
theorem WrittenAlike.encodeType_eq_iff (h : WrittenAlike s s') (context : TypeContext) :
    encodeType context s = encodeType context s' ↔ valueMarks? s = valueMarks? s' := by
  obtain ⟨t, u, ht, hu, halike⟩ := h
  unfold encodeType valueMarks?
  simp only [ht, hu, Option.map_some, Option.some.injEq]
  exact halike.encode_eq_iff (TypeRef.built_of_ofText? ht) (TypeRef.built_of_ofText? hu) context

/-- Parameters that are alike can be read. -/
theorem ParametersAlike.isSome (h : ParametersAlike p q) :
    (ofText? p.type).isSome ∧ (ofText? q.type).isSome := by
  obtain ⟨t, u, ht, hu, -⟩ := h.type
  rw [ht, hu]
  exact ⟨rfl, rfl⟩

/-- Parameters that are alike are encoded alike just when they have the same marks. -/
theorem ParametersAlike.encodeParameter_eq_iff (h : ParametersAlike p q) (context : TypeContext) :
    encodeParameter context p = encodeParameter context q ↔
      valueMarks? p.type = valueMarks? q.type := by
  rw [← h.type.encodeType_eq_iff context, encodeParameter, encodeParameter, h.byRef,
    List.append_cancel_right_eq]

/-- Parameters that are alike are encoded alike one by one just when they have the same marks. -/
theorem map_encodeParameter_eq_iff_of_alike (h : List.Forall₂ ParametersAlike ps qs)
    (context : TypeContext) :
    ps.map (encodeParameter context) = qs.map (encodeParameter context) ↔
      ps.map (fun p => valueMarks? p.type) = qs.map fun q => valueMarks? q.type := by
  induction h with
  | nil => simp
  | cons hp _ ih =>
    rw [List.map_cons, List.map_cons, List.map_cons, List.map_cons, List.cons.injEq,
      List.cons.injEq, ih, hp.encodeParameter_eq_iff context]

/-- Lists of parameters that are alike can be read. -/
theorem readable_of_alike (h : List.Forall₂ ParametersAlike ps qs) :
    (∀ p ∈ ps, (ofText? p.type).isSome) ∧ ∀ q ∈ qs, (ofText? q.type).isSome := by
  induction h with
  | nil => exact ⟨List.forall_mem_nil _, List.forall_mem_nil _⟩
  | cons hp _ ih =>
    exact ⟨List.forall_mem_cons.2 ⟨hp.isSome.1, ih.1⟩, List.forall_mem_cons.2 ⟨hp.isSome.2, ih.2⟩⟩

/-- Lists of parameters that are alike are encoded alike just when they have the same marks. -/
theorem encodeParameters_eq_iff_of_alike (h : List.Forall₂ ParametersAlike ps qs)
    (context : TypeContext) :
    encodeParameters context ps = encodeParameters context qs ↔
      ps.map (fun p => valueMarks? p.type) = qs.map fun q => valueMarks? q.type := by
  obtain ⟨hps, hqs⟩ := readable_of_alike h
  rw [← map_encodeParameter_eq_iff_of_alike h context]
  constructor
  · exact map_eq_of_encodeParameters_eq (fun p hp => .inl (hps p hp)) fun q hq => .inl (hqs q hq)
  · intro hmap
    unfold encodeParameters
    rw [hmap]

/-! ## Halves of a partial method -/

namespace Compilation

/-- Whether two symbols are declared by halves of a partial method that differ at most in how they
spell built-in types. -/
structure Halves (s t : Symbol) : Prop where
  kind : s.kind = .method ∧ t.kind = .method
  isPartial : s.isPartial = true ∧ t.isPartial = true
  container : s.container = t.container
  name : s.name = t.name
  typeParameters : s.typeParameters = t.typeParameters
  parameters : List.Forall₂ ParametersAlike s.parameters t.parameters

/-- Whether the same question marks in the parameters of two symbols stand right behind the keyword
for a value type. -/
def EqualMarks (s t : Symbol) : Prop :=
  s.parameters.map (fun p => valueMarks? p.type) = t.parameters.map fun q => valueMarks? q.type

instance (s t : Symbol) : Decidable (EqualMarks s t) := inferInstanceAs (Decidable (_ = _))

variable {files : List SourceFile} {before between after : List (Symbol × Piece)}
  {s t : Symbol} {x y : Symbol × Piece}

/-- Two halves are overloads of each other. -/
theorem Halves.overloads (h : Halves s t) : Overloads s t where
  kind := h.kind
  container := h.container
  name := h.name
  arity := by
    unfold Symbol.arity
    rw [h.typeParameters]

/-- Two halves stand in one context. -/
theorem Halves.contextOf_eq (h : Halves s t) (symbols : List Symbol) :
    contextOf symbols s = contextOf symbols t := by
  unfold contextOf
  rw [chainAround_congr h.container, h.typeParameters]

/-- Halves are spelled alike exactly where they are marked alike. -/
theorem Halves.spelled_eq_iff (h : Halves s t) (files : List SourceFile) :
    spelledParameters files s = spelledParameters files t ↔ EqualMarks s t := by
  unfold spelledParameters
  rw [h.contextOf_eq]
  exact encodeParameters_eq_iff_of_alike h.parameters _

/-- Halves that are marked alike have one key at every moment. -/
theorem Halves.key_eq (h : Halves s t) (alike : EqualMarks s t) {c : SymbolId}
    (hc : s.container = some c) (b : IndexBuilder) : b.key s = b.key t := by
  have hspelled := (encodeParameters_eq_iff_of_alike h.parameters
    ⟨b.outerTypeParameters c, t.typeParameters⟩).2 alike
  have hmember : ∀ {u : Symbol}, u.kind = .method → u.kind.isType = false := by
    intro u hu
    rw [hu]
    rfl
  rw [b.key_of_member (hmember h.kind.1) hc,
    b.key_of_member (hmember h.kind.2) (h.container ▸ hc), h.kind.1, h.kind.2, h.name,
    h.overloads.arity, IndexBuilder.signature, IndexBuilder.signature, h.typeParameters]
  exact congrArg _ hspelled

/-- Halves that are not marked alike have parameters, all of which can be read. -/
theorem Halves.spelled_ne_nil (h : Halves s t) (differ : ¬ EqualMarks s t)
    (files : List SourceFile) :
    spelledParameters files s ≠ [] ∧ spelledParameters files t ≠ [] := by
  obtain ⟨hs, ht⟩ := readable_of_alike h.parameters
  have hlength := h.parameters.length_eq
  unfold spelledParameters
  rw [Ne, Ne, encodeParameters_eq_nil _ hs, encodeParameters_eq_nil _ ht]
  have hempty : s.parameters = [] ↔ t.parameters = [] := by
    rw [← List.length_eq_zero_iff, ← List.length_eq_zero_iff, hlength]
  have hsome : s.parameters ≠ [] := by
    intro hnil
    apply differ
    unfold EqualMarks
    rw [hnil, hempty.1 hnil]
  exact ⟨hsome, fun hnil => hsome (hempty.2 hnil)⟩

/-- The later half of a partial method joins the symbol that the earlier one has founded, unless a
declaration between them has its role. -/
theorem Halves.exists_pieces (h : Halves x.1 y.1)
    (here : handed files = before ++ x :: (between ++ y :: after)) (alike : EqualMarks x.1 y.1)
    (first : ∀ z ∈ before, (builderOf files).key z.1 ≠ (builderOf files).key x.1)
    (roles : ∀ z ∈ x :: between, (builderOf files).key z.1 = (builderOf files).key x.1 →
      z.2.role ≠ y.2.role) :
    ∃ i ps, (ofFiles files).index.symbol i = .ok x.1 ∧ (ofFiles files).index.pieces i = .ok ps ∧
      x.2 ∈ ps ∧ y.2 ∈ ps := by
  obtain ⟨hsound, hallowed⟩ := allowed_of_handed here
  obtain ⟨c, hc⟩ := (placed_of_handed here).exists_container h.overloads.isType.1
  have hkey := h.key_eq alike hc
  have hadmits : ((IndexBuilder.empty.addAll before).add x.1 x.2).1.Admits between := by
    have hall := admits_handed files
    rw [here, IndexBuilder.admits_append, IndexBuilder.Admits, IndexBuilder.admits_append] at hall
    exact hall.2.2.1
  have hfree := find?_eq_none_of_first here first
  have hfirst := IndexBuilder.entries_of_free (p := x.2) hfree
  -- a piece of the role that is there already comes from a declaration that `roles` rules out
  have hroles : ∀ e, (((IndexBuilder.empty.addAll before).add x.1 x.2).1.addAll between).entries[
      (IndexBuilder.empty.addAll before).entries.length]? = some e →
      ∀ r ∈ e.pieces, r.role ≠ y.2.role := by
    intro e he r hr
    obtain ⟨more, hentry, -⟩ := IndexBuilder.entry_extends_addAll between hfirst
    have hsymbol : e.symbol = x.1 := by
      rw [he] at hentry
      exact congrArg IndexEntry.symbol (Option.some.inj hentry)
    have here' : handed files = (before ++ x :: between) ++ y :: after := by
      rw [here, List.append_assoc, List.cons_append]
    rw [← IndexBuilder.addAll_cons, ← IndexBuilder.addAll_append] at he
    obtain ⟨z, hz, rfl, hz'⟩ := exists_of_mem_pieces here' he hr
    rw [hsymbol] at hz'
    rcases List.mem_append.1 hz with hz | hz
    · exact absurd hz' (first z hz)
    · exact roles z hz hz'
  obtain ⟨-, -, e, he, hx, hy⟩ := IndexBuilder.add_joins_founder hsound hallowed hfree h.isPartial
    hkey hadmits hroles
  have hrun := builderOf_of_handed here
  have hrecorded := recorded_of_entry hrun hfirst
  rw [IndexBuilder.addAll_append, IndexBuilder.addAll_cons] at hrun
  obtain ⟨more, hentry, -⟩ := IndexBuilder.entry_extends_addAll after he
  rw [← hrun] at hentry
  obtain ⟨ps, hps, hperm, -, -⟩ := (sound_builderOf files).pieces_build hentry
  exact ⟨_, ps, hrecorded.symbol, hps, hperm.mem_iff.2 (List.mem_append_left _ hx),
    hperm.mem_iff.2 (List.mem_append_left _ hy)⟩

/-- What becomes of the halves of a partial method. -/
structure HalvesKnown (files : List SourceFile) (x y : Symbol × Piece) : Prop where
  /-- They are known as one symbol, and under one documentation ID, where they are marked alike. -/
  exactly : ∃ i j docId docId', KnownAs files x i docId ∧ KnownAs files y j docId' ∧
    (i = j ↔ EqualMarks x.1 y.1) ∧ (docId = docId' ↔ EqualMarks x.1 y.1)
  /-- The later half then joins the earlier one. -/
  joined : EqualMarks x.1 y.1 → ∀ before between after,
    handed files = before ++ x :: (between ++ y :: after) →
    (∀ z ∈ before, (builderOf files).key z.1 ≠ (builderOf files).key x.1) →
    (∀ z ∈ x :: between, (builderOf files).key z.1 = (builderOf files).key x.1 →
      z.2.role ≠ y.2.role) →
    ∃ i ps, (ofFiles files).index.symbol i = .ok x.1 ∧ (ofFiles files).index.pieces i = .ok ps ∧
      x.2 ∈ ps ∧ y.2 ∈ ps

/-- Two halves are one symbol, and have one documentation ID, just when they have the same marks. -/
theorem Halves.exists_known (h : Halves x.1 y.1) (hx : x ∈ handed files) (hy : y ∈ handed files) :
    ∃ i j docId docId', KnownAs files x i docId ∧ KnownAs files y j docId' ∧
      (i = j ↔ EqualMarks x.1 y.1) ∧ (docId = docId' ↔ EqualMarks x.1 y.1) := by
  by_cases alike : EqualMarks x.1 y.1
  · have hkey := (h.overloads.key_eq_iff hx).2 ((h.spelled_eq_iff files).2 alike)
    obtain ⟨i, s, -, -, hi⟩ := exists_knownAs hx
    obtain ⟨j, t, -, -, hj⟩ := exists_knownAs hy
    obtain ⟨hij, hdocId⟩ := hi.eq hj hkey
    exact ⟨i, j, _, _, hi, hj, iff_of_true hij alike, iff_of_true hdocId alike⟩
  · obtain ⟨hne, hne'⟩ := h.spelled_ne_nil alike files
    have differ : spelledParameters files x.1 ≠ spelledParameters files y.1 := fun hsame =>
      alike ((h.spelled_eq_iff files).1 hsame)
    obtain ⟨i, j, hi, hj, hij, hdocId⟩ := h.overloads.exists_apart hx hy hne hne' differ
    exact ⟨i, j, _, _, hi, hj, iff_of_false hij alike, iff_of_false hdocId alike⟩

/-- **A built-in type is spelled alike under its keyword and under its full name exactly where the
same question marks stand right behind the keyword for a value type.**  Only then do the halves of a
partial method that write it differently meet. -/
theorem keyword_and_fullName_alike (context : TypeContext) (files : List SourceFile) :
    (∀ t u, Synonymous t u → t.valueMarks = u.valueMarks →
      t.encode context = u.encode context) ∧
    (∀ s s', WrittenAlike s s' →
      (encodeType context s = encodeType context s' ↔ valueMarks? s = valueMarks? s')) ∧
    ∀ x y, x ∈ handed files → y ∈ handed files → Halves x.1 y.1 → HalvesKnown files x y := by
  refine ⟨?_, ?_, ?_⟩
  · intro t u h marks
    exact h.encode_eq context marks
  · intro s s' h
    exact h.encodeType_eq_iff context
  · intro x y hx hy h
    refine ⟨h.exists_known hx hy, ?_⟩
    intro alike before between after here first roles
    exact h.exists_pieces here alike first roles

/-! ## Halves of a method M -/

/-- A half of a partial method M of one parameter, whose type is a node of the given kind and
length. -/
def halfNode (start : Nat) (kind : String) (length : Nat) (tail : Tree) : Tree :=
  let close := start + 17 + length
  .named "method_declaration" start tail.stop none
    [.named "modifier" start (start + 7) none [],
     .named "predefined_type" (start + 8) (start + 12) (some "returns") [],
     .named "identifier" (start + 13) (start + 14) (some "name") [],
     .named "parameter_list" (start + 14) (close + 1) (some "parameters")
      [.token "(" (start + 14) (start + 15),
       .named "parameter" (start + 15) close none
        [.named kind (start + 15) (start + 15 + length) (some "type") [],
         .named "identifier" (close - 1) close (some "name") []],
       .token ")" close (close + 1)],
     tail]

/-- A partial class A with two nodes. -/
def partialClassOf (text : String) (stop : Nat) (first second : Tree) : SourceFile where
  path := "file0.cs".toList
  text := text.toList
  tree :=
    .named "compilation_unit" 0 stop none
      [.named "class_declaration" 0 stop none
        [.named "modifier" 0 7 none [], .token "class" 8 13,
         .named "identifier" 14 15 (some "name") [],
         .named "declaration_list" 16 stop (some "body")
          [.token "\x7b" 16 17, first, second, .token "\x7d" (stop - 1) stop]]]

/-- The class as it is handed over. -/
def partialClassPart (stop : Nat) : Symbol × Piece :=
  ({ name := ['A'], kind := .class, isPartial := true },
    ⟨0, 0, stop, 0, 0, "class_declaration", .part⟩)

/-- A half as it is handed over. -/
def halfSymbol (type : String) (role : Role) (start stop : Nat) : Symbol × Piece :=
  ({ name := ['M'], kind := .method, container := some 0, isPartial := true,
     parameters := [⟨type.toList, false⟩] },
    ⟨0, start, stop, 0, start, "method_declaration", role⟩)

/-- Halves over an array of integers, which write the integers differently. -/
def arrayHalves : SourceFile :=
  partialClassOf
    "partial class A \x7b partial void M(int[]? a); partial void M(System.Int32[]? a) \x7b \x7d \x7d"
    83 (halfNode 18 "nullable_type" 6 (.token ";" 42 43))
    (halfNode 44 "nullable_type" 15 (.named "block" 78 81 (some "body") []))

/-- The class and the halves as they are handed on. -/
theorem handed_arrayHalves : handed [arrayHalves] =
    [partialClassPart 83, halfSymbol "int[]?" .defining 18 43,
      halfSymbol "System.Int32[]?" .implementing 44 81] := by
  decide +kernel

/-- An array of integers, under the keyword and under the full name. -/
theorem synonymous_arrays : Synonymous (.array (TypeRef.word "int".toList) 1)
    (.array (.named [.mk "System".toList [], .mk "Int32".toList []]) 1) := by
  have hint : builtInType? "int".toList = some ("System.".toList ++ "Int32".toList, true) := by
    decide +kernel
  exact .array 1 (.builtIn (.keyword hint) (.fullName hint))

/-- The types of the parameters of these halves differ in a keyword only. -/
theorem halves_arrayHalves : Halves (halfSymbol "int[]?" .defining 18 43).1
    (halfSymbol "System.Int32[]?" .implementing 44 81).1 where
  kind := ⟨rfl, rfl⟩
  isPartial := ⟨rfl, rfl⟩
  container := rfl
  name := rfl
  typeParameters := rfl
  parameters := .cons ⟨rfl, _, _, rfl, rfl, .nullable synonymous_arrays⟩ .nil

/-- A question mark behind an array of integers does not keep the halves apart. -/
theorem keyword_and_fullName_alike_arrayHalves :
    (TypeRef.array (TypeRef.word "int".toList) 1).encode ⟨[], []⟩ =
      (TypeRef.array (.named [.mk "System".toList [], .mk "Int32".toList []]) 1).encode
        ⟨[], []⟩ ∧
    encodeType ⟨[], []⟩ "int[]?".toList = encodeType ⟨[], []⟩ "System.Int32[]?".toList ∧
    EqualMarks (halfSymbol "int[]?" .defining 18 43).1
      (halfSymbol "System.Int32[]?" .implementing 44 81).1 ∧
    ∃ i ps, (ofFiles [arrayHalves]).index.symbol i =
        .ok (halfSymbol "int[]?" .defining 18 43).1 ∧
      (ofFiles [arrayHalves]).index.pieces i = .ok ps ∧
      (halfSymbol "int[]?" .defining 18 43).2 ∈ ps ∧
      (halfSymbol "System.Int32[]?" .implementing 44 81).2 ∈ ps := by
  have hencode := (keyword_and_fullName_alike ⟨[], []⟩ [arrayHalves]).1 _ _ synonymous_arrays rfl
  have htype := ((keyword_and_fullName_alike ⟨[], []⟩ [arrayHalves]).2.1 "int[]?".toList
    "System.Int32[]?".toList ⟨_, _, rfl, rfl, .nullable synonymous_arrays⟩).2 (by decide +kernel)
  have hmarks : EqualMarks (halfSymbol "int[]?" .defining 18 43).1
      (halfSymbol "System.Int32[]?" .implementing 44 81).1 := by
    decide +kernel
  have hx : halfSymbol "int[]?" .defining 18 43 ∈ handed [arrayHalves] := by
    simp [handed_arrayHalves]
  have hy : halfSymbol "System.Int32[]?" .implementing 44 81 ∈ handed [arrayHalves] := by
    simp [handed_arrayHalves]
  have hbuilder : builderOf [arrayHalves] =
      IndexBuilder.empty.addAll (handed [arrayHalves]) := builderOf_eq_addAll _
  have hjoined := ((keyword_and_fullName_alike ⟨[], []⟩ [arrayHalves]).2.2 _ _ hx hy
    halves_arrayHalves).joined hmarks [_] [] [] handed_arrayHalves
    (by rw [hbuilder, handed_arrayHalves]; decide +kernel) (by decide)
  exact ⟨hencode, htype, hmarks, hjoined⟩

/-! ## A nullable integer -/

/-- Halves of which one takes a nullable integer under the keyword. -/
def nullableHalves : SourceFile :=
  partialClassOf
    "partial class A \x7b partial void M(int? a); partial void M(System.Int32? a) \x7b \x7d \x7d"
    79 (halfNode 18 "nullable_type" 4 (.token ";" 40 41))
    (halfNode 42 "nullable_type" 13 (.named "block" 74 77 (some "body") []))

/-- A nullable integer is encoded differently under its keyword and its full name, and the halves of
a partial method that write it differently become two methods. -/
theorem halves_apart :
    Synonymous (.nullable (TypeRef.word "int".toList))
      (.nullable (.named [.mk "System".toList [], .mk "Int32".toList []])) ∧
    encodeType ⟨[], []⟩ "int?".toList = "System.Nullable\x7bSystem.Int32\x7d".toList ∧
    encodeType ⟨[], []⟩ "System.Int32?".toList = "System.Int32".toList ∧
    handed [nullableHalves] = [partialClassPart 79, halfSymbol "int?" .defining 18 41,
      halfSymbol "System.Int32?" .implementing 42 77] ∧
    (ofFiles [nullableHalves]).index.size = 3 ∧
    (ofFiles [nullableHalves]).index.docId 1 =
      .ok "M:A.M(System.Nullable\x7bSystem.Int32\x7d)".toList ∧
    (ofFiles [nullableHalves]).index.docId 2 = .ok "M:A.M(System.Int32)".toList := by
  have hint : builtInType? "int".toList = some ("System.".toList ++ "Int32".toList, true) := by
    decide +kernel
  have hhanded : handed [nullableHalves] = [partialClassPart 79,
      halfSymbol "int?" .defining 18 41, halfSymbol "System.Int32?" .implementing 42 77] := by
    decide +kernel
  have hfiles : ofFiles [nullableHalves] =
      ⟨[nullableHalves], (IndexBuilder.empty.addAll (handed [nullableHalves])).build⟩ := by
    rw [← builderOf_eq_addAll]
    rfl
  refine ⟨.nullable (.builtIn (.keyword hint) (.fullName hint)), by decide +kernel,
    by decide +kernel, hhanded, ?_⟩
  rw [hfiles, hhanded]
  exact ⟨by decide +kernel, by decide +kernel, by decide +kernel⟩

end Compilation

end PartialDocs
