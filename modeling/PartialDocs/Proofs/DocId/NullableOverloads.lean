import PartialDocs.Proofs.DocId.FormalParameters
import PartialDocs.Proofs.DocId.Overloads
import PartialDocs.Proofs.TypeRef.Positions

/-!
# Overloads that differ in a question mark

Two methods of one type may differ only in that one of them has a question mark behind a type
somewhere in a parameter.  Behind the keyword for a value type the question mark keeps them apart
(`nullable_overloads_kept`): they are two symbols, and the documentation ID of the second one wraps
the type.  Behind any other type, and in front of another question mark, it does not.  A tuple type
is not taken for a value type, so that the second of two such overloads is lost
(`tuple_overload_lost`).
-/

set_option autoImplicit false

namespace PartialDocs

open Text (Closed joinWith)
open TypeRef (ofText? ofText?_of_tokens Frame SpellsName SpellsType plug braced)

/-! ## Parameters that differ in a question mark -/

variable {context other : TypeContext} {p q : Parameter} {s t : Symbol} {type : TypeRef}
  {path : List Frame}

/-- A parameter is spelled alike among other type parameters, or its spellings are closed. -/
theorem encodeParameter_eq_or_closed (context other : TypeContext) (p : Parameter) :
    encodeParameter context p = encodeParameter other p ∨
      Closed (encodeParameter context p) ∧ Closed (encodeParameter other p) := by
  cases hread : ofText? p.type with
  | none =>
    left
    unfold encodeParameter encodeType
    simp only [hread]
  | some t =>
    right
    have hwell : WellSpelled p := .inl (by rw [hread]; rfl)
    exact ⟨hwell.closed context, hwell.closed other⟩

/-- Whether one symbol has a type at the end of a path in the type of a parameter where the other
one has this type with a question mark, and all their other parameters are the same. -/
structure DifferByMark (type : TypeRef) (path : List Frame) (s t : Symbol) : Prop where
  overloads : Compilation.Overloads s t
  parameters : ∃ before after p q, s.parameters = before ++ p :: after ∧
    t.parameters = before ++ q :: after ∧ p.byRef = q.byRef ∧
    ofText? p.type = some (plug path type) ∧ ofText? q.type = some (plug path (.nullable type))

/-- A question mark behind the keyword for a value type is seen in the spelling of the
parameters. -/
theorem DifferByMark.encodeParameters_ne (h : DifferByMark type path s t)
    (value : type.isBuiltInValue = true) (last : path.getLast? ≠ some .nullable)
    (context other : TypeContext) :
    encodeParameters context s.parameters ≠ encodeParameters other t.parameters := by
  obtain ⟨before, after, p, q, hs, ht, hbyRef, hp, hq⟩ := h.parameters
  have hsame : ∀ rs : List Parameter, List.Forall₂ (fun x y => x = y ∨ Closed x ∧ Closed y)
      (rs.map (encodeParameter context)) (rs.map (encodeParameter other)) := by
    intro rs
    rw [List.forall₂_map_left_iff, List.forall₂_map_right_iff, List.forall₂_same]
    exact fun r _ => encodeParameter_eq_or_closed context other r
  have hclosed : Closed (encodeParameter context p) ∧ Closed (encodeParameter other q) := by
    have hread : WellSpelled p ∧ WellSpelled q :=
      ⟨.inl (by rw [hp]; rfl), .inl (by rw [hq]; rfl)⟩
    exact ⟨hread.1.closed context, hread.2.closed other⟩
  intro heq
  unfold encodeParameters at heq
  rw [hs, ht, List.map_append, List.map_append, List.map_cons, List.map_cons] at heq
  -- the spellings that differ are closed, so that the commas between them are found again
  have hlists := Text.joinWith_inj_of_forall₂
    (List.rel_append (hsame before) (.cons (.inr hclosed) (hsame after))) heq
  obtain ⟨-, hrest⟩ := List.append_inj hlists (by simp)
  have hone : encodeParameter context p = encodeParameter other q := (List.cons.inj hrest).1
  rw [encodeParameter_eq_iff (by rw [hp]; rfl) (by rw [hq]; rfl)] at hone
  have hnormal := hone.2
  unfold normalType? at hnormal
  rw [hp, hq, Option.map_some, Option.map_some, Option.some.injEq] at hnormal
  exact TypeRef.normal_ne_normal_nullable value context other
    (TypeRef.normal_of_plug_eq last hnormal)

/-- A question mark that is not shown leaves the spelling of the parameters as it is. -/
theorem DifferByMark.encodeParameters_eq (h : DifferByMark type path s t)
    (hidden : type.isBuiltInValue = false ∨ path.getLast? = some .nullable)
    (context : TypeContext) :
    encodeParameters context s.parameters = encodeParameters context t.parameters := by
  obtain ⟨before, after, p, q, hs, ht, hbyRef, hp, hq⟩ := h.parameters
  have hone : encodeParameter context p = encodeParameter context q := by
    unfold encodeParameter encodeType
    simp only [hp, hq, hbyRef, TypeRef.encode_plug_nullable_eq context hidden]
  unfold encodeParameters
  rw [hs, ht, List.map_append, List.map_append, List.map_cons, List.map_cons, hone]

/-- The parameters of both leave a trace in their spelling. -/
theorem DifferByMark.encodeParameters_ne_nil (h : DifferByMark type path s t)
    (context : TypeContext) :
    encodeParameters context s.parameters ≠ [] ∧ encodeParameters context t.parameters ≠ [] := by
  obtain ⟨before, after, p, q, hs, ht, -, hp, hq⟩ := h.parameters
  have hne : ∀ {r : Parameter}, (ofText? r.type).isSome →
      encodeParameters context (before ++ r :: after) ≠ [] := by
    intro r hr
    obtain ⟨left, right, hjoin⟩ := Text.exists_joinWith_around [',']
      (before.map (encodeParameter context)) (after.map (encodeParameter context))
    unfold encodeParameters
    rw [List.map_append, List.map_cons, hjoin]
    have hwell : WellSpelled r := .inl hr
    simp [hwell.ne_nil context]
  rw [hs, ht]
  exact ⟨hne (by rw [hp]; rfl), hne (by rw [hq]; rfl)⟩

/-- The spellings of the parameters differ only in that the second one wraps the type. -/
theorem DifferByMark.exists_around (h : DifferByMark type path s t)
    (value : type.isBuiltInValue = true) (last : path.getLast? ≠ some .nullable)
    (context : TypeContext) :
    ∃ left right, encodeParameters context s.parameters = left ++ (type.encode context ++ right) ∧
      encodeParameters context t.parameters =
        left ++ ("System.Nullable".toList ++ braced [type.encode context] ++ right) := by
  obtain ⟨before, after, p, q, hs, ht, hbyRef, hp, hq⟩ := h.parameters
  obtain ⟨front, back, hjoin⟩ := Text.exists_joinWith_around [',']
    (before.map (encodeParameter context)) (after.map (encodeParameter context))
  obtain ⟨left, right, hplug⟩ := TypeRef.exists_encode_plug context last
  refine ⟨front ++ left, right ++ ((if q.byRef then ['@'] else []) ++ back), ?_, ?_⟩
  · unfold encodeParameters
    rw [hs, List.map_append, List.map_cons, hjoin]
    unfold encodeParameter encodeType
    simp only [hp, hplug, hbyRef, List.append_assoc]
  · unfold encodeParameters
    rw [ht, List.map_append, List.map_cons, hjoin]
    unfold encodeParameter encodeType
    simp only [hq, hplug, TypeRef.encode_nullable_value value, List.append_assoc]

namespace Compilation

variable {files : List SourceFile} {x y : Symbol × Piece}

/-- Whether two overloads are kept apart by a question mark that one of them has behind a type. -/
structure KeptByMark (files : List SourceFile) (type : TypeRef) (path : List Frame)
    (x y : Symbol × Piece) : Prop where
  apart : ∃ i j docId docId', KnownAs files x i docId ∧ KnownAs files y j docId' ∧ i ≠ j ∧
    docId ≠ docId'
  /-- The second one encodes the type at the position as a nullable one. -/
  position : ∀ context, ∃ left right,
    (plug path type).encode context = left ++ (type.encode context ++ right) ∧
    (plug path (.nullable type)).encode context =
      left ++ ("System.Nullable".toList ++ braced [type.encode context] ++ right)
  /-- Their documentation IDs differ in nothing else, if they have the same type parameters. -/
  shown : x.1.typeParameters = y.1.typeParameters → ∃ i j front back,
    KnownAs files x i (front ++
      (type.encode (contextOf (ofFiles files).index.symbols x.1) ++ back)) ∧
    KnownAs files y j (front ++ ("System.Nullable".toList ++
      braced [type.encode (contextOf (ofFiles files).index.symbols x.1)] ++ back))

/-- Overloads that differ by the mark on a built-in value type are kept apart. -/
theorem keptByMark (hx : x ∈ handed files) (hy : y ∈ handed files)
    (h : DifferByMark type path x.1 y.1) (value : type.isBuiltInValue = true)
    (last : path.getLast? ≠ some .nullable) : KeptByMark files type path x y where
  apart := by
    obtain ⟨i, j, hi, hj, hij, hdocId⟩ := h.overloads.exists_apart hx hy
      (h.encodeParameters_ne_nil _).1 (h.encodeParameters_ne_nil _).2
      (h.encodeParameters_ne value last _ _)
    exact ⟨i, j, _, _, hi, hj, hij, hdocId⟩
  position context := by
    obtain ⟨left, right, hplug⟩ := TypeRef.exists_encode_plug context last
    exact ⟨left, right, hplug type, by rw [hplug, TypeRef.encode_nullable_value value]⟩
  shown typeParameters := by
    have hcontext : contextOf (ofFiles files).index.symbols x.1 =
        contextOf (ofFiles files).index.symbols y.1 := by
      unfold contextOf
      rw [chainAround_congr h.overloads.container, typeParameters]
    obtain ⟨hne, -⟩ := h.encodeParameters_ne_nil (contextOf (ofFiles files).index.symbols x.1)
    obtain ⟨-, hne'⟩ := h.encodeParameters_ne_nil (contextOf (ofFiles files).index.symbols y.1)
    obtain ⟨i, hi⟩ := exists_knownAs_own hx h.overloads.kind.1 hne
    obtain ⟨j, hj⟩ := exists_knownAs_own hy h.overloads.kind.2 hne'
    obtain ⟨left, right, hleft, hright⟩ :=
      h.exists_around value last (contextOf (ofFiles files).index.symbols x.1)
    have hparameters : ∀ {s : Symbol} {context : TypeContext}, s.kind = .method →
        encodeParameters context s.parameters ≠ [] →
        parameterList context s = '(' :: encodeParameters context s.parameters ++ [')'] := by
      intro s context hs hsome
      refine parameterList_of_shown (by rw [hs]; rfl) ?_
      intro hnil
      rw [hnil] at hsome
      exact hsome rfl
    refine ⟨i, j, methodHead (ofFiles files).index.symbols x.1 ++ '(' :: left, right ++ [')'],
      ?_, ?_⟩
    · rw [placedDocId_of_method h.overloads.kind.1, hparameters h.overloads.kind.1 hne,
        hleft] at hi
      simpa using hi
    · rw [placedDocId_of_method h.overloads.kind.2, ← h.overloads.methodHead_eq,
        hparameters h.overloads.kind.2 hne', ← hcontext, hright] at hj
      simpa using hj

/-- **Overloads that differ in a question mark behind the keyword for a value type are both kept**,
as two symbols with two documentation IDs, of which the second one wraps the type.  A question mark
behind any other type, or one in front of another, does not keep overloads apart. -/
theorem nullable_overloads_kept (files : List SourceFile) (hx : x ∈ handed files)
    (hy : y ∈ handed files) (h : DifferByMark type path x.1 y.1) :
    (type.isBuiltInValue = true → path.getLast? ≠ some .nullable →
      KeptByMark files type path x y) ∧
    (type.isBuiltInValue = false ∨ path.getLast? = some .nullable →
      x.1.typeParameters = y.1.typeParameters → ∀ i j docId docId', KnownAs files x i docId →
        KnownAs files y j docId' → i = j ∧ docId = docId') := by
  constructor
  · exact keptByMark hx hy h
  · intro hidden typeParameters i j docId docId' hi hj
    have hspelled : spelledParameters files x.1 = spelledParameters files y.1 := by
      unfold spelledParameters contextOf
      rw [chainAround_congr h.overloads.container, typeParameters]
      exact h.encodeParameters_eq hidden _
    exact hi.eq hj ((h.overloads.key_eq_iff hx).2 hspelled)

/-! ## Arrays of nullable integers -/

/-- A parameter a of the given type, a node of the given kind and length. -/
def typedParameter (start : Nat) (kind : String) (length : Nat) : Tree :=
  .named "parameter" start (start + length + 2) none
    [.named kind start (start + length) (some "type") [],
     .named "identifier" (start + length + 1) (start + length + 2) (some "name") []]

/-- Methods over lists of arrays of integers, of which one allows nulls in the arrays. -/
def listOverloads : SourceFile :=
  pairOf "class A \x7b void M(List<int[]> a) \x7b \x7d void M(List<int?[]> a) \x7b \x7d \x7d" 64
    (overload 10 30 [typedParameter 17 "generic_name" 11])
    (overload 36 57 [typedParameter 43 "generic_name" 12])

/-- A method M of the class, at the given bytes, with one parameter of the given type. -/
def overloadSymbol (type : String) (start stop : Nat) : Symbol × Piece :=
  ({ name := ['M'], kind := .method, container := some 0, parameters := [⟨type.toList, false⟩] },
    ⟨0, start, stop, 0, start, "method_declaration", .whole⟩)

/-- The class and its methods as they are handed on. -/
theorem handed_listOverloads : handed [listOverloads] =
    [classOfPair 64, overloadSymbol "List<int[]>" 10 35, overloadSymbol "List<int?[]>" 36 62] := by
  decide +kernel

/-- The parameters differ at the position in the list and the array. -/
theorem differByMark_listOverloads : DifferByMark (TypeRef.word "int".toList)
    [.argument [] "List".toList [] [] [], .array 1] (overloadSymbol "List<int[]>" 10 35).1
    (overloadSymbol "List<int?[]>" 36 62).1 where
  overloads := ⟨⟨rfl, rfl⟩, rfl, rfl, rfl⟩
  parameters := by
    have hint := @SpellsType.of_word (.word "int".toList) _ rfl
    have hname : SpellsName [.word "List".toList] "List".toList := .word rfl
    have hfirst := SpellsType.named (.last hname (.given (.last (.array 0 hint))))
    have hsecond := SpellsType.named (.last hname (.given (.last (.array 0 hint.nullable))))
    refine ⟨[], [], ⟨"List<int[]>".toList, false⟩, ⟨"List<int?[]>".toList, false⟩, rfl, rfl, rfl,
      ofText?_of_tokens (by decide +kernel) hfirst, ofText?_of_tokens (by decide +kernel) hsecond⟩

/-- A question mark in an array in a list keeps overloads apart. -/
theorem nullable_overloads_kept_listOverloads :
    overloadSymbol "List<int[]>" 10 35 ∈ handed [listOverloads] ∧
    overloadSymbol "List<int?[]>" 36 62 ∈ handed [listOverloads] ∧
    DifferByMark (TypeRef.word "int".toList) [.argument [] "List".toList [] [] [], .array 1]
      (overloadSymbol "List<int[]>" 10 35).1 (overloadSymbol "List<int?[]>" 36 62).1 ∧
    KeptByMark [listOverloads] (TypeRef.word "int".toList)
      [.argument [] "List".toList [] [] [], .array 1] (overloadSymbol "List<int[]>" 10 35)
      (overloadSymbol "List<int?[]>" 36 62) ∧
    (ofFiles [listOverloads]).index.docId 2 =
      .ok "M:A.M(List\x7bSystem.Nullable\x7bSystem.Int32\x7d[]\x7d)".toList := by
  have hx : overloadSymbol "List<int[]>" 10 35 ∈ handed [listOverloads] := by
    simp [handed_listOverloads]
  have hy : overloadSymbol "List<int?[]>" 36 62 ∈ handed [listOverloads] := by
    simp [handed_listOverloads]
  have hkept := (nullable_overloads_kept [listOverloads] hx hy differByMark_listOverloads).1
    (by decide +kernel) (by simp)
  have hfiles : ofFiles [listOverloads] =
      ⟨[listOverloads], (IndexBuilder.empty.addAll (handed [listOverloads])).build⟩ := by
    rw [← builderOf_eq_addAll]
    rfl
  refine ⟨hx, hy, differByMark_listOverloads, hkept, ?_⟩
  rw [hfiles, handed_listOverloads]
  decide +kernel

/-! ## Tuples -/

/-- Methods over pairs of integers, of which one allows null. -/
def tupleOverloads : SourceFile :=
  pairOf "class A \x7b void M((int, int) a) \x7b \x7d void M((int, int)? a) \x7b \x7d \x7d" 62
    (overload 10 29 [typedParameter 17 "tuple_type" 10])
    (overload 35 55 [typedParameter 42 "nullable_type" 11])

/-- A nullable tuple is taken for the tuple, so that the second of two overloads is lost. -/
theorem tuple_overload_lost :
    handed [tupleOverloads] =
      [classOfPair 62, overloadSymbol "(int,int)" 10 34, overloadSymbol "(int,int)?" 35 60] ∧
    DifferByMark (.tuple [TypeRef.word "int".toList, TypeRef.word "int".toList]) []
      (overloadSymbol "(int,int)" 10 34).1 (overloadSymbol "(int,int)?" 35 60).1 ∧
    Meets [tupleOverloads] (overloadSymbol "(int,int)" 10 34)
      (overloadSymbol "(int,int)?" 35 60) ∧
    (ofFiles [tupleOverloads]).index.size = 2 ∧
    (ofFiles [tupleOverloads]).index.docId 1 =
      .ok "M:A.M(System.ValueTuple\x7bSystem.Int32,System.Int32\x7d)".toList := by
  have hhanded : handed [tupleOverloads] =
      [classOfPair 62, overloadSymbol "(int,int)" 10 34, overloadSymbol "(int,int)?" 35 60] := by
    decide +kernel
  have hfiles : ofFiles [tupleOverloads] =
      ⟨[tupleOverloads], (IndexBuilder.empty.addAll (handed [tupleOverloads])).build⟩ := by
    rw [← builderOf_eq_addAll]
    rfl
  have hint := @SpellsType.of_word (.word "int".toList) _ rfl
  have htuple := SpellsType.tuple (.more hint .missing (.last hint .missing))
  refine ⟨hhanded, ?_, ?_, ?_, ?_⟩
  · exact ⟨⟨⟨rfl, rfl⟩, rfl, rfl, rfl⟩, [], [], ⟨"(int,int)".toList, false⟩,
      ⟨"(int,int)?".toList, false⟩, rfl, rfl, rfl,
      ofText?_of_tokens (by decide +kernel) htuple,
      ofText?_of_tokens (by decide +kernel) htuple.nullable⟩
  · refine ⟨[classOfPair 62, overloadSymbol "(int,int)" 10 34], [], 1, hhanded, by decide +kernel,
      ?_⟩
    rw [SymbolIndex.symbol_eq_ok_iff, hfiles, hhanded]
    decide +kernel
  · rw [hfiles, hhanded]
    decide +kernel
  · rw [hfiles, hhanded]
    decide +kernel

end Compilation

end PartialDocs
