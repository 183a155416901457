import PartialDocs.Proofs.DocId.ExplicitInterfaces
import PartialDocs.Proofs.TypeRef.Separation

/-!
# Formal parameters

A declaration lists its formal parameters between parentheses.  Most of them are nodes of
their own.  The last one may be a parameter array, which takes all further arguments and
whose type stands right in the list.  A symbol records the nodes only
(`parametersOf_eq_filter`).  `formal_parameters_kept` says what this means for every
declaration of a compilation.  Where all formal parameters are nodes, each of them is
recorded and shown in the documentation ID, and overloads with different numbers of them
are not mistaken for each other.  Where one is not, it is lost.
-/

set_option autoImplicit false

namespace PartialDocs

open Declaration (parametersOf parameterOf spacedText takesParameters)

namespace Declaration

variable {source : Text} {t : Tree}

/-- Whether a child of a parameter list is a parameter. -/
def isParameterNode (t : Tree) : Bool := t.label.named && t.kind == "parameter"

/-- Whether a child of a parameter list is the type of a parameter array. -/
def isParameterArray (t : Tree) : Bool := !isParameterNode t && t.label.field == some "type"

/-- What stands for the formal parameters of a declaration in its list, in order. -/
def formalParameters (t : Tree) : List Tree :=
  match t.childByField? "parameters" with
  | none => []
  | some list => list.children.filter fun c => isParameterNode c || isParameterArray c

/-- The entry that a formal parameter should have. -/
def formalEntry (source : Text) (c : Tree) : Parameter :=
  if isParameterNode c then parameterOf source c else ⟨spacedText source c, false⟩

/-- The formal parameters of a declaration, as entries. -/
def formalEntries (source : Text) (t : Tree) : List Parameter :=
  (formalParameters t).map (formalEntry source)

/-- Whether all formal parameters of a declaration are nodes. -/
def AllNodes (t : Tree) : Prop := ∀ c ∈ formalParameters t, isParameterNode c = true

instance (t : Tree) : Decidable (AllNodes t) :=
  inferInstanceAs (Decidable (∀ c ∈ formalParameters t, isParameterNode c = true))

/-- The formal parameters that are nodes are recorded. -/
theorem parametersOf_eq_filter (source : Text) (t : Tree) :
    parametersOf source t =
      ((formalParameters t).filter isParameterNode).map (formalEntry source) := by
  unfold parametersOf formalParameters
  cases t.childByField? "parameters" with
  | none => rfl
  | some list =>
    have hnodes : list.namedChildren.filter (·.kind == "parameter") =
        list.children.filter isParameterNode := by
      unfold Tree.namedChildren
      rw [List.filter_filter]
      apply List.filter_congr
      intro c _
      exact Bool.and_comm _ _
    have hkept : (list.children.filter fun c => isParameterNode c || isParameterArray c).filter
        isParameterNode = list.children.filter isParameterNode := by
      rw [List.filter_filter]
      apply List.filter_congr
      intro c _
      cases isParameterNode c <;> rfl
    simp only
    rw [hnodes, hkept]
    apply List.map_congr_left
    intro c hc
    unfold formalEntry
    rw [if_pos (List.mem_filter.1 hc).2]

/-- Every formal parameter is recorded exactly where all of them are nodes. -/
theorem parametersOf_eq_formalEntries_iff (source : Text) (t : Tree) :
    parametersOf source t = formalEntries source t ↔ AllNodes t := by
  rw [parametersOf_eq_filter]
  constructor
  · intro h
    have hlength := congrArg List.length h
    rw [formalEntries, List.length_map, List.length_map] at hlength
    exact List.length_filter_eq_length_iff.1 hlength
  · intro h
    rw [List.filter_eq_self.2 h]
    rfl

end Declaration

open Declaration (formalParameters formalEntry formalEntries isParameterNode AllNodes
  parametersOf_eq_filter parametersOf_eq_formalEntries_iff)

/-- A key holds the spelling of the parameters of a member. -/
theorem IndexBuilder.spelling_of_key_eq {b : IndexBuilder} {s t : Symbol} {c : Nat}
    (member : s.kind.isType = false) (hc : s.container = some c) (h : b.key s = b.key t) :
    ∃ context other,
      encodeParameters context s.parameters = encodeParameters other t.parameters := by
  rw [key_of_member b member hc] at h
  cases ht : t.kind.isType with
  | true =>
    rw [key_of_type b ht] at h
    cases h
  | false =>
    cases hd : t.container with
    | none =>
      unfold key at h
      rw [hd] at h
      cases h
    | some d =>
      rw [key_of_member b ht hd] at h
      obtain ⟨-, -, -, -, hspelling⟩ := SymbolKey.member.inj h
      exact ⟨_, _, hspelling⟩

namespace Compilation

variable {files : List SourceFile} {x y : Symbol × Piece} {f g : SourceFile} {t u : Tree}

/-- A declaration that takes parameters has those of its node. -/
theorem MadeBy.parameters_eq (made : MadeBy files x f t)
    (takes : takesParameters x.1.kind = true) : x.1.parameters = parametersOf f.text t := by
  obtain ⟨-, -, s, hmakes, hsymbol⟩ := made
  have hkind : x.1.kind = s.kind := (congrArg Symbol.kind hsymbol :)
  have hparameters : x.1.parameters = s.parameters := (congrArg Symbol.parameters hsymbol :)
  rw [hparameters]
  exact hmakes.parameters_eq (hkind ▸ takes)

/-- Texts in parentheses, where there are any. -/
def parenthesized (texts : List Text) : Text :=
  if texts = [] then [] else '(' :: Text.joinWith [','] texts ++ [')']

/-- Where parameters are shown, they stand in parentheses, if there are any. -/
theorem parameterList_eq_parenthesized {s : Symbol} (context : TypeContext)
    (shows : s.kind.showsParameters = true) :
    parameterList context s = parenthesized (s.parameters.map (encodeParameter context)) := by
  unfold parenthesized
  by_cases h : s.parameters = []
  · rw [parameterList_of_eq_nil h, if_pos (List.map_eq_nil_iff.2 h)]
  · rw [parameterList_of_shown shows h, if_neg (fun hnil => h (List.map_eq_nil_iff.1 hnil))]
    rfl

/-- The formal parameters of a declaration as a documentation ID has them between the name of a
member and the target of a conversion. -/
def ShowsFormals (files : List SourceFile) (s : Symbol) (formals : List Parameter) : Prop :=
  ∀ i, (ofFiles files).index.symbol i = .ok s →
    (ofFiles files).index.docId i = .ok (s.kind.idPrefix ++
      (dottedName (chainAround (ofFiles files).index.symbols s) ++ '.' :: (memberName s ++
        (arityMark s ++
          (parenthesized (formals.map
              (encodeParameter (contextOf (ofFiles files).index.symbols s))) ++
            targetMark (target? (contextOf (ofFiles files).index.symbols s) s))))))

/-- A member that has its formal parameters shows them. -/
theorem showsFormals_of_eq {s : Symbol} {formals : List Parameter}
    (shows : s.kind.showsParameters = true) (h : s.parameters = formals) :
    ShowsFormals files s formals := by
  intro i hi
  have hmember : s.kind.isType = false := by
    cases hkind : s.kind <;> simp_all [SymbolKind.isType, SymbolKind.showsParameters]
  rw [docId_ofFiles hi, placedDocId_of_member hmember, memberText_eq,
    parameterList_eq_parenthesized _ shows, h]

/-- Whether a declaration meets another one among the symbols: its key is taken when it comes, and
the symbol that has the key is that of the other one. -/
def Meets (files : List SourceFile) (x y : Symbol × Piece) : Prop :=
  ∃ before after i, handed files = before ++ y :: after ∧
    (IndexBuilder.empty.addAll before).find? ((IndexBuilder.empty.addAll before).key y.1) =
      some i ∧
    (ofFiles files).index.symbol i = .ok x.1

/-- A declaration that meets another one has its key. -/
theorem Meets.exists_key_eq (h : Meets files x y) : ∃ b : IndexBuilder, b.key x.1 = b.key y.1 := by
  obtain ⟨before, after, i, here, hfind, hi⟩ := h
  obtain ⟨hsound, -⟩ := allowed_of_handed here
  obtain ⟨s, hs, hkey⟩ := (hsound.keyed _ i).1 hfind
  -- the symbol is still there when all declarations have been added
  have hlater : (builderOf files).symbols[i]? = some s := by
    rw [builderOf_eq_addAll, here, IndexBuilder.addAll_append]
    exact IndexBuilder.symbols_getElem?_addAll _ _ hs
  rw [SymbolIndex.symbol_eq_ok_iff, symbols_ofFiles, hlater] at hi
  obtain rfl := Option.some.inj hi
  exact ⟨_, hkey⟩

/-- Overloads with different numbers of formal parameters have different keys. -/
theorem key_ne_of_length_ne (hx : x ∈ handed files) (made : MadeBy files x f t)
    (made' : MadeBy files y g u) (member : x.1.kind.isType = false)
    (takes : takesParameters x.1.kind = true) (takes' : takesParameters y.1.kind = true)
    (nodes : AllNodes t) (nodes' : AllNodes u)
    (spelled : ∀ p ∈ formalEntries f.text t, WellSpelled p)
    (spelled' : ∀ p ∈ formalEntries g.text u, WellSpelled p)
    (differ : (formalParameters t).length ≠ (formalParameters u).length) :
    ∀ b : IndexBuilder, b.key x.1 ≠ b.key y.1 := by
  intro b hkey
  obtain ⟨before, after, here⟩ := List.append_of_mem hx
  obtain ⟨c, hc⟩ := (placed_of_handed here).exists_container member
  obtain ⟨context, other, hspelling⟩ := IndexBuilder.spelling_of_key_eq member hc hkey
  rw [made.parameters_eq takes, made'.parameters_eq takes',
    (parametersOf_eq_formalEntries_iff _ _).2 nodes,
    (parametersOf_eq_formalEntries_iff _ _).2 nodes'] at hspelling
  have hlength := length_eq_of_encodeParameters_eq spelled spelled' hspelling
  rw [formalEntries, formalEntries, List.length_map, List.length_map] at hlength
  exact differ hlength

/-- What becomes of the formal parameters of a declaration that a node has made. -/
structure FormalsKept (files : List SourceFile) (x : Symbol × Piece) (f : SourceFile) (t : Tree) :
    Prop where
  /-- The nodes among them are recorded in order. -/
  recorded : x.1.parameters =
    ((formalParameters t).filter isParameterNode).map (formalEntry f.text)
  complete : x.1.parameters = formalEntries f.text t ↔ AllNodes t
  shown : AllNodes t → x.1.kind.showsParameters = true →
    ShowsFormals files x.1 (formalEntries f.text t)
  apart : AllNodes t → x.1.kind.isType = false →
    (∀ p ∈ formalEntries f.text t, WellSpelled p) →
    ∀ (y : Symbol × Piece) (g : SourceFile) (u : Tree), MadeBy files y g u →
      takesParameters y.1.kind = true → AllNodes u →
      (∀ p ∈ formalEntries g.text u, WellSpelled p) →
      (formalParameters t).length ≠ (formalParameters u).length →
      ¬ Meets files x y ∧ ¬ Meets files y x

/-- **A declaration keeps its formal parameters exactly where all of them are nodes.**  Then the
documentation ID lists them all, and a member does not meet an overload with another number of
formal parameters. -/
theorem formal_parameters_kept (files : List SourceFile) (hx : x ∈ handed files)
    (takes : takesParameters x.1.kind = true) :
    (∃ f t, MadeBy files x f t) ∧
      ∀ (f : SourceFile) (t : Tree), MadeBy files x f t → FormalsKept files x f t := by
  refine ⟨exists_madeBy hx, ?_⟩
  intro f t made
  have hparameters := made.parameters_eq takes
  have hcomplete : x.1.parameters = formalEntries f.text t ↔ AllNodes t := by
    rw [hparameters]
    exact parametersOf_eq_formalEntries_iff _ _
  refine ⟨?_, hcomplete, ?_, ?_⟩
  · rw [hparameters]
    exact parametersOf_eq_filter _ _
  · intro nodes shows
    exact showsFormals_of_eq shows (hcomplete.2 nodes)
  · intro nodes member spelled y g u made' takes' nodes' spelled' differ
    have hkey := key_ne_of_length_ne hx made made' member takes takes' nodes nodes' spelled
      spelled' differ
    constructor
    · intro hmeets
      obtain ⟨b, hb⟩ := hmeets.exists_key_eq
      exact hkey b hb
    · intro hmeets
      obtain ⟨b, hb⟩ := hmeets.exists_key_eq
      exact hkey b hb.symm

/-! ## Overloads of a method -/

/-- Each of the two members is made by its node. -/
theorem madeBy_memberOfPair {text : String} {stop : Nat} {first second t : Tree}
    {kind : SymbolKind} (mem : t = first ∨ t = second)
    (node : SymbolKind.ofMemberNode? t.kind = some kind)
    (single : Declaration.hasDeclarators t = false)
    (whole : Declaration.memberRole
      (Declaration.memberSymbol (pairOf text stop first second).text kind t) t = .whole) :
    MadeBy [pairOf text stop first second]
      (memberOfPair (pairOf text stop first second) kind t) (pairOf text stop first second) t := by
  refine ⟨rfl, within_pairOf mem, _, ?_, rfl⟩
  have h : Declaration.Makes 0 (pairOf text stop first second).text t _ _ := .member node single
  rw [whole] at h
  exact h

/-- A method M without a result, whose parameter list ends at the given byte. -/
def overload (start close : Nat) (parameters : List Tree) : Tree :=
  .named "method_declaration" start (close + 5) none
    [.named "predefined_type" start (start + 4) (some "returns") [],
     .named "identifier" (start + 5) (start + 6) (some "name") [],
     .named "parameter_list" (start + 6) (close + 1) (some "parameters")
      (.token "(" (start + 6) (start + 7) :: parameters ++ [.token ")" close (close + 1)]),
     .named "block" (close + 2) (close + 5) (some "body") []]

/-- A parameter a of a generic type with two arguments. -/
def genericParameter (start : Nat) : Tree :=
  .named "parameter" start (start + 16) none
    [.named "generic_name" start (start + 14) (some "type")
      [.named "identifier" start (start + 1) none [],
       .named "type_argument_list" (start + 1) (start + 14) none
        [.token "<" (start + 1) (start + 2),
         .named "predefined_type" (start + 2) (start + 5) none [],
         .token "," (start + 5) (start + 6),
         .named "predefined_type" (start + 7) (start + 13) none [],
         .token ">" (start + 13) (start + 14)]],
     .named "identifier" (start + 15) (start + 16) (some "name") []]

/-- A method with one parameter of a generic type. -/
def shorterOverload : Tree := overload 10 33 [genericParameter 17]

/-- A method with another parameter behind it. -/
def longerOverload : Tree :=
  overload 39 69
    [genericParameter 46, .token "," 62 63,
     .named "parameter" 64 69 none
      [.named "predefined_type" 64 67 (some "type") [], .named "identifier" 68 69 (some "name") []]]

/-- A class with both methods. -/
def twoOverloads : SourceFile :=
  pairOf "class A \x7b void M(D<int, string> a) \x7b \x7d void M(D<int, string> a, int b) \x7b \x7d \x7d"
    76 shorterOverload longerOverload

/-- The class and its methods as they are handed on. -/
theorem handed_twoOverloads : handed [twoOverloads] =
    [classOfPair 76, memberOfPair twoOverloads .method shorterOverload,
      memberOfPair twoOverloads .method longerOverload] := by
  decide +kernel

/-- The node of the shorter one. -/
theorem madeBy_shorterOverload : MadeBy [twoOverloads]
    (memberOfPair twoOverloads .method shorterOverload) twoOverloads shorterOverload := by
  unfold twoOverloads
  exact madeBy_memberOfPair (.inl rfl) (by decide +kernel) (by decide +kernel) (by decide +kernel)

/-- The node of the longer one. -/
theorem madeBy_longerOverload : MadeBy [twoOverloads]
    (memberOfPair twoOverloads .method longerOverload) twoOverloads longerOverload := by
  unfold twoOverloads
  exact madeBy_memberOfPair (.inr rfl) (by decide +kernel) (by decide +kernel) (by decide +kernel)

/-- A comma between type arguments is not taken for one between parameters. -/
theorem formal_parameters_kept_twoOverloads :
    memberOfPair twoOverloads .method shorterOverload ∈ handed [twoOverloads] ∧
    takesParameters (memberOfPair twoOverloads .method shorterOverload).1.kind = true ∧
    FormalsKept [twoOverloads] (memberOfPair twoOverloads .method shorterOverload) twoOverloads
      shorterOverload ∧
    ¬ Meets [twoOverloads] (memberOfPair twoOverloads .method shorterOverload)
      (memberOfPair twoOverloads .method longerOverload) := by
  have hmem : memberOfPair twoOverloads .method shorterOverload ∈ handed [twoOverloads] := by
    rw [handed_twoOverloads]
    exact List.mem_cons_of_mem _ List.mem_cons_self
  have htakes :
      takesParameters (memberOfPair twoOverloads .method shorterOverload).1.kind = true := by
    decide +kernel
  have hkept := (formal_parameters_kept [twoOverloads] hmem htakes).2 _ _ madeBy_shorterOverload
  have hapart := hkept.apart (by decide +kernel) (by decide +kernel) (by decide +kernel) _ _ _
    madeBy_longerOverload (by decide +kernel) (by decide +kernel) (by decide +kernel)
    (by decide +kernel)
  exact ⟨hmem, htakes, hkept, hapart.1⟩

/-! ## A parameter array -/

/-- A method without parameters. -/
def plainOverload : Tree := overload 10 17 []

/-- A method whose only parameter is a parameter array. -/
def arrayOverload : Tree :=
  overload 23 44
    [.token "params" 30 36,
     .named "array_type" 37 42 (some "type")
      [.named "predefined_type" 37 40 (some "type") [],
       .named "array_rank_specifier" 40 42 (some "rank") [.token "[" 40 41, .token "]" 41 42]],
     .named "identifier" 43 44 (some "name") []]

/-- A class with a method without parameters and one with a parameter array. -/
def arrayPair : SourceFile :=
  pairOf "class A \x7b void M() \x7b \x7d void M(params int[] a) \x7b \x7d \x7d" 51 plainOverload
    arrayOverload

/-- A parameter array is lost, and with it the second of two overloads. -/
theorem parameter_array_lost :
    handed [arrayPair] =
      [classOfPair 51, memberOfPair arrayPair .method plainOverload,
        memberOfPair arrayPair .method arrayOverload] ∧
    Declaration.formalEntries arrayPair.text plainOverload = [] ∧
    Declaration.formalEntries arrayPair.text arrayOverload = [⟨"int[]".toList, false⟩] ∧
    (memberOfPair arrayPair .method arrayOverload).1.parameters = [] ∧
    Meets [arrayPair] (memberOfPair arrayPair .method plainOverload)
      (memberOfPair arrayPair .method arrayOverload) ∧
    (ofFiles [arrayPair]).index.size = 2 := by
  refine ⟨by decide +kernel, by decide +kernel, by decide +kernel, by decide +kernel, ?_,
    by decide +kernel⟩
  refine ⟨[classOfPair 51, memberOfPair arrayPair .method plainOverload], [], 1,
    by decide +kernel, by decide +kernel, ?_⟩
  rw [SymbolIndex.symbol_eq_ok_iff]
  decide +kernel

end Compilation

end PartialDocs
