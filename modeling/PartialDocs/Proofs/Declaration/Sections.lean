import PartialDocs.Proofs.Compilation.Handover

/-!
# Sections of conditional compilation

Declarations between the lines `#if`, `#elif`, `#else` and `#endif` stand below section nodes.
The walk over a file knows no such node and passes over it with all that it holds.
`handed_section_iff` says what this costs: a section can be opened without a difference
exactly when nothing is declared in it, a namespace for the rest of the file included.
-/

set_option autoImplicit false

namespace PartialDocs

namespace Tree

/-- Whether a node is a section of conditional compilation. -/
def isSection (t : Tree) : Bool :=
  t.label.named && ["preproc_if", "preproc_elif", "preproc_else"].contains t.kind

mutual

/-- A node as a list, or what a section holds. -/
def opened : Tree → List Tree
  | .node l cs => if isSection (.node l cs) then openedAll cs else [.node l cs]

/-- Nodes below a section without its words and its condition, sections among them opened. -/
def openedAll : List Tree → List Tree
  | [] => []
  | t :: ts =>
    if t.label.named && t.label.field != some "condition" then opened t ++ openedAll ts
    else openedAll ts

end

/-- What a section holds, in all its branches. -/
def held (t : Tree) : List Tree := openedAll t.children

end Tree

namespace Declaration

/-- Where declarations stand next to each other. -/
inductive Place where
  /-- A compilation unit, or the body of a namespace or of a type that is no enumeration. -/
  | body (scope : Scope)
  | enumeration

namespace Place

variable (file : Nat) (source : Text)

/-- The declarations that neighbouring nodes make. -/
def declarations : Place → List Tree → List Declaration
  | body scope, ts => ofSiblings file source scope ts
  | enumeration, ts => enumMembers file source ts

/-- The place of what comes after some nodes. -/
def past : Place → List Tree → Place
  | body scope, ts => body (ts.foldl (scopeAfter source) scope)
  | enumeration, _ => enumeration

end Place

variable {file : Nat} {source : Text}

/-- A file is walked over from the children of its root. -/
theorem outline_eq_declarations (f : SourceFile) (ordinal : Nat) :
    f.outline ordinal = (Place.body .file).declarations ordinal f.text f.tree.children := by
  unfold SourceFile.outline
  cases f.tree with
  | node l cs => exact ofChildren.eq_1 ordinal f.text .file l cs

/-! ## Walking past nodes -/

/-- Neighbouring nodes make their declarations in turn, the scope passing on. -/
theorem ofSiblings_append (scope : Scope) (ts us : List Tree) :
    ofSiblings file source scope (ts ++ us) =
      ofSiblings file source scope ts ++
        ofSiblings file source (ts.foldl (scopeAfter source) scope) us := by
  induction ts generalizing scope with
  | nil =>
    rw [ofSiblings.eq_1]
    rfl
  | cons t ts ih =>
    rw [List.cons_append, ofSiblings.eq_2, ofSiblings.eq_2, ih, List.append_assoc, List.foldl_cons]

/-- The members of an enumeration in turn. -/
theorem enumMembers_append (ts us : List Tree) :
    enumMembers file source (ts ++ us) =
      enumMembers file source ts ++ enumMembers file source us := by
  unfold enumMembers
  rw [List.filter_append, List.map_append]

/-- The declarations of a place in turn. -/
theorem Place.declarations_append (place : Place) (ts us : List Tree) :
    place.declarations file source (ts ++ us) =
      place.declarations file source ts ++ (place.past source ts).declarations file source us := by
  cases place with
  | body scope => exact ofSiblings_append scope ts us
  | enumeration => exact enumMembers_append ts us

/-- Without nodes nothing is declared. -/
theorem Place.declarations_nil (place : Place) : place.declarations file source [] = [] := by
  cases place with
  | body scope => exact ofSiblings.eq_1 file source scope
  | enumeration => rfl

/-! ## Nodes that declare nothing -/

/-- Whether the walk over a file does more with a node than pass over it. -/
def isDeclarationNode (t : Tree) : Bool :=
  t.label.named &&
    (["namespace_declaration", "file_scoped_namespace_declaration"].contains t.kind ||
      (SymbolKind.ofTypeNode? t.kind).isSome || (SymbolKind.ofMemberNode? t.kind).isSome)

/-- A node that is no declaration makes none. -/
theorem ofNode_of_bystander {t : Tree} (h : isDeclarationNode t = false) (scope : Scope) :
    ofNode file source scope t = [] := by
  obtain ⟨l, cs⟩ := t
  unfold isDeclarationNode at h
  rw [Bool.and_eq_false_iff] at h
  rcases h with hnamed | hkind
  · unfold ofNode
    simp [show l.named = false from hnamed]
  · simp only [Bool.or_eq_false_iff, Option.isSome_eq_false_iff, Option.isNone_iff_eq_none] at hkind
    obtain ⟨⟨hnameSpace, htype⟩, hmember⟩ := hkind
    have hnot : l.kind ≠ "namespace_declaration" ∧
      l.kind ≠ "file_scoped_namespace_declaration" := by
      simpa [Tree.kind, Tree.label] using hnameSpace
    unfold ofNode
    simp [hnot, show SymbolKind.ofTypeNode? l.kind = none from htype,
      show SymbolKind.ofMemberNode? l.kind = none from hmember]

/-- A node that is no declaration leaves the scope. -/
theorem scopeAfter_of_bystander {t : Tree} (h : isDeclarationNode t = false) (scope : Scope) :
    scopeAfter source scope t = scope := by
  unfold scopeAfter
  rw [if_neg]
  intro hkind
  rw [Bool.and_eq_true, beq_iff_eq] at hkind
  unfold isDeclarationNode at h
  rw [hkind.1, hkind.2] at h
  cases h

/-- Nodes that declare nothing are passed over. -/
theorem ofSiblings_filter (scope : Scope) (ts : List Tree) :
    ofSiblings file source scope (ts.filter isDeclarationNode) =
      ofSiblings file source scope ts := by
  induction ts generalizing scope with
  | nil => rfl
  | cons t ts ih =>
    by_cases ht : isDeclarationNode t = true
    · rw [List.filter_cons_of_pos ht, ofSiblings.eq_2, ofSiblings.eq_2, ih]
    · have hnot : isDeclarationNode t = false := by simpa using ht
      rw [List.filter_cons_of_neg ht, ofSiblings.eq_2, ofNode_of_bystander hnot,
        scopeAfter_of_bystander hnot, ih, List.nil_append]

/-! ## Walking past a section -/

/-- A section is a node of one of three kinds. -/
theorem kind_of_isSection {t : Tree} (h : t.isSection = true) :
    t.label.named = true ∧ (t.label.kind = "preproc_if" ∨ t.label.kind = "preproc_elif" ∨
      t.label.kind = "preproc_else") := by
  unfold Tree.isSection at h
  simpa [Tree.kind] using h

/-- A section is no declaration. -/
theorem not_isDeclarationNode_of_isSection {t : Tree} (h : t.isSection = true) :
    isDeclarationNode t = false := by
  obtain ⟨-, hkind⟩ := kind_of_isSection h
  unfold isDeclarationNode Tree.kind
  rcases hkind with hkind | hkind | hkind <;> rw [hkind] <;> exact Bool.and_false _

/-- A section is no member of an enumeration. -/
theorem enumMembers_section {t : Tree} (h : t.isSection = true) (ts : List Tree) :
    enumMembers file source (t :: ts) = enumMembers file source ts := by
  obtain ⟨-, hkind⟩ := kind_of_isSection h
  unfold enumMembers
  rw [List.filter_cons_of_neg]
  rcases hkind with hkind | hkind | hkind <;> simp [Tree.kind, hkind]

/-- A section is passed over. -/
theorem Place.declarations_section {t : Tree} (h : t.isSection = true) (place : Place)
    (ts : List Tree) :
    place.declarations file source (t :: ts) = place.declarations file source ts := by
  cases place with
  | body scope =>
    change ofSiblings file source scope (t :: ts) = ofSiblings file source scope ts
    have hnot := not_isDeclarationNode_of_isSection h
    rw [ofSiblings.eq_2, ofNode_of_bystander hnot, scopeAfter_of_bystander hnot, List.nil_append]
  | enumeration => exact enumMembers_section h ts

/-! ## Scopes -/

/-- How much of a scope is namespace. -/
def Scope.depth (scope : Scope) : Nat := scope.nameSpace.elim 0 fun name => name.length + 1

/-- A namespace lies deeper than what is around it. -/
theorem Scope.depth_lt_enter (scope : Scope) (name : Text) :
    scope.depth < (scope.enter name).depth := by
  unfold depth enter
  cases scope.nameSpace with
  | none => simp
  | some outer => simp

/-- A scope is left as it is or gets a longer namespace. -/
theorem scope_past (ts : List Tree) (scope : Scope) :
    ts.foldl (scopeAfter source) scope = scope ∨
      scope.depth < (ts.foldl (scopeAfter source) scope).depth := by
  induction ts generalizing scope with
  | nil => exact .inl rfl
  | cons t ts ih =>
    rw [List.foldl_cons]
    by_cases hkind : (t.label.named && t.kind == "file_scoped_namespace_declaration") = true
    · right
      have hscope : scopeAfter source scope t = scope.enter (nameOf source t) := if_pos hkind
      rw [hscope]
      have hlt := scope.depth_lt_enter (nameOf source t)
      rcases ih (scope.enter (nameOf source t)) with hsame | hdeeper
      · rwa [hsame]
      · exact Nat.lt_trans hlt hdeeper
    · have hscope : scopeAfter source scope t = scope := if_neg hkind
      rw [hscope]
      exact ih scope

end Declaration

namespace IndexBuilder

/-- Without declarations nothing is handed on. -/
theorem handedAll_nil (b : IndexBuilder) (container : Option SymbolId) :
    b.handedAll container [] = [] := handedAll.eq_1 b container

/-- Declarations are handed on in turn. -/
theorem handedAll_append (b : IndexBuilder) (container : Option SymbolId)
    (ds es : List Declaration) :
    b.handedAll container (ds ++ es) =
      b.handedAll container ds ++ (b.enterAll container ds).handedAll container es := by
  induction ds generalizing b with
  | nil =>
    rw [handedAll_nil, enterAll.eq_1]
    rfl
  | cons d ds ih =>
    rw [List.cons_append, handedAll.eq_2, handedAll.eq_2, enterAll.eq_2, ih, List.append_assoc]

/-- Of several declarations at least the first one is handed over. -/
theorem handedAll_eq_nil_iff {b : IndexBuilder} {container : Option SymbolId}
    {ds : List Declaration} : b.handedAll container ds = [] ↔ ds = [] := by
  cases ds with
  | nil => simp [handedAll_nil]
  | cons d ds =>
    obtain ⟨s, p, members⟩ := d
    rw [handedAll.eq_2, handed.eq_1]
    simp

end IndexBuilder

namespace Declaration

variable {file : Nat} {source : Text}

/-- A class without anything, which shows the namespace in which it stands. -/
def bareClass : Tree := .named "class_declaration" 0 0 none []

/-- The one declaration of a class without members. -/
theorem declarations_bareClass (scope : Scope) :
    (Place.body scope).declarations file source [bareClass] =
      [.mk (typeSymbol source .class scope.nameSpace bareClass)
        (pieceOf source file
          (if (typeSymbol source .class scope.nameSpace bareClass).isPartial then .part else .whole)
          bareClass) []] := by
  change ofSiblings file source scope [bareClass] = _
  rw [ofSiblings.eq_2, ofSiblings.eq_1]
  rfl

/-- Places that hand over the same bare class are in the same namespace. -/
theorem nameSpace_of_handed {b b' : IndexBuilder} {container : Option SymbolId}
    {scope scope' : Scope}
    (h : b.handedAll container ((Place.body scope).declarations file source [bareClass]) =
      b'.handedAll container ((Place.body scope').declarations file source [bareClass])) :
    scope.nameSpace = scope'.nameSpace := by
  rw [declarations_bareClass, declarations_bareClass, IndexBuilder.handedAll.eq_2,
    IndexBuilder.handedAll.eq_2, IndexBuilder.handed.eq_1, IndexBuilder.handed.eq_1] at h
  have hfirst := congrArg Prod.fst (List.cons.inj h).1
  exact congrArg Symbol.nameSpace hfirst

/-- **Opening a section makes no difference exactly when nothing is declared in it.** -/
theorem handed_section_iff (file : Nat) (source : Text) (place : Place) (before : List Tree)
    (x : Tree)
    (hx : x.isSection = true) :
    (∀ (after : List Tree) (b : IndexBuilder) (container : Option SymbolId),
      b.handedAll container (place.declarations file source (before ++ x :: after)) =
        b.handedAll container (place.declarations file source (before ++ (x.held ++ after)))) ↔
      (place.past source before).declarations file source x.held = [] ∧
        (place.past source before).past source x.held = place.past source before := by
  -- what comes before is the same on both sides
  have hcancel : ∀ (after : List Tree) (b : IndexBuilder) (container : Option SymbolId),
      b.handedAll container (place.declarations file source (before ++ x :: after)) =
        b.handedAll container (place.declarations file source (before ++ (x.held ++ after))) ↔
      (b.enterAll container (place.declarations file source before)).handedAll container
          ((place.past source before).declarations file source after) =
        (b.enterAll container (place.declarations file source before)).handedAll container
          ((place.past source before).declarations file source x.held ++
            ((place.past source before).past source x.held).declarations file source after) := by
    intro after b container
    rw [Place.declarations_append, Place.declarations_append, Place.declarations_section hx,
      Place.declarations_append, IndexBuilder.handedAll_append, IndexBuilder.handedAll_append,
      List.append_cancel_left_eq]
  constructor
  · intro h
    have hheld : (place.past source before).declarations file source x.held = [] := by
      have hnone := (hcancel [] .empty none).1 (h [] .empty none)
      rw [Place.declarations_nil, Place.declarations_nil, List.append_nil,
        IndexBuilder.handedAll_nil] at hnone
      exact IndexBuilder.handedAll_eq_nil_iff.1 hnone.symm
    refine ⟨hheld, ?_⟩
    have hclass := (hcancel [bareClass] .empty none).1 (h [bareClass] .empty none)
    rw [hheld, List.nil_append] at hclass
    cases place with
    | enumeration => rfl
    | body scope =>
      have hnameSpace := nameSpace_of_handed hclass
      rcases scope_past x.held (before.foldl (scopeAfter source) scope) with hsame | hdeeper
      · exact congrArg Place.body hsame
      · unfold Scope.depth at hdeeper
        rw [hnameSpace] at hdeeper
        exact absurd hdeeper (Nat.lt_irrefl _)
  · rintro ⟨hheld, hpast⟩ after b container
    rw [hcancel, hheld, hpast, List.nil_append]

/-! ## A class in a section -/

/-- A class between the lines of a section. -/
def guardedClass : Tree :=
  .named "preproc_if" 0 24 none
    [.token "#if" 0 3, .named "identifier" 4 5 (some "condition") [],
     .named "class_declaration" 6 17 none
      [.token "class" 6 11, .named "identifier" 12 13 (some "name") [],
       .named "declaration_list" 14 17 (some "body")
        [.token "\x7b" 14 15, .token "\x7d" 16 17]],
     .token "#endif" 18 24]

/-- The file of these lines, with the given nodes in its compilation unit. -/
def guardedFile (nodes : List Tree) : SourceFile where
  path := "file0.cs".toList
  text := "#if A\nclass X \x7b \x7d\n#endif\n".toList
  tree := .named "compilation_unit" 0 25 none nodes

/-- The class is handed over when the section is opened. -/
theorem handed_opened : Compilation.handed [guardedFile guardedClass.held] =
    [({ name := ['X'], kind := .class }, ⟨0, 6, 17, 1, 0, "class_declaration", .whole⟩)] := by
  decide +kernel

/-- The section hides the class. -/
theorem section_hides_class : guardedClass.isSection = true ∧
    Compilation.handed [guardedFile [guardedClass]] ≠
      Compilation.handed [guardedFile guardedClass.held] := by
  rw [handed_opened]
  decide +kernel

/-- So opening it makes a difference. -/
theorem handed_section_iff_guardedClass : guardedClass.isSection = true ∧
    ¬ ∀ (after : List Tree) (b : IndexBuilder) (container : Option SymbolId),
      b.handedAll container ((guardedFile (guardedClass :: after)).outline 0) =
        b.handedAll container ((guardedFile (guardedClass.held ++ after)).outline 0) := by
  have hsection : guardedClass.isSection = true := by decide +kernel
  have hdeclared : (Place.body .file).declarations 0
    (guardedFile []).text guardedClass.held ≠ [] := by
    decide +kernel
  refine ⟨hsection, fun h => ?_⟩
  have hiff := handed_section_iff 0 (guardedFile []).text (.body .file) [] guardedClass hsection
  refine hdeclared (hiff.1 ?_).1
  intro after b container
  have hsame := h after b container
  rwa [outline_eq_declarations, outline_eq_declarations] at hsame

end Declaration

end PartialDocs
