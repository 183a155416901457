import PartialDocs.Proofs.Compilation.Handover
import PartialDocs.Proofs.Declaration.Sections
import PartialDocs.Proofs.Declaration.Shift
import PartialDocs.Proofs.Syntax.InOrder
import PartialDocs.Proofs.Text.Stretches

/-!
# Forms of namespaces

Declarations may stand in a namespace in three ways: behind a namespace for the rest of the file, in
the block of a namespace with a dotted name, or in nested blocks, one for each part of the name.
The walk comes to the declarations with one and the same scope (`ofChildren_of_blocks`,
`ofChildren_of_fileScoped`), so that files in the three forms can stand for each other in every
compilation (`namespace_forms_interchangeable`).
-/

set_option autoImplicit false

namespace PartialDocs

namespace Tree

/-- The children at which the walk over a file does more than pass over them. -/
def declarationNodes (t : Tree) : List Tree := t.children.filter Declaration.isDeclarationNode

/-- The tree does not change when no byte moves. -/
theorem move_id (t : Tree) : t.move id = t := by
  have hmove := shift_eq_move 0 t
  rw [shift_zero] at hmove
  exact hmove.symm

/-- Trees whose bytes stay are the same. -/
theorem moveAll_id (ts : List Tree) : moveAll id ts = ts := by
  rw [moveAll_eq_map, funext move_id]
  exact List.map_id ts

end Tree

namespace Declaration

variable {file : Nat} {source source' : Text} {ds : List Tree} {names : List Text} {name : Text}
  {t : Tree}

/-! ## Scopes -/

/-- The parts of a name are entered one after another, or all at once. -/
theorem Scope.foldl_enter (scope : Scope) (hnames : names ≠ []) :
    names.foldl Scope.enter scope = scope.enter (Text.joinWith ['.'] names) := by
  induction names generalizing scope with
  | nil => exact absurd rfl hnames
  | cons name names ih =>
    cases names with
    | nil => rfl
    | cons next names =>
      rw [List.foldl_cons, ih _ (List.cons_ne_nil _ _)]
      unfold Scope.enter
      cases scope.nameSpace <;> simp [Text.joinWith]

/-! ## Forms -/

/-- Whether a node holds declarations in blocks of namespaces with the given names, one inside the
other. -/
inductive Blocks (source : Text) (ds : List Tree) : List Text → Tree → Prop
  | nil {t : Tree} (nodes : t.declarationNodes = ds) : Blocks source ds [] t
  | cons {t block body : Tree} {name : Text} {names : List Text}
      (nodes : t.declarationNodes = [block]) (kind : block.kind = "namespace_declaration")
      (named : nameOf source block = name) (found : block.childByField? "body" = some body)
      (inside : Blocks source ds names body) : Blocks source ds (name :: names) t

/-- Whether a node holds declarations behind a namespace for the rest of the file. -/
def FileScoped (source : Text) (ds : List Tree) (name : Text) (t : Tree) : Prop :=
  ∃ head, t.declarationNodes = head :: ds ∧ head.kind = "file_scoped_namespace_declaration" ∧
    nameOf source head = name ∧ head.declarationNodes = []

/-- The first node among the declarations is no bare token. -/
theorem named_of_declarationNodes {ts : List Tree} {u : Tree} (h : t.declarationNodes = u :: ts) :
    u.label.named = true := by
  have hmem : u ∈ t.declarationNodes := h ▸ List.mem_cons_self
  have hnode := (List.mem_filter.1 hmem).2
  unfold isDeclarationNode at hnode
  exact (Bool.and_eq_true_iff.1 hnode).1

/-- Only the nodes for declarations below a node count. -/
theorem ofChildren_eq_ofSiblings (scope : Scope) (t : Tree) :
    ofChildren file source scope t = ofSiblings file source scope t.declarationNodes := by
  cases t with
  | node l cs =>
    rw [ofChildren.eq_1]
    exact (ofSiblings_filter scope cs).symm

/-- The body of a node is walked over where there is one. -/
theorem ofBody_eq_ofChildren {ts : List Tree} {body : Tree}
    (h : ts.find? (fun c => c.label.field == some "body") = some body) (scope : Scope) :
    ofBody file source scope ts = ofChildren file source scope body := by
  induction ts with
  | nil => cases h
  | cons t ts ih =>
    rw [List.find?_cons] at h
    rw [ofBody.eq_2]
    split
    · rename_i hfield
      rw [hfield] at h
      rw [Option.some.inj h]
    · rename_i hfield
      rw [Bool.eq_false_iff.2 hfield] at h
      exact ih h

/-- A namespace with a body makes the declarations of its body. -/
theorem ofNode_block {body : Tree} (named : t.label.named = true)
    (kind : t.kind = "namespace_declaration") (found : t.childByField? "body" = some body)
    (scope : Scope) :
    ofNode file source scope t = ofChildren file source (scope.enter (nameOf source t)) body := by
  obtain ⟨l, cs⟩ := t
  have hnamed : l.named = true := named
  have hkind : l.kind = "namespace_declaration" := kind
  rw [ofNode.eq_1]
  simp only [hnamed, hkind, Bool.not_true, Bool.false_eq_true, if_false, beq_self_eq_true, if_true]
  exact ofBody_eq_ofChildren found _

/-- **In blocks the walk comes to the declarations with the names of all blocks entered.** -/
theorem ofChildren_of_blocks (h : Blocks source ds names t) (scope : Scope) :
    ofChildren file source scope t =
      ofSiblings file source (names.foldl Scope.enter scope) ds := by
  induction h generalizing scope with
  | nil nodes => rw [ofChildren_eq_ofSiblings, nodes, List.foldl_nil]
  | @cons t block body name names nodes kind named found _ ih =>
    have hscope : ofSiblings file source scope [block] = ofNode file source scope block := by
      rw [ofSiblings.eq_2, ofSiblings.eq_1, List.append_nil]
    rw [ofChildren_eq_ofSiblings, nodes, hscope,
      ofNode_block (named_of_declarationNodes nodes) kind found, named, ih, List.foldl_cons]

/-- **Behind a namespace for the rest of the file the walk comes to the declarations with its name
entered.** -/
theorem ofChildren_of_fileScoped (h : FileScoped source ds name t) (scope : Scope) :
    ofChildren file source scope t = ofSiblings file source (scope.enter name) ds := by
  obtain ⟨head, nodes, kind, rfl, empty⟩ := h
  have hnamed := named_of_declarationNodes nodes
  have hhead : ofNode file source scope head = [] := by
    obtain ⟨l, cs⟩ := head
    have hnamed : l.named = true := hnamed
    have hkind : l.kind = "file_scoped_namespace_declaration" := kind
    have hempty : cs.filter isDeclarationNode = [] := empty
    have hinside : ofSiblings file source (scope.enter (nameOf source (.node l cs))) cs = [] := by
      rw [← ofSiblings_filter, hempty, ofSiblings.eq_1]
    rw [ofNode.eq_1]
    simp [hnamed, hkind, hinside]
  have hscope : scopeAfter source scope head = scope.enter (nameOf source head) :=
    if_pos (by simp [hnamed, kind])
  rw [ofChildren_eq_ofSiblings, nodes, ofSiblings.eq_2, hhead, hscope, List.nil_append]

/-! ## Declarations in another text -/

/-- Whether declarations say in another text at the same bytes what they said, and stand in the same
rows and columns. -/
structure ReadAlike (source source' : Text) (ds : List Tree) : Prop where
  rereads : ∀ d ∈ ds, ∀ u, Tree.Within u d → Rereads .same id source source' u
  position : ∀ d ∈ ds, ∀ u, Tree.Within u d →
    Text.position source' u.start = Text.position source u.start

/-- Whether two texts share the stretch that a declaration spans, which begins in the same row and
column. -/
structure SharedBy (source source' : Text) (d : Tree) : Prop where
  apart : d.Apart
  stretch : ∃ s ∈ Text.slice? source d.start d.stop, Text.slice? source' d.start d.stop = some s
  place : Text.position source' d.start = Text.position source d.start

/-- Of a shared stretch every part is the same in both texts. -/
theorem SharedBy.kept {d : Tree} (h : SharedBy source source' d) {start stop : Nat}
    (hstart : d.start ≤ start) (hstop : stop ≤ d.stop) : Kept id source source' start stop := by
  obtain ⟨s, hs, hs'⟩ := h.stretch
  exact Text.slice?_of_shared hs hs' hstart hstop

/-- **Texts that share the stretches of declarations say the same there.** -/
theorem ReadAlike.of_shared (h : ∀ d ∈ ds, SharedBy source source' d) :
    ReadAlike source source' ds where
  rereads d hd u hu := by
    have hshared := h d hd
    obtain ⟨-, hinOrder, hreach⟩ := Tree.neighbours_of_apart d hshared.apart
    have hstart := hinOrder.start_le hu
    have hchild : ∀ c ∈ u.children, Tree.Within c d := fun c hc =>
      (Tree.within_of_mem_children hc).trans hu
    refine (SameWording.of_kept ?_ ?_ ?_).rereads
    · exact hshared.kept hstart (hinOrder.stop_le hu)
    · intro c hc
      exact hshared.kept (hinOrder.start_le (hchild c hc)) (hinOrder.stop_le (hchild c hc))
    · intro c hc
      exact hshared.kept hstart (hreach c (hchild c hc))
  position d hd u hu := by
    have hshared := h d hd
    obtain ⟨s, hs, hs'⟩ := hshared.stretch
    obtain ⟨-, hinOrder, hreach⟩ := Tree.neighbours_of_apart d hshared.apart
    exact Text.position_of_shared hs hs' hshared.place (hinOrder.start_le hu) (hreach u hu)

/-- Nodes that are read alike make the same declarations. -/
theorem ReadAlike.ofSiblings_eq (h : ReadAlike source source' ds) (scope : Scope) :
    ofSiblings file source' scope ds = ofSiblings file source scope ds := by
  have hrelocates : ∀ d ∈ ds, Relocates .same id file file source source' id d := by
    intro d hd
    refine ⟨h.rereads d hd, fun u hu role => ?_⟩
    rw [Tree.move_id]
    unfold pieceOf
    rw [h.position d hd u hu]
    rfl
  have hlike := ofSiblings_like ds scope hrelocates
  rw [Tree.moveAll_id] at hlike
  rw [hlike.eq_mapPiecesAll, mapPiecesAll_id]

end Declaration

namespace Compilation

variable {f g h : SourceFile} {ds : List Tree} {names : List Text} {name : Text}

/-! ## Files that stand for each other -/

/-- Files with one outline hand the same to the builder, whatever comes before and after them. -/
theorem handed_congr (same : ∀ ordinal, f.outline ordinal = g.outline ordinal)
    (before after : List SourceFile) :
    handed (before ++ f :: after) = handed (before ++ g :: after) := by
  have henter : ∀ (b : IndexBuilder) (ordinal : Nat),
      b.enterFile ordinal f = b.enterFile ordinal g := by
    intro b ordinal
    unfold IndexBuilder.enterFile
    rw [same]
  have hfrom : ∀ (b : IndexBuilder) (first : Nat),
      handedFrom b ((before ++ f :: after).zipIdx first) =
        handedFrom b ((before ++ g :: after).zipIdx first) := by
    induction before with
    | nil =>
      intro b first
      simp only [List.nil_append, List.zipIdx_cons]
      rw [handedFrom, handedFrom, same, henter]
    | cons e before ih =>
      intro b first
      simp only [List.cons_append, List.zipIdx_cons]
      rw [handedFrom, handedFrom, ih]
  exact hfrom .empty 0

/-- Whether a file can stand for another one: the same declarations are handed over in the same
order, and the same index is built. -/
structure StandsFor (f g : SourceFile) : Prop where
  handed (before after : List SourceFile) :
    handed (before ++ g :: after) = handed (before ++ f :: after)
  index (before after : List SourceFile) :
    (ofFiles (before ++ g :: after)).index = (ofFiles (before ++ f :: after)).index

/-- A file with the same outline may stand for the other one. -/
theorem standsFor_of_outline (same : ∀ ordinal, g.outline ordinal = f.outline ordinal) :
    StandsFor f g where
  handed := handed_congr same
  index before after := by
    have hhanded := handed_congr same before after
    unfold ofFiles
    simp only
    rw [builderOf_eq_addAll, builderOf_eq_addAll, hhanded]

/-- **A namespace for the rest of the file, a block with the dotted name and nested blocks with its
parts can stand for each other around the same declarations.** -/
theorem namespace_forms_interchangeable (names : List Text) (hnames : names ≠ []) (ds : List Tree)
    (f g h : SourceFile)
    (fileScoped : Declaration.FileScoped f.text ds (Text.joinWith ['.'] names) f.tree)
    (block : Declaration.Blocks g.text ds [Text.joinWith ['.'] names] g.tree)
    (nested : Declaration.Blocks h.text ds names h.tree)
    (alike : Declaration.ReadAlike f.text g.text ds)
    (alike' : Declaration.ReadAlike f.text h.text ds) : StandsFor f g ∧ StandsFor f h := by
  have hf : ∀ ordinal, f.outline ordinal = Declaration.ofSiblings ordinal f.text
      (Declaration.Scope.file.enter (Text.joinWith ['.'] names)) ds := fun _ =>
    Declaration.ofChildren_of_fileScoped fileScoped .file
  have hg : ∀ ordinal, g.outline ordinal = Declaration.ofSiblings ordinal g.text
      (Declaration.Scope.file.enter (Text.joinWith ['.'] names)) ds := fun _ =>
    Declaration.ofChildren_of_blocks block .file
  have hh : ∀ ordinal, h.outline ordinal = Declaration.ofSiblings ordinal h.text
      (Declaration.Scope.file.enter (Text.joinWith ['.'] names)) ds := by
    intro ordinal
    rw [← Declaration.Scope.foldl_enter _ hnames]
    exact Declaration.ofChildren_of_blocks nested .file
  constructor
  · apply standsFor_of_outline
    intro ordinal
    rw [hf, hg, alike.ofSiblings_eq]
  · apply standsFor_of_outline
    intro ordinal
    rw [hf, hh, alike'.ofSiblings_eq]

/-! ## A class in a namespace of two parts -/

/-- A class with a field, which stands behind 28 bytes of its row. -/
def classInNamespace : Tree :=
  .named "class_declaration" 28 46 none
    [.token "class" 28 33, .named "identifier" 34 35 (some "name") [],
     .named "declaration_list" 36 46 (some "body")
      [.token "\x7b" 36 37,
       .named "field_declaration" 38 44 none
        [.named "variable_declaration" 38 43 none
          [.named "predefined_type" 38 41 (some "type") [],
           .named "variable_declarator" 42 43 none [.named "identifier" 42 43 (some "name") []]],
         .token ";" 43 44],
       .token "\x7d" 45 46]]

/-- A class and an enumeration in a file-scoped namespace. -/
def fileScopedForm : SourceFile where
  path := "file0.cs".toList
  text := "namespace A.B;              class X \x7b int x; \x7d".toList
  tree :=
    .named "compilation_unit" 0 46 none
      [.named "file_scoped_namespace_declaration" 0 14 none
        [.token "namespace" 0 9, .named "qualified_name" 10 13 (some "name") [], .token ";" 13 14],
       classInNamespace]

/-- Both in one namespace with a body. -/
def blockForm : SourceFile where
  path := "file0.cs".toList
  text := "namespace A.B \x7b             class X \x7b int x; \x7d \x7d".toList
  tree :=
    .named "compilation_unit" 0 48 none
      [.named "namespace_declaration" 0 48 none
        [.token "namespace" 0 9, .named "qualified_name" 10 13 (some "name") [],
         .named "declaration_list" 14 48 (some "body")
          [.token "\x7b" 14 15, classInNamespace, .token "\x7d" 47 48]]]

/-- Both in namespaces inside each other. -/
def nestedForm : SourceFile where
  path := "file0.cs".toList
  text := "namespace A \x7b namespace B \x7b class X \x7b int x; \x7d \x7d \x7d".toList
  tree :=
    .named "compilation_unit" 0 50 none
      [.named "namespace_declaration" 0 50 none
        [.token "namespace" 0 9, .named "identifier" 10 11 (some "name") [],
         .named "declaration_list" 12 50 (some "body")
          [.token "\x7b" 12 13,
           .named "namespace_declaration" 14 48 none
            [.token "namespace" 14 23, .named "identifier" 24 25 (some "name") [],
             .named "declaration_list" 26 48 (some "body")
              [.token "\x7b" 26 27, classInNamespace, .token "\x7d" 47 48]],
           .token "\x7d" 49 50]]]

/-- The class can be put into its namespace in three ways. -/
theorem namespace_forms_interchangeable_class :
    Declaration.FileScoped fileScopedForm.text [classInNamespace]
      (Text.joinWith ['.'] [['A'], ['B']]) fileScopedForm.tree ∧
    Declaration.Blocks blockForm.text [classInNamespace] [Text.joinWith ['.'] [['A'], ['B']]]
      blockForm.tree ∧
    Declaration.Blocks nestedForm.text [classInNamespace] [['A'], ['B']] nestedForm.tree ∧
    handed [fileScopedForm] =
      [({ name := ['X'], kind := .class, nameSpace := some "A.B".toList },
          ⟨0, 28, 46, 0, 28, "class_declaration", .whole⟩),
       ({ name := ['x'], kind := .field, container := some 0 },
          ⟨0, 38, 44, 0, 38, "field_declaration", .whole⟩)] ∧
    handed [blockForm] = handed [fileScopedForm] ∧
    handed [nestedForm] = handed [fileScopedForm] := by
  have hfileScoped : Declaration.FileScoped fileScopedForm.text [classInNamespace]
      (Text.joinWith ['.'] [['A'], ['B']]) fileScopedForm.tree :=
    ⟨_, rfl, rfl, by decide +kernel, rfl⟩
  have hblock : Declaration.Blocks blockForm.text [classInNamespace]
      [Text.joinWith ['.'] [['A'], ['B']]] blockForm.tree :=
    .cons rfl rfl (by decide +kernel) rfl (.nil rfl)
  have hnested : Declaration.Blocks nestedForm.text [classInNamespace] [['A'], ['B']]
      nestedForm.tree :=
    .cons rfl rfl (by decide +kernel) rfl
      (.cons rfl rfl (by decide +kernel) rfl (.nil rfl))
  have hstretch : ∀ source ∈ [fileScopedForm.text, blockForm.text, nestedForm.text],
      Text.slice? source 28 46 = some "class X \x7b int x; \x7d".toList := by
    decide +kernel
  have hplace : ∀ source ∈ [fileScopedForm.text, blockForm.text, nestedForm.text],
      Text.position source 28 = ⟨0, 28⟩ := by
    decide +kernel
  have halike : ∀ source ∈ [blockForm.text, nestedForm.text],
      Declaration.ReadAlike fileScopedForm.text source [classInNamespace] := by
    intro source hsource
    have hmem := List.mem_cons_of_mem fileScopedForm.text hsource
    refine .of_shared (List.forall_mem_singleton.2 ⟨by decide +kernel, ?_, ?_⟩)
    · exact ⟨_, hstretch _ List.mem_cons_self, hstretch source hmem⟩
    · exact (hplace source hmem).trans (hplace _ List.mem_cons_self).symm
  obtain ⟨hforBlock, hforNested⟩ := namespace_forms_interchangeable [['A'], ['B']]
    (List.cons_ne_nil _ _) [classInNamespace] fileScopedForm blockForm nestedForm hfileScoped hblock
    hnested (halike _ List.mem_cons_self) (halike _ (List.mem_cons_of_mem _ List.mem_cons_self))
  refine ⟨hfileScoped, hblock, hnested, by decide +kernel, ?_, ?_⟩
  · exact hforBlock.handed [] []
  · exact hforNested.handed [] []

end Compilation

end PartialDocs
