import PartialDocs.Proofs.Compilation.Makers
import PartialDocs.Proofs.Declaration.Designation
import PartialDocs.Proofs.DocId.Identity

/-!
# Members that name an interface

Two members of one type may have one simple name and one signature when they implement
different interfaces, or one of them none.  `keptApart_iff` says when a compilation keeps
two such members apart, as symbols of their own with documentation IDs of their own.
Methods, properties and events are kept apart by the interfaces in their names.  Indexers
are not, because their names do not hold the interface.
-/

set_option autoImplicit false

namespace PartialDocs

open Declaration (Designation Designates PlainInterface isDesignated memberSymbol pieceOf
  shownName_name_eq_iff shown_inj)

/-! ## Names of members -/

variable {symbols : List Symbol} {s t : Symbol}

/-- Whether members agree in everything but the interfaces that they name. -/
structure SameSignature (symbols : List Symbol) (s t : Symbol) : Prop where
  container : s.container = t.container
  kind : s.kind = t.kind
  arity : s.arity = t.arity
  parameters : encodeParameters (contextOf symbols s) s.parameters =
    encodeParameters (contextOf symbols t) t.parameters
  empty : s.parameters = [] ↔ t.parameters = []

/-- What is known by its own designation is no type. -/
theorem isType_of_designated {kind : SymbolKind} (h : isDesignated kind = true) :
    kind.isType = false := by
  cases kind <;> simp_all [isDesignated, SymbolKind.isType]

/-- The documentation ID of a designated member shows its own name, unless it is an indexer. -/
theorem memberName_of_designated (designated : isDesignated s.kind = true) (h : s.kind ≠ .indexer) :
    memberName s = shownName s.name := by
  unfold memberName
  cases hkind : s.kind <;> simp_all [isDesignated, shownName]

/-- Members with one signature have one documentation ID exactly when it shows their names alike. -/
theorem placedDocId_eq_iff_of_signature (designated : isDesignated s.kind = true)
    (h : SameSignature symbols s t) :
    placedDocId symbols s = placedDocId symbols t ↔ memberName s = memberName t := by
  have hmember := isType_of_designated designated
  have hconversion : s.kind ≠ .conversion := by
    intro hkind
    rw [hkind] at designated
    cases designated
  rw [placedDocId_of_member hmember, placedDocId_of_member (h.kind ▸ hmember), h.kind,
    chainAround_congr h.container, List.append_cancel_left_eq, List.append_cancel_left_eq,
    List.cons_eq_cons, memberText_eq, memberText_eq, arityMark_congr h.kind h.arity,
    parameterList_congr h.kind h.parameters fun _ => h.empty, target?_of_ne_conversion hconversion,
    target?_of_ne_conversion (h.kind ▸ hconversion), List.append_cancel_right_eq]
  simp only [true_and]

namespace IndexBuilder

/-- Every symbol was there before or has been added. -/
theorem mem_symbols_addAll {b : IndexBuilder} {ds : List (Symbol × Piece)} {t : Symbol}
    (ht : t ∈ (b.addAll ds).symbols) : t ∈ b.symbols ∨ ∃ p, (t, p) ∈ ds := by
  induction ds generalizing b with
  | nil => exact .inl ht
  | cons d ds ih =>
    rcases ih ht with hold | ⟨p, hp⟩
    · rcases (add_step b d.1 d.2).symbols_eq with ⟨-, hsymbols⟩ | ⟨-, hsymbols, -⟩
      · rw [hsymbols, List.mem_append, List.mem_singleton] at hold
        rcases hold with hold | rfl
        · exact .inl hold
        · exact .inr ⟨d.2, List.mem_cons_self⟩
      · exact .inl (hsymbols ▸ hold)
    · exact .inr ⟨p, List.mem_cons_of_mem _ hp⟩

end IndexBuilder

namespace Compilation

variable {files : List SourceFile} {before between after : List (Symbol × Piece)}
  {x y : Symbol × Piece} {d e : Designation}

/-! ## Recorded declarations -/

/-- Whether a declaration is that of the symbol with a number and its piece is one of the symbol. -/
structure Recorded (files : List SourceFile) (x : Symbol × Piece) (i : Nat) : Prop where
  symbol : (ofFiles files).index.symbol i = .ok x.1
  piece : ∃ ps, (ofFiles files).index.pieces i = .ok ps ∧ x.2 ∈ ps

/-- Whether two declarations are recorded as different symbols with different documentation IDs. -/
def KeptApart (files : List SourceFile) (x y : Symbol × Piece) : Prop :=
  ∃ i j docId docId', Recorded files x i ∧ Recorded files y j ∧ i ≠ j ∧
    (ofFiles files).index.docId i = .ok docId ∧ (ofFiles files).index.docId j = .ok docId' ∧
    docId ≠ docId'

/-- The builder as a declaration comes to it, and what follows. -/
theorem builderOf_of_handed (here : handed files = before ++ x :: after) :
    builderOf files = ((IndexBuilder.empty.addAll before).add x.1 x.2).1.addAll after := by
  rw [builderOf_eq_addAll, here, IndexBuilder.addAll_append, IndexBuilder.addAll_cons]

/-- The key of a symbol that is placed before some moment of a compilation does not change after
it. -/
theorem key_builderOf (here : handed files = before ++ x :: after)
    (ht : Placed (IndexBuilder.empty.addAll before).symbols t) :
    (builderOf files).key t = (IndexBuilder.empty.addAll before).key t := by
  obtain ⟨later, hlater⟩ :=
    IndexBuilder.symbols_extend_addAll (IndexBuilder.empty.addAll before) (x :: after)
  rw [← IndexBuilder.addAll_append, ← here, ← builderOf_eq_addAll] at hlater
  exact IndexBuilder.key_of_append hlater.symm (sound_builderOf files).placed.containersFirst
    fun c hc => ht.container_lt hc

/-- What is handed over is placed among the symbols of the compilation. -/
theorem placed_of_handed (here : handed files = before ++ x :: after) :
    Placed (builderOf files).symbols x.1 := by
  obtain ⟨later, hlater⟩ :=
    IndexBuilder.symbols_extend_addAll (IndexBuilder.empty.addAll before) (x :: after)
  rw [← IndexBuilder.addAll_append, ← here, ← builderOf_eq_addAll] at hlater
  rw [← hlater]
  exact (allowed_of_handed here).2.placed.append later

/-- A declaration that has founded a symbol stays recorded. -/
theorem recorded_of_entry {b : IndexBuilder} {i : Nat} (run : builderOf files = b.addAll after)
    (entry : b.entries[i]? = some ⟨x.1, [x.2]⟩) : Recorded files x i where
  symbol := by
    rw [SymbolIndex.symbol_eq_ok_iff, symbols_ofFiles, run]
    refine IndexBuilder.symbols_getElem?_addAll b after ?_
    rw [IndexBuilder.symbols_getElem?, entry]
    rfl
  piece := by
    obtain ⟨more, hentry, -⟩ := IndexBuilder.entry_extends_addAll after entry
    rw [← run] at hentry
    obtain ⟨ps, hps, hperm, -, -⟩ := (sound_builderOf files).pieces_build hentry
    exact ⟨ps, hps, hperm.mem_iff.2 (by simp)⟩

/-- No symbol has the key of a declaration that is the first one with its key. -/
theorem find?_eq_none_of_first (here : handed files = before ++ x :: after)
    (first : ∀ z ∈ before, (builderOf files).key z.1 ≠ (builderOf files).key x.1) :
    (IndexBuilder.empty.addAll before).find? ((IndexBuilder.empty.addAll before).key x.1) =
      none := by
  obtain ⟨hsound, hallowed⟩ := allowed_of_handed here
  rw [Option.eq_none_iff_forall_ne_some]
  intro id hid
  -- a symbol with the key would be that of an earlier declaration
  obtain ⟨t, ht, hkey⟩ := (hsound.keyed _ id).1 hid
  rcases IndexBuilder.mem_symbols_addAll (List.mem_of_getElem? ht) with hmem | ⟨p, hp⟩
  · simp [IndexBuilder.symbols, IndexBuilder.empty] at hmem
  · refine first (t, p) hp ?_
    rw [key_builderOf here (hsound.placed.placed ht), key_builderOf here hallowed.placed, hkey]

/-- The first declaration with its key is recorded. -/
theorem exists_recorded (here : handed files = before ++ x :: after)
    (first : ∀ z ∈ before, (builderOf files).key z.1 ≠ (builderOf files).key x.1) :
    ∃ i, Recorded files x i := by
  have hfree := find?_eq_none_of_first here first
  have hrun := builderOf_of_handed here
  have hstep := IndexBuilder.add_step (IndexBuilder.empty.addAll before) x.1 x.2
  generalize (IndexBuilder.empty.addAll before).add x.1 x.2 = result at hstep hrun
  obtain ⟨b', r⟩ := result
  cases hstep with
  | joins taken => simp [hfree] at taken
  | refuses taken => simp [hfree] at taken
  | founds _ => exact ⟨_, recorded_of_entry hrun List.getElem?_concat_length⟩

/-! ## Designated members -/

/-- Whether a declaration that is handed over is made by a member node under a designation. -/
def DesignatedBy (files : List SourceFile) (x : Symbol × Piece) (d : Designation) : Prop :=
  ∃ f t s, files[x.2.file]? = some f ∧ Tree.Within t f.tree ∧
    Designates x.2.file f.text t (.mk s x.2 []) d ∧ x.1 = { s with container := x.1.container }

/-- The name of a designated member is that of its designation. -/
theorem DesignatedBy.name_eq (h : DesignatedBy files x d)
    (designated : isDesignated x.1.kind = true) :
    x.1.name = if x.1.kind = .indexer then d.simple else d.name := by
  obtain ⟨f, t, s, -, -, hd, hsymbol⟩ := h
  have hkind : x.1.kind = s.kind := (congrArg Symbol.kind hsymbol :)
  have hname : x.1.name = s.name := (congrArg Symbol.name hsymbol :)
  rw [hkind, hname]
  exact hd.name_eq (hkind ▸ designated)

/-- The documentation IDs of members that differ in their interfaces only are the same exactly for
indexers and where the interfaces are shown alike. -/
theorem memberName_eq_iff (hd : DesignatedBy files x d) (he : DesignatedBy files y e)
    (designated : isDesignated x.1.kind = true) (kind : x.1.kind = y.1.kind)
    (simple : d.simple = e.simple) :
    memberName x.1 = memberName y.1 ↔ x.1.kind = .indexer ∨ d.shown = e.shown := by
  by_cases hindexer : x.1.kind = .indexer
  · have hitem : memberName x.1 = memberName y.1 := by
      unfold memberName
      rw [← kind, hindexer]
    simp [hitem, hindexer]
  · rw [memberName_of_designated designated hindexer,
      memberName_of_designated (kind ▸ designated) (kind ▸ hindexer), hd.name_eq designated,
      he.name_eq (kind ▸ designated), if_neg hindexer, if_neg (kind ▸ hindexer),
      shownName_name_eq_iff simple]
    simp [hindexer]

/-- Two members that differ in the interfaces which they name are kept apart exactly when they are
no indexers and the documentation ID shows the interfaces differently. -/
theorem keptApart_iff (files : List SourceFile)
    (here : handed files = before ++ x :: (between ++ y :: after))
    (alone : ∀ z ∈ before ++ between, (builderOf files).key z.1 ≠ (builderOf files).key x.1 ∧
      (builderOf files).key z.1 ≠ (builderOf files).key y.1)
    (hd : DesignatedBy files x d) (he : DesignatedBy files y e)
    (designated : isDesignated x.1.kind = true) (simple : d.simple = e.simple)
    (signature : SameSignature (ofFiles files).index.symbols x.1 y.1) :
    KeptApart files x y ↔ x.1.kind ≠ .indexer ∧ d.shown ≠ e.shown := by
  have here' : handed files = (before ++ x :: between) ++ y :: after := by
    rw [here, List.append_assoc, List.cons_append]
  have hx := placed_of_handed here
  have hdocId := placedDocId_eq_iff_of_signature designated signature
  rw [memberName_eq_iff hd he designated signature.kind simple] at hdocId
  constructor
  · rintro ⟨i, j, docId, docId', hi, hj, hij, hdocIdI, hdocIdJ, hne⟩
    rw [docId_ofFiles hi.symbol, Except.ok.injEq] at hdocIdI
    rw [docId_ofFiles hj.symbol, Except.ok.injEq] at hdocIdJ
    rw [← hdocIdI, ← hdocIdJ, Ne, hdocId, not_or] at hne
    exact hne
  · rintro ⟨hindexer, hshown⟩
    have hname : x.1.name ≠ y.1.name := by
      intro hsame
      have hmember : memberName x.1 = memberName y.1 := by
        rw [memberName_of_designated designated hindexer, hsame,
          memberName_of_designated (signature.kind ▸ designated) (signature.kind ▸ hindexer)]
      rw [memberName_eq_iff hd he designated signature.kind simple] at hmember
      exact hmember.elim hindexer hshown
    have hkey : (builderOf files).key x.1 ≠ (builderOf files).key y.1 := fun hsame =>
      hname (IndexBuilder.key_eq_key hx (placed_of_handed here') hsame).2.2.1
    obtain ⟨i, hi⟩ := exists_recorded here fun z hz => (alone z (List.mem_append_left _ hz)).1
    obtain ⟨j, hj⟩ := exists_recorded here' <| by
      intro z hz
      rcases List.mem_append.1 hz with hz | hz
      · exact (alone z (List.mem_append_left _ hz)).2
      rcases List.mem_cons.1 hz with rfl | hz
      · exact hkey
      · exact (alone z (List.mem_append_right _ hz)).2
    refine ⟨i, j, _, _, hi, hj, ?_, docId_ofFiles hi.symbol, docId_ofFiles hj.symbol, ?_⟩
    · rintro rfl
      exact hname (congrArg Symbol.name (Except.ok.inj (hi.symbol.symm.trans hj.symbol)))
    · rw [Ne, hdocId, not_or]
      exact ⟨hindexer, hshown⟩

/-- How far the interfaces that two members name keep them apart. -/
structure ApartByInterface (files : List SourceFile) (x y : Symbol × Piece) (d e : Designation) :
    Prop where
  exactly : KeptApart files x y ↔ x.1.kind ≠ .indexer ∧ d.shown ≠ e.shown
  /-- Different interfaces of the forms that the grammar has are always shown differently. -/
  plain : (∀ i ∈ d.interface, PlainInterface i) → (∀ i ∈ e.interface, PlainInterface i) →
    d.interface ≠ e.interface → (KeptApart files x y ↔ x.1.kind ≠ .indexer)

/-- **Methods, properties and events that implement different interfaces are kept apart, and
indexers are not.**  No third declaration before them may have the key of either. -/
theorem apart_by_interface (files : List SourceFile)
    (here : handed files = before ++ x :: (between ++ y :: after))
    (alone : ∀ z ∈ before ++ between, (builderOf files).key z.1 ≠ (builderOf files).key x.1 ∧
      (builderOf files).key z.1 ≠ (builderOf files).key y.1)
    (hd : DesignatedBy files x d) (he : DesignatedBy files y e)
    (designated : isDesignated x.1.kind = true) (simple : d.simple = e.simple)
    (signature : SameSignature (ofFiles files).index.symbols x.1 y.1) :
    ApartByInterface files x y d e where
  exactly := keptApart_iff files here alone hd he designated simple signature
  plain plainD plainE differ := by
    rw [keptApart_iff files here alone hd he designated simple signature]
    exact and_iff_left fun hshown => differ (shown_inj plainD plainE hshown)

/-! ## A method with and without an interface -/

/-- A class A with two member nodes. -/
def pairOf (text : String) (stop : Nat) (first second : Tree) : SourceFile where
  path := "file0.cs".toList
  text := text.toList
  tree :=
    .named "compilation_unit" 0 stop none
      [.named "class_declaration" 0 stop none
        [.token "class" 0 5, .named "identifier" 6 7 (some "name") [],
         .named "declaration_list" 8 stop (some "body")
          [.token "\x7b" 8 9, first, second, .token "\x7d" (stop - 1) stop]]]

/-- The class itself, as it is handed over. -/
def classOfPair (stop : Nat) : Symbol × Piece :=
  ({ name := ['A'], kind := .class }, ⟨0, 0, stop, 0, 0, "class_declaration", .whole⟩)

/-- A member of the class, as it is handed over. -/
def memberOfPair (f : SourceFile) (kind : SymbolKind) (t : Tree) : Symbol × Piece :=
  ({ memberSymbol f.text kind t with container := some 0 }, pieceOf f.text 0 .whole t)

/-- Both members lie within the file. -/
theorem within_pairOf {text : String} {stop : Nat} {first second t : Tree}
    (mem : t = first ∨ t = second) : Tree.Within t (pairOf text stop first second).tree := by
  have hmem : t ∈ [Tree.token "\x7b" 8 9, first, second, .token "\x7d" (stop - 1) stop] := by
    rcases mem with rfl | rfl <;> simp
  exact .under (List.mem_singleton_self _)
    (.under (List.mem_cons_of_mem _ (List.mem_cons_of_mem _ (List.mem_singleton_self _)))
      (.under hmem .self))

/-- Each of the two members is designated by its node. -/
theorem designatedBy_memberOfPair {text : String} {stop : Nat} {first second t : Tree}
    {kind : SymbolKind} (mem : t = first ∨ t = second)
    (node : SymbolKind.ofMemberNode? t.kind = some kind)
    (single : Declaration.hasDeclarators t = false)
    (whole : Declaration.memberRole
      (memberSymbol (pairOf text stop first second).text kind t) t = .whole) :
    DesignatedBy [pairOf text stop first second]
      (memberOfPair (pairOf text stop first second) kind t)
      (Declaration.designationOf (pairOf text stop first second).text kind t) := by
  refine ⟨pairOf text stop first second, t,
    memberSymbol (pairOf text stop first second).text kind t,
    rfl, within_pairOf mem, ?_, rfl⟩
  have h : Designates 0 (pairOf text stop first second).text t _ _ := .member node single
  rw [whole] at h
  exact h

/-- A method M of an interface I. -/
def explicitMethod : Tree :=
  .named "method_declaration" 10 24 none
    [.named "predefined_type" 10 14 (some "returns") [],
     .named "explicit_interface_specifier" 15 17 none
      [.named "identifier" 15 16 none [], .token "." 16 17],
     .named "identifier" 17 18 (some "name") [],
     .named "parameter_list" 18 20 (some "parameters") [.token "(" 18 19, .token ")" 19 20],
     .named "block" 21 24 (some "body") []]

/-- A method M without an interface. -/
def ownMethod : Tree :=
  .named "method_declaration" 25 37 none
    [.named "predefined_type" 25 29 (some "returns") [], .named "identifier" 30 31 (some "name") [],
     .named "parameter_list" 31 33 (some "parameters") [.token "(" 31 32, .token ")" 32 33],
     .named "block" 34 37 (some "body") []]

/-- A class with a method of its own and one of an interface. -/
def twoMethods : SourceFile :=
  pairOf "class A \x7b void I.M() \x7b \x7d void M() \x7b \x7d \x7d" 39 explicitMethod ownMethod

/-- The class and its methods as they are handed on. -/
theorem handed_twoMethods : handed [twoMethods] =
    [classOfPair 39] ++ memberOfPair twoMethods .method explicitMethod ::
      ([] ++ memberOfPair twoMethods .method ownMethod :: []) := by
  decide +kernel

/-- The designation of the method of the interface. -/
theorem designatedBy_explicitMethod : DesignatedBy [twoMethods]
    (memberOfPair twoMethods .method explicitMethod)
    (Declaration.designationOf twoMethods.text .method explicitMethod) := by
  unfold twoMethods
  exact designatedBy_memberOfPair (.inl rfl) (by decide +kernel) (by decide +kernel)
    (by decide +kernel)

/-- The designation of the method of the class. -/
theorem designatedBy_ownMethod : DesignatedBy [twoMethods]
    (memberOfPair twoMethods .method ownMethod)
    (Declaration.designationOf twoMethods.text .method ownMethod) := by
  unfold twoMethods
  exact designatedBy_memberOfPair (.inr rfl) (by decide +kernel) (by decide +kernel)
    (by decide +kernel)

/-- Both methods have one signature. -/
theorem sameSignature_twoMethods : SameSignature (ofFiles [twoMethods]).index.symbols
    (memberOfPair twoMethods .method explicitMethod).1
    (memberOfPair twoMethods .method ownMethod).1 where
  container := rfl
  kind := by decide +kernel
  arity := by decide +kernel
  parameters := by decide +kernel
  empty := by decide +kernel

/-- Both methods are symbols of their own. -/
theorem apart_by_interface_twoMethods :
    handed [twoMethods] = [classOfPair 39] ++ memberOfPair twoMethods .method explicitMethod ::
      ([] ++ memberOfPair twoMethods .method ownMethod :: []) ∧
    KeptApart [twoMethods] (memberOfPair twoMethods .method explicitMethod)
      (memberOfPair twoMethods .method ownMethod) := by
  have halone : ∀ z ∈ [classOfPair 39] ++ [],
      (builderOf [twoMethods]).key z.1 ≠
          (builderOf [twoMethods]).key (memberOfPair twoMethods .method explicitMethod).1 ∧
        (builderOf [twoMethods]).key z.1 ≠
          (builderOf [twoMethods]).key (memberOfPair twoMethods .method ownMethod).1 := by
    decide +kernel
  have hapart := apart_by_interface [twoMethods] handed_twoMethods halone
    designatedBy_explicitMethod designatedBy_ownMethod (by decide +kernel) (by decide +kernel)
    sameSignature_twoMethods
  exact ⟨handed_twoMethods, hapart.exactly.2 ⟨by decide +kernel, by decide +kernel⟩⟩

/-! ## An indexer with and without an interface -/

/-- An indexer of an interface I. -/
def explicitIndexer : Tree :=
  .named "indexer_declaration" 10 33 none
    [.named "predefined_type" 10 13 (some "type") [],
     .named "explicit_interface_specifier" 14 16 none
      [.named "identifier" 14 15 none [], .token "." 15 16],
     .token "this" 16 20,
     .named "bracketed_parameter_list" 20 27 (some "parameters")
      [.token "[" 20 21,
       .named "parameter" 21 26 none
        [.named "predefined_type" 21 24 (some "type") [],
          .named "identifier" 25 26 (some "name") []],
       .token "]" 26 27],
     .named "arrow_expression_clause" 28 32 (some "value") [], .token ";" 32 33]

/-- An indexer without an interface. -/
def ownIndexer : Tree :=
  .named "indexer_declaration" 34 55 none
    [.named "predefined_type" 34 37 (some "type") [], .token "this" 38 42,
     .named "bracketed_parameter_list" 42 49 (some "parameters")
      [.token "[" 42 43,
       .named "parameter" 43 48 none
        [.named "predefined_type" 43 46 (some "type") [],
          .named "identifier" 47 48 (some "name") []],
       .token "]" 48 49],
     .named "arrow_expression_clause" 50 54 (some "value") [], .token ";" 54 55]

/-- A class with an indexer of its own and one of an interface. -/
def twoIndexers : SourceFile :=
  pairOf "class A \x7b int I.this[int i] => i; int this[int i] => i; \x7d" 57 explicitIndexer
    ownIndexer

/-- The class and its indexers as they are handed on. -/
theorem handed_twoIndexers : handed [twoIndexers] =
    [classOfPair 57] ++ memberOfPair twoIndexers .indexer explicitIndexer ::
      ([] ++ memberOfPair twoIndexers .indexer ownIndexer :: []) := by
  decide +kernel

/-- The designation of the indexer of the interface. -/
theorem designatedBy_explicitIndexer : DesignatedBy [twoIndexers]
    (memberOfPair twoIndexers .indexer explicitIndexer)
    (Declaration.designationOf twoIndexers.text .indexer explicitIndexer) := by
  unfold twoIndexers
  exact designatedBy_memberOfPair (.inl rfl) (by decide +kernel) (by decide +kernel)
    (by decide +kernel)

/-- The designation of the indexer of the class. -/
theorem designatedBy_ownIndexer : DesignatedBy [twoIndexers]
    (memberOfPair twoIndexers .indexer ownIndexer)
    (Declaration.designationOf twoIndexers.text .indexer ownIndexer) := by
  unfold twoIndexers
  exact designatedBy_memberOfPair (.inr rfl) (by decide +kernel) (by decide +kernel)
    (by decide +kernel)

/-- Both indexers have one signature. -/
theorem sameSignature_twoIndexers : SameSignature (ofFiles [twoIndexers]).index.symbols
    (memberOfPair twoIndexers .indexer explicitIndexer).1
    (memberOfPair twoIndexers .indexer ownIndexer).1 where
  container := rfl
  kind := by decide +kernel
  arity := by decide +kernel
  parameters := by decide +kernel
  empty := by decide +kernel

/-- One of two indexers is lost, although one of them names an interface and the other one does
not. -/
theorem indexers_collide : ∃ d e : Designation,
    DesignatedBy [twoIndexers] (memberOfPair twoIndexers .indexer explicitIndexer) d ∧
    DesignatedBy [twoIndexers] (memberOfPair twoIndexers .indexer ownIndexer) e ∧
    d.simple = e.simple ∧ d.interface = some "I.".toList ∧ e.interface = none ∧
    SameSignature (ofFiles [twoIndexers]).index.symbols
      (memberOfPair twoIndexers .indexer explicitIndexer).1
      (memberOfPair twoIndexers .indexer ownIndexer).1 ∧
    handed [twoIndexers] = [classOfPair 57, memberOfPair twoIndexers .indexer explicitIndexer,
      memberOfPair twoIndexers .indexer ownIndexer] ∧
    (ofFiles [twoIndexers]).index.size = 2 ∧
    ¬ KeptApart [twoIndexers] (memberOfPair twoIndexers .indexer explicitIndexer)
      (memberOfPair twoIndexers .indexer ownIndexer) := by
  have halone : ∀ z ∈ [classOfPair 57] ++ [],
      (builderOf [twoIndexers]).key z.1 ≠
          (builderOf [twoIndexers]).key (memberOfPair twoIndexers .indexer explicitIndexer).1 ∧
        (builderOf [twoIndexers]).key z.1 ≠
          (builderOf [twoIndexers]).key (memberOfPair twoIndexers .indexer ownIndexer).1 := by
    decide +kernel
  have hindexer : (memberOfPair twoIndexers .indexer explicitIndexer).1.kind = .indexer := by
    decide +kernel
  have hapart := keptApart_iff [twoIndexers] handed_twoIndexers halone designatedBy_explicitIndexer
    designatedBy_ownIndexer (by decide +kernel) (by decide +kernel) sameSignature_twoIndexers
  exact ⟨_, _, designatedBy_explicitIndexer, designatedBy_ownIndexer, by decide +kernel,
    by decide +kernel, by decide +kernel, sameSignature_twoIndexers, handed_twoIndexers,
    by decide +kernel, fun h => (hapart.1 h).1 hindexer⟩

end Compilation

end PartialDocs
