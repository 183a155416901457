import PartialDocs.Proofs.Resolution.Law

/-!
# The members of a documentation file

A documentation file is always written.  Its members are those of the symbols that have an
element, in the order of the symbols, and each says the documentation ID and the merged
comments of its symbol (`exists_documented`).
-/

set_option autoImplicit false

namespace PartialDocs.Compilation

/-- A member of a documentation file. -/
structure Emitted where
  id : Nat
  docId : Text
  body : Text

/-- The element of a member of a documentation file. -/
def Emitted.element (e : Emitted) : Text := Xml.member e.docId e.body

/-- A member that says what the compilation answers about the symbol with its number. -/
structure Emitted.Speaks (c : Compilation) (e : Emitted) : Prop where
  docId : c.index.docId e.id = .ok e.docId
  merged : c.merged e.id = .ok (some e.body)

/-- Whether a symbol has an element. -/
def isDocumented (c : Compilation) (policy : UnimplementedPolicy) (id : SymbolId) : Bool :=
  match c.xml policy id with
  | .ok x => !x.isEmpty
  | .error _ => false

variable {files : List SourceFile}

/-- The element of a symbol is empty, or it holds the merged comments. -/
theorem exists_element {id : Nat} (hid : id < (ofFiles files).index.size)
    (policy : UnimplementedPolicy) :
    ∃ docId, (ofFiles files).index.docId id = .ok docId ∧
      ((ofFiles files).xml policy id = .ok [] ∨
        ∃ body, (ofFiles files).merged id = .ok (some body) ∧
          (ofFiles files).xml policy id = .ok (Xml.member docId body)) := by
  obtain ⟨s, docId, cs, hs, hdocId, hpieces, hcomment, -, -, hxml⟩ := exists_answers files hid
  have hmerged := merged_eq_ok hs (comments_of_pieces hpieces hcomment)
  refine ⟨docId, hdocId, ?_⟩
  by_cases hskip : policy = .omitted ∧ s.isPartialMethod = true ∧
      ∀ x ∈ cs, x.1.role ≠ .implementing
  · left
    rw [hxml policy, if_pos hskip]
  · rw [hxml policy, if_neg hskip]
    cases hbody : mergeComments (.ofSymbol s) (roled cs) with
    | none => exact .inl rfl
    | some body =>
      rw [hbody] at hmerged
      exact .inr ⟨body, hmerged, rfl⟩

/-- The elements of some symbols are those of members that speak for the documented ones among
them. -/
theorem exists_documented_of_ids (files : List SourceFile) (policy : UnimplementedPolicy)
    (ids : List Nat) (h : ∀ id ∈ ids, id < (ofFiles files).index.size) :
    ∃ (xs : List Text) (emitted : List Emitted),
      ids.mapM ((ofFiles files).xml policy) = .ok xs ∧
      (xs.filter fun x => !x.isEmpty) = emitted.map Emitted.element ∧
      emitted.map Emitted.id = ids.filter ((ofFiles files).isDocumented policy) ∧
      ∀ e ∈ emitted, e.Speaks (ofFiles files) := by
  induction ids with
  | nil => exact ⟨[], [], rfl, rfl, rfl, by simp⟩
  | cons id ids ih =>
    obtain ⟨xs, emitted, hxs, hfilter, hids, hspeaks⟩ :=
      ih fun n hn => h n (List.mem_cons_of_mem _ hn)
    obtain ⟨docId, hdocId, hempty | ⟨body, hbody, hmember⟩⟩ :=
      exists_element (h id List.mem_cons_self) policy
    -- an empty element is left out of the file, any other one is a member
    · refine ⟨[] :: xs, emitted, ?_, hfilter, ?_, hspeaks⟩
      · rw [List.mapM_cons, hempty, hxs]
        rfl
      · rw [List.filter_cons_of_neg (by simp [isDocumented, hempty]), hids]
    · have hkept : (!(Xml.member docId body).isEmpty) = true := by
        simpa using Xml.member_ne_nil docId body
      refine ⟨Xml.member docId body :: xs, ⟨id, docId, body⟩ :: emitted, ?_, ?_, ?_, ?_⟩
      · rw [List.mapM_cons, hmember, hxs]
        rfl
      · rw [List.filter_cons, if_pos hkept, hfilter]
        rfl
      · have hdocumented : (ofFiles files).isDocumented policy id = true := by
          unfold isDocumented
          rw [hmember]
          exact hkept
        rw [List.filter_cons_of_pos hdocumented, ← hids]
        rfl
      · intro e he
        rcases List.mem_cons.1 he with rfl | he
        · exact ⟨hdocId, hbody⟩
        · exact hspeaks e he

/-- A documentation file is always written.  Its members speak for the documented symbols. -/
theorem exists_documented (files : List SourceFile) (policy : UnimplementedPolicy)
    (assembly : Text) :
    ∃ emitted : List Emitted,
      (ofFiles files).docFile policy assembly =
        .ok ⟨assembly, emitted.length, Xml.file assembly (emitted.map Emitted.element)⟩ ∧
      emitted.map Emitted.id =
        (ofFiles files).index.ids.filter ((ofFiles files).isDocumented policy) ∧
      ∀ e ∈ emitted, e.Speaks (ofFiles files) := by
  obtain ⟨xs, emitted, hxs, hfilter, hids, hspeaks⟩ :=
    exists_documented_of_ids files policy (ofFiles files).index.ids fun id hid =>
      List.mem_range.1 hid
  refine ⟨emitted, ?_, hids, hspeaks⟩
  unfold docFile elements
  rw [hxs]
  simp only [Except.map, hfilter, List.length_map]

end PartialDocs.Compilation
