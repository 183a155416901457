import PartialDocs.Proofs.Resolution.Emission

/-!
# Every query is answered

No question about a symbol of a compilation ends in an internal error, and a number that
no symbol has is always refused as such (`queries_answered`).  What an answer needs was
proved of the whole run before: every symbol has a piece, every piece is found again in
the file that it names, and every chain of containers stays inside the index and ends.
-/

set_option autoImplicit false

namespace PartialDocs

/-! ## Numbers that no symbol has -/

namespace SymbolIndex

variable {index : SymbolIndex} {id : Nat}

/-- At or above the size there is no entry. -/
theorem entries_eq_none (h : index.size ≤ id) : index.entries[id]? = none :=
  List.getElem?_eq_none h

/-- At or above the size there is no symbol. -/
theorem symbol_eq_unknown (h : index.size ≤ id) : index.symbol id = .error (.unknownSymbol id) := by
  unfold symbol symbol?
  rw [entries_eq_none h]
  rfl

/-- At or above the size nothing is around. -/
theorem containers_eq_unknown (h : index.size ≤ id) :
    index.containers id = .error (.unknownSymbol id) := by
  have hnone : index.symbols[id]? = none := by
    rw [← symbol?_eq, symbol?, entries_eq_none h]
    rfl
  unfold containers containerWalk containerWalkFrom
  simp only [hnone]

end SymbolIndex

namespace Compilation

/-- Every query about a symbol succeeds. -/
structure Answers (c : Compilation) (id : SymbolId) : Prop where
  docId : ∃ docId, c.index.docId id = .ok docId
  qualifiedName : ∃ name, c.index.qualifiedName id = .ok name
  /-- There are pieces, and each of them has been looked up. -/
  comments : ∃ cs, cs ≠ [] ∧ c.index.pieces id = .ok (cs.map Prod.fst) ∧ c.comments id = .ok cs
  merged : ∃ body, c.merged id = .ok body
  xml : ∀ policy, ∃ x, c.xml policy id = .ok x

/-- Every query about a number answers that no symbol has it. -/
structure Refuses (c : Compilation) (id : SymbolId) : Prop where
  docId : c.index.docId id = .error (.unknownSymbol id)
  qualifiedName : c.index.qualifiedName id = .error (.unknownSymbol id)
  pieces : c.index.pieces id = .error (.unknownSymbol id)
  comments : c.comments id = .error (.unknownSymbol id)
  merged : c.merged id = .error (.unknownSymbol id)
  xml : ∀ policy, c.xml policy id = .error (.unknownSymbol id)

variable {c : Compilation} {files : List SourceFile} {id : Nat}

/-- At or above the size all queries are refused. -/
theorem refuses_of_size_le (h : c.index.size ≤ id) : c.Refuses id := by
  have hsymbol := SymbolIndex.symbol_eq_unknown h
  have hpieces : c.index.pieces id = .error (.unknownSymbol id) := by
    unfold SymbolIndex.pieces
    rw [SymbolIndex.entries_eq_none h]
  refine ⟨?_, ?_, hpieces, ?_, ?_, ?_⟩
  · unfold SymbolIndex.docId
    rw [hsymbol]
    rfl
  · unfold SymbolIndex.qualifiedName
    rw [SymbolIndex.containers_eq_unknown h]
    rfl
  · unfold comments
    rw [hpieces]
    rfl
  · unfold merged
    rw [hsymbol]
    rfl
  · intro policy
    unfold xml
    rw [hsymbol]
    rfl

/-- Below the size all queries are answered. -/
theorem answers_of_lt_size (h : id < (ofFiles files).index.size) : (ofFiles files).Answers id := by
  obtain ⟨s, docId, cs, hs, hdocId, hpieces, hcomment, -, hfit, hxml⟩ := exists_answers files h
  have hcomments := comments_of_pieces hpieces hcomment
  have hne : cs ≠ [] := by
    rintro rfl
    exact hfit.nonempty rfl
  exact ⟨⟨docId, hdocId⟩, ⟨_, SymbolIndex.qualifiedName_eq_ok (wellPlaced_ofFiles files) h⟩,
    ⟨cs, hne, hpieces, hcomments⟩, ⟨_, merged_eq_ok hs hcomments⟩, fun policy => ⟨_, hxml policy⟩⟩

/-- **In every compilation each query about a symbol succeeds, each query about any other number
answers exactly that, and the documentation file of every assembly is written.** -/
theorem queries_answered (files : List SourceFile) :
    (∀ id < (ofFiles files).index.size, (ofFiles files).Answers id) ∧
    (∀ id, (ofFiles files).index.size ≤ id → (ofFiles files).Refuses id) ∧
    ∀ policy assembly, ∃ file, (ofFiles files).docFile policy assembly = .ok file := by
  refine ⟨fun id => answers_of_lt_size, fun id => refuses_of_size_le, ?_⟩
  intro policy assembly
  obtain ⟨emitted, hfile, -⟩ := exists_documented files policy assembly
  exact ⟨_, hfile⟩

/-- The numbers of the four symbols of both parts are answered, the next one is refused. -/
theorem queries_answered_bothParts : (ofFiles bothParts).index.size = 4 ∧
    (∀ id < 4, (ofFiles bothParts).Answers id) ∧ (ofFiles bothParts).Refuses 4 := by
  obtain ⟨answers, refuses, -⟩ := queries_answered bothParts
  rw [size_bothParts] at answers refuses
  exact ⟨size_bothParts, answers, refuses 4 (by decide)⟩

end Compilation

end PartialDocs
