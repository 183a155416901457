import PartialDocs.Proofs.Compilation.Makers
import PartialDocs.Proofs.DocId.Likeness

/-!
# Compilations that are alike

Files whose outlines are alike, one by one, make compilations that are alike (`alike_of_outlines`):
the same declarations go together under the same numbers, every symbol keeps its documentation
ID, and its pieces have moved with the nodes.
-/

set_option autoImplicit false

namespace PartialDocs

/-- Pieces keep their order where the pieces of each file keep the order of their offsets and where
those at one offset have one place. -/
theorem Piece.startsBy_congr {p q p' q' : Piece} (hp : p'.file = p.file) (hq : q'.file = q.file)
    (offsets : p.file = q.file →
      (p'.offset < q'.offset ↔ p.offset < q.offset) ∧ (q'.offset < p'.offset ↔ q.offset < p.offset))
    (places : p.file = q.file → p.offset = q.offset →
      (p.line = q.line ∧ p.column = q.column) ∧ p'.line = q'.line ∧ p'.column = q'.column) :
    p'.startsBy q' = p.startsBy q := by
  rw [Bool.eq_iff_iff, startsBy_iff, startsBy_iff, hp, hq]
  by_cases hfile : p.file = q.file
  · have hoffsets := offsets hfile
    have hplaces := places hfile
    omega
  · simp [hfile]

namespace Compilation

variable {R : Likeness} {g : Piece → Piece} {files files' : List SourceFile} {p : Piece}

/-! ## Where pieces stand -/

/-- Whether the row and the column of a piece are those of its offset. -/
def Positioned (files : List SourceFile) (p : Piece) : Prop :=
  ∃ f, files[p.file]? = some f ∧ Text.position f.text p.offset = ⟨p.line, p.column⟩

/-- A piece that is handed on has the row and column of its byte. -/
theorem positioned_of_mem_handed {x : Symbol × Piece} (hx : x ∈ handed files) :
    Positioned files x.2 := by
  obtain ⟨f, t, hf, -, s, hmakes, -⟩ := exists_madeBy hx
  refine ⟨f, hf, ?_⟩
  have hpiece : ∃ role, x.2 = Declaration.pieceOf f.text x.2.file role t := hmakes.exists_role
  obtain ⟨role, hrole⟩ := hpiece
  rw [hrole]
  rfl

/-- A piece of a symbol has the row and column of its byte. -/
theorem positioned_of_mem_pieces {e : IndexEntry} (he : e ∈ (builderOf files).entries)
    (hp : p ∈ e.pieces) : Positioned files p := by
  rw [builderOf_eq_addAll] at he
  obtain ⟨e', he', -⟩ | ⟨s, hs⟩ := IndexBuilder.mem_pieces_addAll he hp
  · simp [IndexBuilder.empty] at he'
  · exact positioned_of_mem_handed hs

/-- Pieces at one offset of a file do not differ in row and column. -/
theorem Positioned.row_column {q : Piece} (hp : Positioned files p) (hq : Positioned files q)
    (file : p.file = q.file) (offset : p.offset = q.offset) :
    p.line = q.line ∧ p.column = q.column := by
  obtain ⟨f, hf, hpos⟩ := hp
  obtain ⟨f', hf', hpos'⟩ := hq
  obtain rfl : f = f' := by
    rw [file, hf'] at hf
    exact (Option.some.inj hf).symm
  rw [offset, hpos', Position.mk.injEq] at hpos
  exact ⟨hpos.1.symm, hpos.2.symm⟩

/-! ## Outlines that are alike -/

/-- Whether the outlines of files are alike, each with the one in its place. -/
structure OutlinesAlike (R : Likeness) (g : Piece → Piece) (files files' : List SourceFile) :
    Prop where
  length_eq : files'.length = files.length
  outline {i : Nat} {f f' : SourceFile} : files[i]? = some f → files'[i]? = some f' →
    Declaration.LikeAll R g (f.outline i) (f'.outline i)

/-- **Files whose outlines are alike have builders that are alike.** -/
theorem OutlinesAlike.builderOf (h : OutlinesAlike R g files files') (spelling : R.KeepsSpelling)
    (roles : KeepsRoles g) : (builderOf files).Like R g (builderOf files') := by
  have hrun : ∀ {fs fs' : List (SourceFile × Nat)},
      List.Forall₂ (fun x x' => x'.2 = x.2 ∧
        Declaration.LikeAll R g (x.1.outline x.2) (x'.1.outline x.2)) fs fs' →
      ∀ {b b' : IndexBuilder}, b.Like R g b' →
        (fs.foldl (fun b x => b.enterFile x.2 x.1) b).Like R g
          (fs'.foldl (fun b x => b.enterFile x.2 x.1) b') := by
    intro fs fs' hfs
    induction hfs with
    | nil => exact fun hb => hb
    | @cons x x' fs fs' hx _ ih =>
      intro b b' hb
      obtain ⟨hordinal, houtline⟩ := hx
      -- the builders stay alike from one file to the next
      have hstep : (b.enterFile x.2 x.1).Like R g (b'.enterFile x'.2 x'.1) := by
        unfold IndexBuilder.enterFile
        rw [hordinal]
        exact hb.enterAll spelling roles none houtline
      exact ih hstep
  apply hrun _ (IndexBuilder.like_empty R g)
  rw [List.forall₂_iff_get]
  refine ⟨by simp [h.length_eq], fun i hi hi' => ?_⟩
  simp only [List.get_eq_getElem, List.getElem_zipIdx, Nat.zero_add, true_and]
  exact h.outline (List.getElem?_eq_getElem _) (List.getElem?_eq_getElem _)

/-! ## All answers about symbols -/

/-- What two compilations have in common whose symbols are alike. -/
structure Alike (R : Likeness) (g : Piece → Piece) (files files' : List SourceFile) : Prop where
  /-- The same declarations go together, and each symbol has the number that it had. -/
  symbols : List.Forall₂ (Symbol.Like R) (ofFiles files).index.symbols
    (ofFiles files').index.symbols
  /-- The pieces of a symbol have moved. -/
  pieces : ∀ id, (ofFiles files').index.pieces id =
    ((ofFiles files).index.pieces id).map (List.map g)
  docId : ∀ id, (ofFiles files').index.docId id = (ofFiles files).index.docId id

/-- **Files whose outlines are alike make compilations that are alike.** -/
theorem OutlinesAlike.alike (h : OutlinesAlike R g files files') (spelling : R.KeepsSpelling)
    (roles : KeepsRoles g)
    (order : ∀ {p q}, Positioned files p → Positioned files q →
      (g p).startsBy (g q) = p.startsBy q) : Alike R g files files' := by
  have hbuilder := h.builderOf spelling roles
  refine ⟨hbuilder.symbols_build, hbuilder.pieces_build ?_ ?_, ?_⟩
  · intro e he p hp q hq
    exact (order (positioned_of_mem_pieces he hp) (positioned_of_mem_pieces he hq)).symm
  · intro e he
    exact ((sound_builderOf files).pieces e he).nonempty
  · exact SymbolIndex.docId_like spelling hbuilder.symbols_build

end Compilation

end PartialDocs
