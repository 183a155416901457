import PartialDocs.Proofs.Compilation.VerbatimPrefix
import PartialDocs.Proofs.Declaration.Asides

/-!
# Files with other comments and lists of attributes

Comments and lists of attributes may be put into files, taken out of them or changed, whereby all
other nodes move.  As long as each of these nodes says what it said, the same declarations go
together and have the same keys and documentation IDs (`Redecorated.sameSymbols`).
-/

set_option autoImplicit false

namespace PartialDocs

/-- Whether a file is another one with other comments and lists of attributes: what is left without
them stands in the same order, and each of these nodes is in the given relation to its text. -/
structure SourceFile.Redecorated (Agrees : (Nat → Nat) → Text → Text → Tree → Prop) (m : Nat → Nat)
    (f f' : SourceFile) : Prop where
  tree : f'.tree.bare = f.tree.bare.move m
  agrees : ∀ u, Tree.Within u f.tree.bare → Agrees m f.text f'.text u

namespace Compilation

variable {Agrees : (Nat → Nat) → Text → Text → Tree → Prop} {moves : Nat → Nat → Nat}
  {files files' : List SourceFile}

/-- Whether files are other ones with other comments and lists of attributes, each the one in its
place. -/
structure Redecorated (Agrees : (Nat → Nat) → Text → Text → Tree → Prop) (moves : Nat → Nat → Nat)
    (files files' : List SourceFile) : Prop where
  length_eq : files'.length = files.length
  file {i : Nat} {f f' : SourceFile} : files[i]? = some f → files'[i]? = some f' →
    f.Redecorated Agrees (moves i) f'

/-- A single file is redecorated by itself. -/
theorem Redecorated.singleton {f f' : SourceFile} (h : f.Redecorated Agrees (moves 0) f') :
    Redecorated Agrees moves [f] [f'] where
  length_eq := rfl
  file {i g g'} hg hg' := by
    cases i with
    | zero =>
      obtain rfl := Option.some.inj hg
      obtain rfl := Option.some.inj hg'
      exact h
    | succ i => cases hg

/-- What two compilations have in common that tell no symbol apart which the other one does not. -/
structure SameSymbols (g : Piece → Piece) (files files' : List SourceFile) : Prop where
  keys : (builderOf files').keys = (builderOf files).keys
  symbols : (ofFiles files').index.symbols = (ofFiles files).index.symbols
  /-- A symbol has the pieces that it had, which have moved. -/
  pieces : (builderOf files').entries.map IndexEntry.pieces =
    (builderOf files).entries.map fun e => e.pieces.map g
  docId : ∀ id, (ofFiles files').index.docId id = (ofFiles files).index.docId id

/-- Files with the same outlines have the same symbols. -/
theorem OutlinesAlike.sameSymbols {g : Piece → Piece} (h : OutlinesAlike .same g files files')
    (roles : KeepsRoles g) : SameSymbols g files files' := by
  have hbuilder := h.builderOf keepsSpelling_same roles
  have hpieces := hbuilder.entries.imp fun _ _ he => he.pieces
  refine ⟨hbuilder.keys, ?_, ?_, SymbolIndex.docId_like keepsSpelling_same hbuilder.symbols_build⟩
  · rw [eq_comm, ← List.forall₂_eq_eq_eq]
    exact hbuilder.symbols_build.imp fun _ _ hs => hs.eq.symm
  · rw [eq_comm, ← List.forall₂_eq_eq_eq, List.forall₂_map_left_iff, List.forall₂_map_right_iff]
    exact hpieces.imp fun _ _ he => he.symm

/-- Files that are redecorated have the same outlines. -/
theorem Redecorated.outlinesAlike (h : Redecorated Agrees moves files files')
    (rereads : ∀ {m source source' u}, Agrees m source source' u →
      Declaration.Rereads .same m source source' u) :
    OutlinesAlike .same (relocate moves files') files files' where
  length_eq := h.length_eq
  outline {i f f'} hf hf' := by
    have hfile := h.file hf hf'
    have hrelocates : Declaration.Relocates .same (moves i) i i f.text f'.text
        (relocate moves files') f.tree.bare :=
      ⟨fun u hu => rereads (hfile.agrees u hu), fun u _ role => (relocate_pieceOf hf' role u).symm⟩
    rw [← f.outline_bare, ← f'.outline_bare]
    unfold SourceFile.outline SourceFile.bare
    rw [hfile.tree]
    exact Declaration.ofChildren_like f.tree.bare .file hrelocates

/-- **Where all other nodes say what they said, comments and lists of attributes make no
difference to symbols, keys and documentation IDs.** -/
theorem Redecorated.sameSymbols (h : Redecorated Agrees moves files files')
    (rereads : ∀ {m source source' u}, Agrees m source source' u →
      Declaration.Rereads .same m source source' u) :
    SameSymbols (relocate moves files') files files' :=
  (h.outlinesAlike rereads).sameSymbols (keepsRoles_relocate moves files')

/-- A class with one member. -/
def classOfMember (text : String) (member : Tree) : SourceFile where
  path := "file0.cs".toList
  text := text.toList
  tree :=
    .named "compilation_unit" 0 (member.stop + 2) none
      [.named "class_declaration" 0 (member.stop + 2) none
        [.token "class" 0 5, .named "identifier" 6 7 (some "name") [],
         .named "declaration_list" 8 (member.stop + 2) (some "body")
          [.token "\x7b" 8 9, member, .token "\x7d" (member.stop + 1) (member.stop + 2)]]]

end Compilation

end PartialDocs
