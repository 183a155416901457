import PartialDocs.Proofs.Compilation.Likeness
import PartialDocs.Proofs.Declaration.AtSigns
import PartialDocs.Proofs.DocId.VerbatimNames

/-!
# Files with at signs in front of their identifiers

At signs may be written in front of the words of types that parameters and conversions refer to, and
in front of the names of type parameters to which none of these types refers.  Which bytes of a
text may get them is a condition on the text (`SourceFile.TakesAtSigns.escaped`).  What then goes
together, and every documentation ID, is as it was (`Escaped.alike`).  In front of any other
declared name an at sign is part of the name.
-/

set_option autoImplicit false

namespace PartialDocs

variable {chosen : Text → Prop}

/-- A type with at signs is encoded as the type without, among type parameters that are declared
alike. -/
theorem EscapedType.encodeType_eq {type type' : Text} (h : EscapedType chosen type type')
    {context other : TypeContext} (declared : context.DeclaredAs chosen other) :
    encodeType other type' = encodeType context type := by
  cases ht : TypeRef.ofText? type' with
  | some t =>
    rw [TypeRef.encodeType_of_read ht, TypeRef.encodeType_of_read (h.prefixed.ofText?_eq ht),
      TypeRef.encode_among declared (TypeRef.built_of_ofText? ht) (h.unchosen t ht)]
  | none =>
    have hsame : type' = type := by
      by_contra hother
      have hread := h.read hother
      rw [ht] at hread
      cases hread
    subst hsame
    rw [TypeRef.encodeType_of_unread ht, TypeRef.encodeType_of_unread ht]

/-- At signs do not matter to how parameters and targets are spelled. -/
theorem keepsSpelling_verbatim (chosen : Text → Prop) :
    (Likeness.verbatim chosen).KeepsSpelling where
  parameter hcontext hp := by
    unfold encodeParameter
    rw [hp.byRef, hp.type.encodeType_eq ⟨hcontext.outer, hcontext.method⟩]
  target hcontext htype := htype.encodeType_eq ⟨hcontext.outer, hcontext.method⟩

/-- Whether a file is another one with at signs in front of some of its identifiers: its nodes stand
in the same order, and each says what it said but for those at signs. -/
structure SourceFile.Escaped (chosen : Text → Prop) (m : Nat → Nat) (f f' : SourceFile) :
    Prop where
  tree : f'.tree = f.tree.move m
  increasing : StrictMono m
  rereads : ∀ u, Tree.Within u f.tree →
    Declaration.Rereads (.verbatim chosen) m f.text f'.text u

/-- A file with at signs in front of the chosen bytes. -/
def SourceFile.withAtSigns (bytes : List Nat) (f : SourceFile) : SourceFile where
  path := f.path
  text := f.text.withAtSigns bytes 0
  tree := f.tree.move (behindAtSigns bytes)

/-- Whether at signs may be written in front of the chosen bytes of a file: they stand in front of
words of types that can be read with them, and in front of chosen type parameters to which none of
these types refers. -/
structure SourceFile.TakesAtSigns (chosen : Text → Prop) (bytes : List Nat) (f : SourceFile) :
    Prop where
  nodup : bytes.Nodup
  word : ∀ b ∈ bytes, f.text.WordAt b
  node : ∀ u, Tree.Within u f.tree → Declaration.TakesAtSigns chosen bytes f.text u

/-- **With at signs written into its text a file is another one with at signs in front of some of
its identifiers.** -/
theorem SourceFile.TakesAtSigns.escaped {bytes : List Nat} {f : SourceFile}
    (h : f.TakesAtSigns chosen bytes) :
    f.Escaped chosen (behindAtSigns bytes) (f.withAtSigns bytes) where
  tree := rfl
  increasing := strictMono_behindAtSigns bytes
  rereads u hu := ((h.node u hu).escapedWording h.nodup h.word).rereads

namespace Compilation

variable {moves : Nat → Nat → Nat} {files files' : List SourceFile} {p q : Piece}

/-- The piece where it stands among other files, in which its bytes have moved. -/
def relocate (moves : Nat → Nat → Nat) (files' : List SourceFile) (p : Piece) : Piece :=
  match files'[p.file]? with
  | none => p
  | some f =>
    let place := Text.position f.text (moves p.file p.offset)
    { p with
      offset := moves p.file p.offset
      stop := moves p.file p.stop
      line := place.row
      column := place.column }

/-- Whether files are other ones with at signs in front of some of their identifiers, each the one
in its place. -/
structure Escaped (chosen : Text → Prop) (moves : Nat → Nat → Nat)
    (files files' : List SourceFile) : Prop where
  length_eq : files'.length = files.length
  file {i : Nat} {f f' : SourceFile} : files[i]? = some f → files'[i]? = some f' →
    f.Escaped chosen (moves i) f'

/-- A piece stays in its file. -/
theorem file_relocate (moves : Nat → Nat → Nat) (files' : List SourceFile) (p : Piece) :
    (relocate moves files' p).file = p.file := by
  unfold relocate
  split <;> rfl

/-- Pieces keep their roles. -/
theorem keepsRoles_relocate (moves : Nat → Nat → Nat) (files' : List SourceFile) :
    KeepsRoles (relocate moves files') := by
  intro p
  unfold relocate
  split <;> rfl

/-- A piece has moved with its node, whatever the node says. -/
theorem relocate_pieceOf {i : Nat} {f' : SourceFile} (hf' : files'[i]? = some f') {source : Text}
    (role : Role) (t : Tree) :
    relocate moves files' (Declaration.pieceOf source i role t) =
      Declaration.pieceOf f'.text i role (t.move (moves i)) := by
  unfold relocate Declaration.pieceOf
  simp only
  rw [hf', Tree.start_move, Tree.stop_move, Tree.kind_move]

/-- The outlines of the files are alike. -/
theorem Escaped.outlinesAlike (h : Escaped chosen moves files files') :
    OutlinesAlike (.verbatim chosen) (relocate moves files') files files' where
  length_eq := h.length_eq
  outline {i f f'} hf hf' := by
    have hfile := h.file hf hf'
    have hrelocates : Declaration.Relocates (.verbatim chosen) (moves i) i i f.text f'.text
        (relocate moves files') f.tree :=
      ⟨hfile.rereads, fun u _ role => (relocate_pieceOf hf' role u).symm⟩
    unfold SourceFile.outline
    rw [hfile.tree]
    exact Declaration.ofChildren_like f.tree .file hrelocates

/-- The order of two pieces stays. -/
theorem Escaped.startsBy_relocate (h : Escaped chosen moves files files')
    (hp : Positioned files p) (hq : Positioned files q) :
    (relocate moves files' p).startsBy (relocate moves files' q) = p.startsBy q := by
  obtain ⟨f, hf, -⟩ := id hp
  have hlt : p.file < files'.length := by
    rw [h.length_eq]
    exact (List.getElem?_eq_some_iff.1 hf).1
  have hf' := List.getElem?_eq_getElem hlt
  have hincreasing := (h.file hf hf').increasing
  refine Piece.startsBy_congr (file_relocate ..) (file_relocate ..) ?_ ?_
  · intro hfile
    unfold relocate
    rw [← hfile, hf']
    exact ⟨hincreasing.lt_iff_lt, hincreasing.lt_iff_lt⟩
  · intro hfile hoffset
    refine ⟨hp.row_column hq hfile hoffset, ?_⟩
    unfold relocate
    rw [← hfile, hf', hoffset]
    exact ⟨rfl, rfl⟩

/-- At signs in front of words of types and of type parameters to which they do not refer change
neither what goes together nor any documentation ID. -/
theorem Escaped.alike (h : Escaped chosen moves files files') :
    Alike (.verbatim chosen) (relocate moves files') files files' :=
  h.outlinesAlike.alike (keepsSpelling_verbatim chosen) (keepsRoles_relocate moves files')
    h.startsBy_relocate

/-! ## At signs everywhere -/

/-- What an at sign in front of an identifier changes, and what it does not. -/
structure AtSigns (chosen : Text → Prop) (moves : Nat → Nat → Nat)
    (files files' : List SourceFile) : Prop where
  /-- In front of words of types, and of type parameters to which none of these types refers, at
  signs change neither what goes together nor any documentation ID. -/
  alike : Alike (.verbatim chosen) (relocate moves files') files files'
  /-- A type with more at signs has the spelling that it had exactly where it can still be read. -/
  type (context : TypeContext) {s s' : Text} : TypeRef.PrefixedText s s' →
    TypeToken.ofText s ≠ TypeToken.ofText s' →
    (encodeType context s = encodeType context s' ↔ (TypeRef.ofText? s').isSome = true)
  /-- So it is with an at sign in front of one word. -/
  word (context : TypeContext) {left w right : Text} : IsIdentifier w →
    (∀ c ∈ left.getLast?, isIdentifierChar c = false ∧ c ≠ '@') →
    TypeToken.startsWord right = false →
    (encodeType context (left ++ (w ++ right)) = encodeType context (left ++ '@' :: (w ++ right)) ↔
      (TypeRef.ofText? (left ++ '@' :: (w ++ right))).isSome = true)
  /-- A reference with or without an at sign stands for the type parameter that is declared under
  its word, and for itself exactly where none is declared without an at sign. -/
  reference (context : TypeContext) {w s : Text} : IsIdentifier w → builtInType? w = none →
    s = w ∨ s = '@' :: w →
    encodeType context s = (context.meaning? w).getD w ∧
      (encodeType context s = w ↔ w ∉ context.outer ∧ w ∉ context.method)
  /-- In front of the name of a symbol an at sign makes another key, and another documentation ID
  unless the symbol is named after its type. -/
  name (b : IndexBuilder) (s : Symbol) : b.key s.escaped ≠ b.key s ∧
    (s.kind.hasIdentifier = true →
      (placedDocId b.symbols s.escaped = placedDocId b.symbols s ↔
        s.kind.isNamedAfterType = true))
  /-- Other at signs in a namespace make other keys and other documentation IDs of its types. -/
  nameSpace (b : IndexBuilder) {s : Symbol} (n n' : Text) : s.kind.isType = true →
    (b.key (s.inNameSpace n) = b.key (s.inNameSpace n') ↔ n = n') ∧
      (s.container = none →
        (placedDocId b.symbols (s.inNameSpace n) = placedDocId b.symbols (s.inNameSpace n') ↔
          n = n'))

/-- **At signs are ignored in front of references that can still be read and of type parameters
without references, and they are part of every other declared name.** -/
theorem verbatim_prefix_of_references (chosen : Text → Prop) (moves : Nat → Nat → Nat)
    (files files' : List SourceFile) (h : Escaped chosen moves files files') :
    AtSigns chosen moves files files' where
  alike := h.alike
  type context _ _ hprefixed more := TypeRef.encodeType_eq_iff_read hprefixed more context
  word context _ _ _ hw hleft hright :=
    TypeRef.encodeType_insert_iff_read hw hleft hright context
  reference context _ _ hw hkeyword hs := TypeRef.encodeType_reference context hw hkeyword hs
  name b s := ⟨key_escaped_ne b s, placedDocId_escaped b.symbols⟩
  nameSpace b _ n n' htype :=
    ⟨key_inNameSpace b htype n n', fun hs => placedDocId_inNameSpace b.symbols htype hs n n'⟩

/-- A class with two type parameters, of which the parameter of a method refers to the first. -/
def genericClass : SourceFile where
  path := "file0.cs".toList
  text := "class C<T, U> \x7b void M(T x) \x7b \x7d \x7d".toList
  tree :=
    .named "compilation_unit" 0 33 none
      [.named "class_declaration" 0 33 none
        [.token "class" 0 5, .named "identifier" 6 7 (some "name") [],
         .named "type_parameter_list" 7 13 none
          [.token "<" 7 8,
           .named "type_parameter" 8 9 none [.named "identifier" 8 9 (some "name") []],
           .token "," 9 10,
           .named "type_parameter" 11 12 none [.named "identifier" 11 12 (some "name") []],
           .token ">" 12 13],
         .named "declaration_list" 14 33 (some "body")
          [.token "\x7b" 14 15,
           .named "method_declaration" 16 31 none
            [.named "predefined_type" 16 20 (some "returns") [],
             .named "identifier" 21 22 (some "name") [],
             .named "parameter_list" 22 27 (some "parameters")
              [.token "(" 22 23,
               .named "parameter" 23 26 none
                [.named "identifier" 23 24 (some "type") [],
                 .named "identifier" 25 26 (some "name") []],
               .token ")" 26 27],
             .named "block" 28 31 (some "body") []],
           .token "\x7d" 32 33]]]

/-- The class with at signs in front of the second type parameter and of the reference. -/
def escapedReference : SourceFile := genericClass.withAtSigns [11, 23]

/-- The class with an at sign in front of the type parameter to which it refers. -/
def escapedTypeParameter : SourceFile := genericClass.withAtSigns [8]

/-- The method keeps its documentation ID when its parameter and the other type parameter get at
signs. -/
theorem verbatim_prefix_of_references_genericClass :
    escapedReference.text = "class C<T, @U> \x7b void M(@T x) \x7b \x7d \x7d".toList ∧
    Escaped (· = ['U']) (fun _ => behindAtSigns [11, 23]) [genericClass] [escapedReference] ∧
    (ofFiles [genericClass]).index.docId 1 = .ok "M:C\x602.M(\x600)".toList ∧
    (ofFiles [escapedReference]).index.docId 1 = .ok "M:C\x602.M(\x600)".toList := by
  have hnodes : ∀ u ∈ genericClass.tree.nodes,
      Declaration.TakesAtSigns (· = ['U']) [11, 23] genericClass.text u := by
    decide +kernel
  have htakes : genericClass.TakesAtSigns (· = ['U']) [11, 23] :=
    ⟨by decide, by decide +kernel, fun u hu => hnodes u hu.mem_nodes⟩
  have hescaped : Escaped (· = ['U']) (fun _ => behindAtSigns [11, 23]) [genericClass]
      [escapedReference] := by
    refine ⟨by simp only [List.length_singleton], ?_⟩
    intro i f f' hf hf'
    obtain ⟨rfl, rfl⟩ : genericClass = f ∧ escapedReference = f' := by
      cases i with
      | zero => exact ⟨Option.some.inj hf, Option.some.inj hf'⟩
      | succ i => cases hf
    exact htakes.escaped
  have hdocId : (ofFiles [genericClass]).index.docId 1 = .ok "M:C\x602.M(\x600)".toList := by
    decide +kernel
  refine ⟨by decide +kernel, hescaped, hdocId, ?_⟩
  rw [(verbatim_prefix_of_references _ _ _ _ hescaped).alike.docId, hdocId]

/-- Behind an at sign a type parameter is no longer found by its references. -/
theorem escaped_typeParameter_lost :
    escapedTypeParameter.text = "class C<@T, U> \x7b void M(T x) \x7b \x7d \x7d".toList ∧
    escapedTypeParameter.tree = genericClass.tree.move (behindAtSigns [8]) ∧
    (ofFiles [genericClass]).index.docId 1 = .ok "M:C\x602.M(\x600)".toList ∧
    (ofFiles [escapedTypeParameter]).index.docId 1 = .ok "M:C\x602.M(T)".toList := by
  refine ⟨by decide +kernel, rfl, ?_, ?_⟩ <;> decide +kernel

end Compilation

end PartialDocs
