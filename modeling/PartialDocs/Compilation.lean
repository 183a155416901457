import PartialDocs.Comment.Leading
import PartialDocs.DocId
import PartialDocs.Index.Builder

/-!
# Compilations

Source files with the index of their symbols.  A compilation answers which symbol has a
name or a documentation ID, and which comments the pieces of a symbol have.
-/

set_option autoImplicit false

namespace PartialDocs

/-- Source files, each known by its place in the list, and the index of their declarations. -/
structure Compilation where
  files : List SourceFile
  index : SymbolIndex

/-- The dotted name without the arity after each segment. -/
def stripArity (name : Text) : Text :=
  Text.joinWith ['.'] ((Text.splitOn '.' name).map fun part => part.takeWhile (· != '\x60'))

/-- The documentation comment of a piece in its file. -/
def SourceFile.comment (f : SourceFile) (p : Piece) : Except ResolveError (Option Text) :=
  match f.tree.precedingSiblings? p.nodeKind p.offset p.stop with
  | none => .error (.declarationNotFound f.path p.offset)
  | some siblings => .ok (Comment.above? f.text p.offset siblings)

namespace Compilation

/-- The builder after the declarations of all files. -/
def builderOf (files : List SourceFile) : IndexBuilder :=
  files.zipIdx.foldl (fun b (f, ordinal) => b.enterFile ordinal f) .empty

/-- The compilation of some files. -/
def ofFiles (files : List SourceFile) : Compilation := ⟨files, (builderOf files).build⟩

/-- The first type whose dotted name, with or without its arities, is the given one. -/
def findType? (c : Compilation) (name : Text) : Option SymbolId :=
  (c.index.idsWhere fun s => s.kind.isType).find? fun id =>
    match c.index.qualifiedName id with
    | .ok q => q == name || stripArity q == name
    | .error _ => false

/-- The first symbol with a documentation ID. -/
def findByDocId? (c : Compilation) (docId : Text) : Option SymbolId :=
  c.index.ids.find? fun id =>
    match c.index.docId id with
    | .ok d => d == docId
    | .error _ => false

/-- The symbols of a name right inside a type. -/
def membersNamed (c : Compilation) (id : SymbolId) (name : Text) : List SymbolId :=
  c.index.idsWhere fun s => s.container == some id && s.name == name

/-- The comment of a piece in the file that it names. -/
def comment (c : Compilation) (p : Piece) : Except ResolveError (Option Text) :=
  match c.files[p.file]? with
  | none =>
    .error (.declarationNotFound ("<file ".toList ++ Text.ofNat p.file ++ ['>']) p.offset)
  | some f => f.comment p

/-- The pieces of a symbol in order, each with its comment. -/
def comments (c : Compilation) (id : SymbolId) :
    Except ResolveError (List (Piece × Option Text)) :=
  (c.index.pieces id).bind fun pieces =>
    pieces.mapM fun p => (c.comment p).map fun comment => (p, comment)

end Compilation

end PartialDocs
