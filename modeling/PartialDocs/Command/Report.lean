import PartialDocs.JsonValue
import PartialDocs.Resolution
import PartialDocs.Settings.Basic

/-!
# Reports

What a run prints: for every symbol where its pieces are and whether it is documented,
and everything else as an object that says whether the run succeeded.
-/

set_option autoImplicit false

namespace PartialDocs

/-- One piece of a listed symbol. -/
structure PieceEntry where
  file : Text
  /-- Counted from one. -/
  line : Nat
  role : Role
  hasComment : Bool
  deriving DecidableEq, Repr

/-- A listed symbol. -/
structure SymbolEntry where
  docId : Text
  kind : SymbolKind
  isPartial : Bool
  documented : Bool
  pieces : List PieceEntry
  deriving DecidableEq, Repr

namespace PieceEntry

/-- The entry of a piece, its file as seen from the root. -/
def ofPiece (c : Compilation) (root : Text) (p : Piece) (comment : Option Text) : PieceEntry where
  file := ((c.files[p.file]?).map fun f => Path.relativeTo root f.path).getD []
  line := p.line + 1
  role := p.role
  hasComment := comment.isSome

/-- The entry as JSON. -/
def toJson (e : PieceEntry) : JsonValue :=
  .record [("file", .text e.file), ("line", .number e.line), ("role", .text e.role.label),
    ("has_comment", .boolean e.hasComment)]

/-- The entry in one line of text. -/
def toText (e : PieceEntry) : Text :=
  e.file ++ ':' :: Text.ofNat e.line ++ " (".toList ++ e.role.label ++ [')']

end PieceEntry

namespace SymbolEntry

/-- The entry of a symbol. -/
def ofSymbol (c : Compilation) (policy : UnimplementedPolicy) (root : Text) (id : SymbolId) :
    Except ResolveError SymbolEntry := do
  let s ← c.index.symbol id
  let xml ← c.xml policy id
  let comments ← c.comments id
  let docId ← c.index.docId id
  return {
    docId
    kind := s.kind
    isPartial := s.isPartial
    documented := !xml.isEmpty
    pieces := comments.map fun (p, comment) => .ofPiece c root p comment }

/-- The entry as JSON. -/
def toJson (e : SymbolEntry) : JsonValue :=
  .record [("id", .text e.docId), ("kind", .text e.kind.label), ("partial", .boolean e.isPartial),
    ("documented", .boolean e.documented),
    ("declarations", .array (e.pieces.map PieceEntry.toJson))]

/-- The entry as a line of text. -/
def toText (e : SymbolEntry) : Text :=
  Text.joinWith ['\t']
    [e.docId, e.kind.label, Text.joinWith [',', ' '] (e.pieces.map PieceEntry.toText)] ++ ['\n']

/-- The entries of the symbols, all or only those that are documented. -/
def list (c : Compilation) (policy : UnimplementedPolicy) (root : Text) (documentedOnly : Bool) :
    Except ResolveError (List SymbolEntry) :=
  (c.index.ids.mapM (ofSymbol c policy root)).map fun entries =>
    entries.filter fun e => e.documented || !documentedOnly

end SymbolEntry

/-- Settings as JSON. -/
def Settings.toJson (s : Settings) : JsonValue :=
  .record [
    ("resolver", .record
      [("unimplemented_partial_methods", .text s.resolver.unimplemented.label)]),
    ("sources", .record
      [("extensions", .ofTexts s.sources.extensions),
        ("ignored_paths", .ofTexts s.sources.ignoredPaths),
        ("max_file_size_mb", .number s.sources.maxFileSizeMb),
        ("include_hidden", .boolean s.sources.includeHidden)]),
    ("output", .record
      [("format", .text s.output.format), ("assembly_name", .ofText? s.output.assemblyName)])]

namespace Report

/-- The report of a run that succeeded. -/
def success (fields : List (String × JsonValue)) : Text :=
  (JsonValue.record (("success", .boolean true) :: fields)).render

/-- The report of a run that failed. -/
def failure (message : Text) : Text :=
  (JsonValue.record [("success", .boolean false), ("error", .text message)]).render

/-- The report that lists symbols. -/
def symbols (entries : List SymbolEntry) : OutputFormat → Text
  | .text => entries.flatMap SymbolEntry.toText
  | .json =>
    success [("data", .record [("count", .number entries.length),
      ("symbols", .array (entries.map SymbolEntry.toJson))])]

/-- The report of one symbol. -/
def element (docId xml : Text) : OutputFormat → Text
  | .text => xml
  | .json =>
    success [("id", .text docId), ("documented", .boolean (!xml.isEmpty)), ("xml", .text xml)]

/-- The report of a documentation file that was not written to a path. -/
def docFile (f : DocFile) : OutputFormat → Text
  | .text => f.xml
  | .json =>
    success [("assembly", .text f.assembly), ("members", .number f.members), ("xml", .text f.xml)]

/-- The report of a documentation file that was written to a path. -/
def savedDocFile (f : DocFile) (root path : Text) : OutputFormat → Text
  | .text => Text.ofNat f.members ++ " member(s) written to ".toList ++ path ++ ['\n']
  | .json =>
    success [("assembly", .text f.assembly), ("members", .number f.members),
      ("path", .text (Path.relativeTo root path))]

end Report

end PartialDocs
