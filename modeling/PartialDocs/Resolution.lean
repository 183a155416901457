import PartialDocs.Compilation
import PartialDocs.Merge
import PartialDocs.Text.LowerCase
import PartialDocs.Xml.DocFile

/-!
# Resolving documentation

From the comments of its pieces to the element that a documentation file holds for a
symbol.  Whether a partial method that has no body is documented is a matter of policy.
-/

set_option autoImplicit false

namespace PartialDocs

/-- What becomes of a partial method that no piece implements. -/
inductive UnimplementedPolicy where
  /-- It is not documented. -/
  | omitted
  /-- The comment of the defining piece documents it. -/
  | defining
  deriving DecidableEq, Repr

namespace UnimplementedPolicy

/-- The policy in words. -/
def label : UnimplementedPolicy → Text
  | .omitted => "omit".toList
  | .defining => "defining".toList

/-- The policy with exactly the given words. -/
def ofLabel? (words : Text) : Option UnimplementedPolicy :=
  [omitted, defining].find? fun p => p.label == words

/-- The refusal of words that name no policy. -/
def refusal (words : Text) : Text :=
  "expected 'omit' or 'defining', got '".toList ++ words ++ ['\'']

/-- The policy with the given words in any case, or the refusal of the words in lower case. -/
def read (words : Text) : Except Text UnimplementedPolicy :=
  let lower := Text.toLowerCase words
  match ofLabel? lower with
  | some p => .ok p
  | none => .error (refusal lower)

end UnimplementedPolicy

/-- A documentation file with the number of its members. -/
structure DocFile where
  assembly : Text
  members : Nat
  xml : Text
  deriving DecidableEq, Repr

namespace Compilation

/-- The documentation of a symbol from the comments of its pieces. -/
def merged (c : Compilation) (id : SymbolId) : Except ResolveError (Option Text) :=
  (c.index.symbol id).bind fun s =>
    (c.comments id).map fun comments =>
      mergeComments (.ofSymbol s) (comments.map fun (p, comment) => (p.role, comment))

/-- Whether a symbol is a partial method without an implementing piece. -/
def isUnimplemented (c : Compilation) (id : SymbolId) : Except ResolveError Bool :=
  (c.index.symbol id).bind fun s =>
    if s.isPartialMethod then
      (c.index.pieces id).map fun pieces => !pieces.any fun p => p.role == .implementing
    else .ok false

/-- The element of a symbol whose documentation is known. -/
def element (c : Compilation) (id : SymbolId) : Option Text → Except ResolveError Text
  | none => .ok []
  | some body => (c.index.docId id).map fun docId => Xml.member docId body

/-- The element of a symbol, empty where it is not documented. -/
def xml (c : Compilation) (policy : UnimplementedPolicy) (id : SymbolId) :
    Except ResolveError Text :=
  (c.index.symbol id).bind fun _ =>
    (if policy = .omitted then c.isUnimplemented id else .ok false).bind fun skip =>
      if skip then .ok [] else (c.merged id).bind (c.element id)

/-- The elements of the documented symbols in order. -/
def elements (c : Compilation) (policy : UnimplementedPolicy) : Except ResolveError (List Text) :=
  (c.index.ids.mapM (c.xml policy)).map fun xs => xs.filter fun x => !x.isEmpty

/-- The documentation file of an assembly. -/
def docFile (c : Compilation) (policy : UnimplementedPolicy) (assembly : Text) :
    Except ResolveError DocFile :=
  (c.elements policy).map fun xs => ⟨assembly, xs.length, Xml.file assembly xs⟩

end Compilation

end PartialDocs
