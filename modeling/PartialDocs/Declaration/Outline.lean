import PartialDocs.Declaration.Head

/-!
# The outline of a source

The declarations of a source as a tree: a type holds the declarations of its body, and
nothing else does.  `SourceFile.outline` reads it from the syntax tree alone, before any
declaration is compared with another.  A namespace with a body gives its name to the
declarations inside, a file-scoped one to those after it.
-/

set_option autoImplicit false

namespace PartialDocs

/-- A declaration with the declarations of its body.  The symbol does not yet say what contains
it. -/
inductive Declaration where
  | mk (symbol : Symbol) (piece : Piece) (members : List Declaration)

namespace Declaration

/-- The declared symbol. -/
def symbol : Declaration → Symbol
  | mk s _ _ => s

/-- Where the symbol is declared. -/
def piece : Declaration → Piece
  | mk _ p _ => p

/-- The declarations of the body. -/
def members : Declaration → List Declaration
  | mk _ _ ds => ds

/-- What surrounds a node: a namespace, and whether the next thing around it is a type. -/
structure Scope where
  nameSpace : Option Text
  inType : Bool
  deriving DecidableEq, Repr

namespace Scope

/-- The outermost scope. -/
def file : Scope := ⟨none, false⟩

/-- The scope of the body of a type. -/
def typeBody : Scope := ⟨none, true⟩

/-- The scope of a namespace inside the given one. -/
def enter (scope : Scope) (name : Text) : Scope :=
  match scope.nameSpace with
  | none => ⟨some name, false⟩
  | some outer => ⟨some (outer ++ '.' :: name), false⟩

end Scope

variable (file : Nat) (source : Text)

/-- The members of an enumeration, given the children of its body. -/
def enumMembers (children : List Tree) : List Declaration :=
  (children.filter fun t => t.label.named && t.kind == "enum_member_declaration").map fun t =>
    mk { name := nameOf source t, kind := .enumMember } (pieceOf source file .whole t) []

/-- The declarations that a member node makes: one for each declarator of a field, else one. -/
def memberDeclarations (kind : SymbolKind) (t : Tree) : List Declaration :=
  if t.kind == "field_declaration" || t.kind == "event_field_declaration" then
    (declaratorNames source t).map fun name =>
      mk { name := name, kind := kind } (pieceOf source file .whole t) []
  else
    let s := memberSymbol source kind t
    [mk s (pieceOf source file (memberRole s t) t) []]

/-- The scope of the siblings after a node. -/
def scopeAfter (scope : Scope) (t : Tree) : Scope :=
  if t.label.named && t.kind == "file_scoped_namespace_declaration" then
    scope.enter (nameOf source t)
  else scope

mutual

/-- The declarations that one node makes in a scope. -/
def ofNode (scope : Scope) : Tree → List Declaration
  | .node l cs =>
    let t := Tree.node l cs
    if !l.named then []
    else if l.kind == "namespace_declaration" then ofBody (scope.enter (nameOf source t)) cs
    else if l.kind == "file_scoped_namespace_declaration" then
      ofSiblings (scope.enter (nameOf source t)) cs
    else
      match SymbolKind.ofTypeNode? l.kind with
      | some kind =>
        let s := typeSymbol source kind scope.nameSpace t
        let role := if s.isPartial then Role.part else Role.whole
        let members :=
          if kind == .enum then
            enumMembers file source (((t.childByField? "body").map Tree.children).getD [])
          else ofBody Scope.typeBody cs
        [mk s (pieceOf source file role t) members]
      | none =>
        match SymbolKind.ofMemberNode? l.kind with
        | some kind => if scope.inType then memberDeclarations file source kind t else []
        | none => []

/-- The declarations that neighbouring nodes make, the scope passing from each to the next. -/
def ofSiblings (scope : Scope) : List Tree → List Declaration
  | [] => []
  | t :: ts => ofNode scope t ++ ofSiblings (scopeAfter source scope t) ts

/-- The declarations below the first of the given nodes that is a body. -/
def ofBody (scope : Scope) : List Tree → List Declaration
  | [] => []
  | t :: ts => if t.label.field == some "body" then ofChildren scope t else ofBody scope ts

/-- The declarations that the children of a node make. -/
def ofChildren (scope : Scope) : Tree → List Declaration
  | .node _ cs => ofSiblings scope cs

end

end Declaration

/-- The outline of a source file with the given ordinal. -/
def SourceFile.outline (f : SourceFile) (ordinal : Nat) : List Declaration :=
  Declaration.ofChildren ordinal f.text .file f.tree

end PartialDocs
