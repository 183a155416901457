import PartialDocs.Symbol.Basic

/-!
# The symbols around a symbol

A symbol names what contains it by number.  `containerWalk` follows these numbers
outward.  It stops at a symbol that nothing contains or at a number that no symbol has.
After one step more than there are symbols it has come by one of them twice and would
never stop.
-/

set_option autoImplicit false

namespace PartialDocs

/-- How a walk outward ends. -/
inductive WalkEnd where
  /-- At a symbol that nothing contains. -/
  | top
  /-- At a number that no symbol has. -/
  | missing (id : SymbolId)
  /-- Not within the steps that it may take. -/
  | endless
  deriving DecidableEq, Repr

/-- The symbol with a number and those around it, innermost first, as far as a walk of so many steps
comes by them, and how the walk ends. -/
def containerWalkFrom (symbols : List Symbol) : Nat → SymbolId → List Symbol × WalkEnd
  | 0, _ => ([], .endless)
  | fuel + 1, id =>
    match symbols[id]? with
    | none => ([], .missing id)
    | some s =>
      match s.container with
      | none => ([s], .top)
      | some outer =>
        let (chain, stop) := containerWalkFrom symbols fuel outer
        (s :: chain, stop)

/-- The symbol with a number and those around it, innermost first, and how the walk to them ends. -/
def containerWalk (symbols : List Symbol) (id : SymbolId) : List Symbol × WalkEnd :=
  containerWalkFrom symbols (symbols.length + 1) id

/-- The type parameters of nested types, given innermost first, from the outermost type inward. -/
def nestedTypeParameters (chain : List Symbol) : List Text :=
  chain.reverse.flatMap Symbol.typeParameters

end PartialDocs
