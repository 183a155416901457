import PartialDocs.Syntax.Lexeme
import PartialDocs.Syntax.Tree

/-!
# Phrases of a declaration

The trees of what the head of a declaration is made of: attributes, modifiers, types,
type parameters and parameters.  Of a type and of an attribute only the span is kept.
-/

set_option autoImplicit false

namespace PartialDocs.Phrase

open Lexeme (startWith enclosed between commaParts)

/-- The node over some lexemes. -/
def node (kind : String) (ls : List Lexeme) (children : List Tree) (field : Option String := none) :
    Tree :=
  let start := (ls.head?.map Lexeme.start).getD 0
  let stop := (ls.getLast?.map Lexeme.stop).getD 0
  .node ⟨kind, true, start, stop, field⟩ children

/-- The node of a bare token. -/
def token (l : Lexeme) (field : Option String := none) : Tree :=
  .node ⟨String.ofList l.text, false, l.start, l.stop, field⟩ []

/-- The node of a name that fills the field for it. -/
def name (l : Lexeme) : Tree := node "identifier" [l] [] (some "name")

/-- The words that modify a declaration. -/
def modifierWords : List String :=
  ["public", "private", "protected", "internal", "static", "abstract", "sealed", "virtual",
    "override", "readonly", "const", "volatile", "extern", "unsafe", "new", "partial", "async",
    "required", "file", "ref", "fixed"]

/-- The attributes in front of some lexemes, and the lexemes after them. -/
def attributes : Nat → List Lexeme → List Tree × List Lexeme
  | 0, ls => ([], ls)
  | fuel + 1, ls =>
    if startWith ls "[" then
      let (list, rest) := enclosed false 0 ls
      let (more, rest) := attributes fuel rest
      (node "attribute_list" list [] :: more, rest)
    else ([], ls)

/-- The attributes and modifiers in front of some lexemes, and the lexemes after them. -/
def modifiers (ls : List Lexeme) : List Tree × List Lexeme :=
  let (lists, ls) := attributes ls.length ls
  let isModifier := fun (l : Lexeme) => l.kind == .word && l.isOneOf modifierWords
  (lists ++ (ls.takeWhile isModifier).map fun l => node "modifier" [l] [], ls.dropWhile isModifier)

/-! ## Types -/

/-- What follows the marks after a type: nullable, pointer and array. -/
def afterSuffixes : Nat → List Lexeme → List Lexeme
  | 0, ls => ls
  | fuel + 1, ls =>
    match ls with
    | [] => []
    | l :: rest =>
      if l.isOneOf ["?", "*"] then afterSuffixes fuel rest
      else if l.is "[" then afterSuffixes fuel (enclosed false 0 ls).2
      else ls

/-- What follows type arguments, where there are some. -/
def afterArguments (ls : List Lexeme) : List Lexeme :=
  if startWith ls "<" then (enclosed true 0 ls).2 else ls

/-- What follows a dotted name with its type arguments. -/
def afterName? : Nat → List Lexeme → Option (List Lexeme)
  | 0, _ => none
  | fuel + 1, ls =>
    match ls with
    | [] => none
    | l :: rest =>
      if l.kind != .word then none
      else
        match afterArguments rest with
        | [] => some []
        | next :: more =>
          if next.isOneOf [".", "::"] then afterName? fuel more else some (next :: more)

/-- What follows a type. -/
def afterType? (ls : List Lexeme) : Option (List Lexeme) :=
  let ls := ls.dropWhile fun l => l.isOneOf ["ref", "readonly", "scoped"]
  if startWith ls "(" then some (afterSuffixes ls.length (enclosed false 0 ls).2)
  else (afterName? ls.length ls).map (afterSuffixes ls.length)

/-- A type with its node in a field, and the lexemes after it. -/
def type? (field : String) (ls : List Lexeme) : Option (Tree × List Lexeme) :=
  (afterType? ls).map fun rest =>
    (node "type" (ls.take (ls.length - rest.length)) [] (some field), rest)

/-! ## Lists -/

/-- The node of a type parameter, whose name is its last word. -/
def typeParameter (ls : List Lexeme) : Tree :=
  node "type_parameter" ls ((ls.getLast?.map name).toList)

/-- The list of type parameters in front of some lexemes, where there is one. -/
def typeParameters (ls : List Lexeme) : List Tree × List Lexeme :=
  if startWith ls "<" then
    let (list, rest) := enclosed true 0 ls
    let items := (commaParts true 0 (between list)).map typeParameter
    ([node "type_parameter_list" list items (some "type_parameters")], rest)
  else ([], ls)

/-- The words that may stand in front of a parameter. -/
def parameterWords : List String := ["this", "ref", "out", "in", "scoped", "readonly"]

/-- The nodes of a parameter.  One that takes any number of arguments has no node of its own. -/
def parameter (ls : List Lexeme) : List Tree :=
  let (lists, inner) := attributes ls.length ls
  let isFree := startWith inner "params"
  let words := inner.takeWhile fun l => l.isOneOf ("params" :: parameterWords)
  match type? "type" (inner.drop words.length) with
  | none => [node "ERROR" ls []]
  | some (type, rest) =>
    let children := lists ++ words.map (fun l => token l) ++ type :: (rest.take 1).map name
    if isFree then children else [node "parameter" ls children]

/-- The list of parameters in front of some lexemes, where there is one in the given brackets. -/
def parameters (opening kind : String) (ls : List Lexeme) : List Tree × List Lexeme :=
  if startWith ls opening then
    let (list, rest) := enclosed false 0 ls
    let items := (commaParts true 0 (between list)).flatMap parameter
    ([node kind list items (some "parameters")], rest)
  else ([], ls)

end PartialDocs.Phrase
