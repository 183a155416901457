import PartialDocs.Syntax.Phrase

/-!
# Reading a source

`Tree.ofText` reads the declarations of a source into a syntax tree: namespaces, types
with their members, and the comments between them.  The bodies of members are passed
over as blocks, and what is no declaration becomes a node of its own without children.
-/

set_option autoImplicit false

namespace PartialDocs.Phrase

open Lexeme (startWith enclosed before)

/-- A declaration up to its body: the kind of its node and the nodes of its parts. -/
structure Head where
  kind : String
  parts : List Tree

/-! ## Heads -/

/-- The name, the type parameters and the parameters of a type after its keywords. -/
def typeHead (kind : String) (keywords ls : List Lexeme) : Head :=
  let (typeParams, rest) := typeParameters (ls.drop 1)
  let (params, _) := parameters "(" "parameter_list" rest
  ⟨kind, keywords.map (fun l => token l) ++ (ls.take 1).map name ++ typeParams ++ params⟩

/-- The head of a delegate after its keyword. -/
def delegateHead? (keyword : Lexeme) (ls : List Lexeme) : Option Head :=
  (type? "type" ls).map fun (type, rest) =>
    let head := typeHead "delegate_declaration" [keyword] rest
    { head with parts := head.parts ++ [type] }

/-- The head of a namespace after its keyword. -/
def namespaceHead (isOpen : Bool) (keyword : Lexeme) (ls : List Lexeme) : Head :=
  ⟨if isOpen then "file_scoped_namespace_declaration" else "namespace_declaration",
    [token keyword, node "qualified_name" ls [] (some "name")]⟩

/-- The words that declare a type of the kind that they name. -/
def typeWords : List String := ["class", "struct", "interface", "enum"]

/-- The head of a type or of a namespace.  A namespace without a body of its own is open. -/
def outerHead? (isOpen : Bool) (ls : List Lexeme) : Option Head :=
  match ls with
  | [] => none
  | l :: rest =>
    if l.is "namespace" then some (namespaceHead isOpen l rest)
    else if l.is "delegate" && !startWith rest "*" then delegateHead? l rest
    else if l.isOneOf typeWords then
      some (typeHead (String.ofList l.text ++ "_declaration") [l] rest)
    else if l.is "record" && rest.head?.any (·.kind == .word) then
      let more := rest.takeWhile fun l => l.isOneOf ["class", "struct"]
      some (typeHead "record_declaration" (l :: more) (rest.drop more.length))
    else none

/-- The declarators between commas, each with its name. -/
def declarators (ls : List Lexeme) : List Tree :=
  let isDeclarator := fun (part : List Lexeme) =>
    part.head?.any (·.kind == .word)
      && (part.drop 1).head?.all fun l => l.isOneOf ["=", "["]
  ((Lexeme.commaParts false 0 ls).filter isDeclarator).map fun part =>
    node "variable_declarator" part ((part.take 1).map name)

/-- The declaration of variables: their type and everything up to the end of the statement. -/
def variables? (ls : List Lexeme) : Option Tree :=
  (type? "type" ls).bind fun (type, rest) =>
    let found := declarators rest
    if found.isEmpty then none else some (node "variable_declaration" ls (type :: found))

/-- What follows the word operator: the token that is overloaded and its parameters. -/
def operatorParts (keyword : Lexeme) (ls : List Lexeme) : List Tree :=
  let checked := ls.takeWhile fun l => l.is "checked"
  let (symbol, rest) := before (fun l => l.is "(") false 0 (ls.drop checked.length)
  let symbol := if symbol.isEmpty then [] else [node "operator_token" symbol [] (some "operator")]
  (keyword :: checked).map (fun l => token l) ++ symbol
    ++ (parameters "(" "parameter_list" rest).1

/-- The head of a conversion after its direction. -/
def conversionHead? (direction : Lexeme) (ls : List Lexeme) : Option Head :=
  match ls with
  | [] => none
  | l :: rest =>
    if l.is "operator" then
      let rest := if startWith rest "checked" then rest.drop 1 else rest
      (type? "type" rest).map fun (type, rest) =>
        ⟨"conversion_operator_declaration",
          node "modifier" [direction] [] :: token l :: type
            :: (parameters "(" "parameter_list" rest).1⟩
    else none

/-- The interface in front of the name of a member, up to its last dot, and what follows. -/
def interfacePart (ls : List Lexeme) : List Tree × List Lexeme :=
  let chain := ls.take (ls.length - ((afterName? ls.length ls).getD ls).length)
  let afterDot := (chain.reverse.takeWhile fun l => !l.is ".").length
  if afterDot < chain.length then
    let taken := ls.take (chain.length - afterDot)
    ([node "explicit_interface_specifier" taken []], ls.drop taken.length)
  else ([], ls)

/-- The head of a member after its type. -/
def namedHead? (isStatement : Bool) (type : Tree) (ls : List Lexeme) : Option Head :=
  let (interface, ls) := interfacePart ls
  match ls with
  | [] => none
  | l :: rest =>
    if l.is "operator" then some ⟨"operator_declaration", type :: operatorParts l rest⟩
    else if l.is "this" then
      some ⟨"indexer_declaration",
        type :: interface ++ token l :: (parameters "[" "bracketed_parameter_list" rest).1⟩
    else if l.kind != .word then none
    else
      let (typeParams, rest) := typeParameters rest
      if startWith rest "(" then
        some ⟨"method_declaration",
          type :: interface ++ name l :: typeParams ++ (parameters "(" "parameter_list" rest).1⟩
      else if rest.isEmpty && !isStatement then
        some ⟨"property_declaration", type :: interface ++ [name l]⟩
      else none

/-- The head of an event after its keyword. -/
def eventHead? (isStatement : Bool) (keyword : Lexeme) (ls : List Lexeme) : Option Head :=
  if isStatement then
    (variables? ls).map fun list => ⟨"event_field_declaration", [token keyword, list]⟩
  else
    (type? "type" ls).map fun (type, rest) =>
      let (interface, rest) := interfacePart rest
      ⟨"event_declaration", token keyword :: type :: interface ++ (rest.take 1).map name⟩

/-- The head of a member.  A statement ends without a body. -/
def memberHead? (isStatement : Bool) (ls : List Lexeme) : Option Head :=
  match ls with
  | [] => none
  | l :: rest =>
    if l.is "event" then eventHead? isStatement l rest
    else if l.isOneOf ["implicit", "explicit"] then conversionHead? l rest
    else if l.is "~" then
      some ⟨"destructor_declaration",
        token l :: (rest.take 1).map name ++ (parameters "(" "parameter_list" (rest.drop 1)).1⟩
    else if l.kind == .word && startWith rest "(" then
      some ⟨"constructor_declaration", name l :: (parameters "(" "parameter_list" rest).1⟩
    else
      ((type? "type" ls).bind fun (type, rest) => namedHead? isStatement type rest).or
        (if isStatement then
          (variables? ls).map fun list => ⟨"field_declaration", [list]⟩
        else none)

/-! ## Declarations -/

/-- Whether a lexeme ends the head of a declaration. -/
def endsHead (l : Lexeme) : Bool := l.isOneOf ["\x7b", "\x7d", ";", "=>", "="]

/-- Cut lexemes after the end of the statement at hand. -/
def statement (ls : List Lexeme) : List Lexeme × List Lexeme :=
  let (taken, rest) := before (fun l => l.isOneOf [";", "\x7d"]) false 0 ls
  if startWith rest ";" then (taken ++ rest.take 1, rest.drop 1) else (taken, rest)

/-- Whether a lexeme belongs to a head. -/
def isSpoken (l : Lexeme) : Bool := l.kind != .comment && l.kind != .directive

/-- Cut lexemes before the end of the head of a declaration.  An operator may be an equals sign. -/
def cutHead (ls : List Lexeme) : List Lexeme × List Lexeme :=
  let (head, rest) := before endsHead false 0 ls
  if (head.getLast?.any fun l => l.is "operator") then
    let (more, rest) := before (fun l => l.isOneOf ["\x7b", "\x7d", ";"] || l.is "=>") false 0 rest
    (head ++ more, rest)
  else (head, rest)

/-- The member of an enumeration that some lexemes between commas spell, after the comments in
front of it. -/
def enumMember (ls : List Lexeme) : List Tree :=
  let comments := ls.takeWhile fun l => !isSpoken l
  let spoken := (ls.drop comments.length).filter isSpoken
  let (lists, rest) := attributes spoken.length spoken
  comments.map (fun l => node "comment" [l] [])
    ++ if rest.isEmpty then []
      else [node "enum_member_declaration" spoken (lists ++ (rest.take 1).map name)]

/-- The body of an enumeration. -/
def enumBody (ls : List Lexeme) : Tree :=
  node "enum_member_declaration_list" ls
    ((Lexeme.commaParts false 0 (Lexeme.between ls)).flatMap enumMember) (some "body")

/-- The node over some lexemes that a semicolon may follow, with the lexemes after it. -/
def closeWith (kind : String) (ls rest : List Lexeme) (parts : List Tree) : Tree × List Lexeme :=
  let more := if startWith rest ";" then rest.take 1 else []
  (node kind (ls ++ more) parts, rest.drop more.length)

/-- The kinds of members whose body holds accessors. -/
def accessorKinds : List String :=
  ["property_declaration", "indexer_declaration", "event_declaration"]

/-- The body of a member between braces or after an arrow, and what follows the member. -/
def memberBody (kind : String) (ls : List Lexeme) : List Tree × List Lexeme × List Lexeme :=
  let hasAccessors := accessorKinds.contains kind
  if startWith ls "\x7b" then
    let (block, rest) := enclosed false 0 ls
    let tree :=
      if hasAccessors then node "accessor_list" block [] (some "accessors")
      else node "block" block [] (some "body")
    if hasAccessors && startWith rest "=" then
      let (initial, rest) := statement rest
      ([tree], block ++ initial, rest)
    else ([tree], block, rest)
  else
    let (taken, rest) := statement ls
    if startWith ls "=>" then
      ([node "arrow_expression_clause" taken.dropLast []
        (some (if hasAccessors then "value" else "body"))], taken, rest)
    else ([], taken, rest)

/-- The kinds of declarations whose body holds declarations. -/
def outerKinds : List String :=
  ["namespace_declaration", "class_declaration", "struct_declaration", "interface_declaration",
    "record_declaration"]

/-- The body that holds declarations, read by the given reader, and what follows. -/
def declarationBody (inner : List Lexeme → List Tree) (ls : List Lexeme) :
    Tree × List Lexeme × List Lexeme :=
  let (block, rest) := enclosed false 0 ls
  let first := (block.take 1).map fun l => token l
  let last := ((block.drop 1).getLast?.map fun l => token l).toList
  (node "declaration_list" block (first ++ inner (Lexeme.between block) ++ last) (some "body"),
    block, rest)

/-- Read one declaration, given how to read the declarations of a body. -/
def declaration (inner : List Lexeme → List Tree) (ls : List Lexeme) : Tree × List Lexeme :=
  let (head, rest) := cutHead ls
  let spoken := head.filter isSpoken
  let (front, words) := modifiers spoken
  let isStatement := startWith rest ";" || startWith rest "="
  let whole := spoken ++ if isStatement then (statement rest).1.dropLast else []
  let wholeWords := whole.drop (spoken.length - words.length)
  match (outerHead? (startWith rest ";") words).or (memberHead? isStatement wholeWords) with
  | none =>
    let (_, body, rest) := memberBody "ERROR" rest
    (node "global_statement" (spoken ++ body) [], rest)
  | some h =>
    if startWith rest "\x7b" && outerKinds.contains h.kind then
      let (body, block, rest) := declarationBody inner rest
      closeWith h.kind (spoken ++ block) rest (front ++ h.parts ++ [body])
    else if startWith rest "\x7b" && h.kind == "enum_declaration" then
      let (block, rest) := enclosed false 0 rest
      closeWith h.kind (spoken ++ block) rest (front ++ h.parts ++ [enumBody block])
    else
      let (body, taken, rest) := memberBody h.kind rest
      (node h.kind (spoken ++ taken) (front ++ h.parts ++ body), rest)

/-- Read declarations and the comments between them to the end. -/
def declarations : Nat → List Lexeme → List Tree
  | 0, _ => []
  | _ + 1, [] => []
  | fuel + 1, l :: ls =>
    if l.kind == .comment then node "comment" [l] [] :: declarations fuel ls
    else if l.kind == .directive then node "directive" [l] [] :: declarations fuel ls
    else if l.isOneOf [";", "\x7d"] then token l :: declarations fuel ls
    else if startWith (l :: ls) "using" then
      let (taken, rest) := statement (l :: ls)
      node "using_directive" taken [] :: declarations fuel rest
    else
      let (tree, rest) := declaration (declarations fuel) (l :: ls)
      tree :: declarations fuel rest

end PartialDocs.Phrase

namespace PartialDocs

/-- The syntax tree of a source. -/
def Tree.ofText (s : Text) : Tree :=
  let ls := Lexeme.ofText s
  Phrase.node "compilation_unit" ls (Phrase.declarations ls.length ls)

end PartialDocs
