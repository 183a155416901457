import PartialDocs.Command.Basic

/-!
# Reading a command line

A command line names a command, and some commands name another one in turn.  Around
these names stand options, long ones after two dashes and single letters after one, and
operands.  `readArguments` takes one argument after the other; the first one that does
not fit, or that asks for help or the version, decides.
-/

set_option autoImplicit false

namespace PartialDocs

/-- The options of all commands. -/
inductive Switch where
  | format
  | verbose
  | help
  | version
  | documented
  | assembly
  | output
  | everywhere
  | force
  deriving DecidableEq, Repr

namespace Switch

/-- The name of an option. -/
def long : Switch → Text
  | format => "format".toList
  | verbose => "verbose".toList
  | help => "help".toList
  | version => "version".toList
  | documented => "documented".toList
  | assembly => "assembly".toList
  | output => "output".toList
  | everywhere => "global".toList
  | force => "force".toList

/-- The letter of an option. -/
def letter? : Switch → Option Char
  | verbose => some 'v'
  | help => some 'h'
  | version => some 'V'
  | documented => some 'd'
  | assembly => some 'a'
  | output => some 'o'
  | force => some 'f'
  | format | everywhere => none

/-- Whether an option has a value. -/
def takesValue : Switch → Bool
  | format | assembly | output => true
  | verbose | help | version | documented | everywhere | force => false

/-- Whether an option may have a value.  A path is never empty. -/
def accepts (s : Switch) (v : Text) : Bool := !(s == output && v.isEmpty)

end Switch

/-- Where in a command line an argument stands: in front of the commands or after one. -/
inductive Verb where
  | program
  | symbols
  | xml
  | emit
  | config
  | configInit
  | configShow
  | configPath
  deriving DecidableEq, Repr

namespace Verb

/-- The commands that may be named next. -/
def members : Verb → List (Text × Verb)
  | program =>
    [("symbols".toList, symbols), ("xml".toList, xml), ("emit".toList, emit),
      ("config".toList, config)]
  | config =>
    [("init".toList, configInit), ("show".toList, configShow), ("path".toList, configPath)]
  | _ => []

/-- The options that only this command has. -/
def ownSwitches : Verb → List Switch
  | symbols => [.documented]
  | emit => [.assembly, .output]
  | configInit => [.everywhere, .force]
  | configShow => [.everywhere]
  | configPath => [.everywhere]
  | program | xml | config => []

/-- The options of a command. -/
def switches (v : Verb) : List Switch :=
  [.format, .verbose, .help, .version] ++ v.ownSwitches

/-- Whether operands may follow. -/
def takesOperands : Verb → Bool
  | symbols | xml | emit => true
  | program | config | configInit | configShow | configPath => false

/-- The option with a name. -/
def switchNamed? (v : Verb) (name : Text) : Option Switch :=
  v.switches.find? fun s => s.long == name

/-- The option with a letter. -/
def switchLettered? (v : Verb) (c : Char) : Option Switch :=
  v.switches.find? fun s => s.letter? == some c

/-- Whether help for a command, given by the names that lead to it, can be had. -/
def hasHelpOn (v : Verb) : List Text → Bool
  | [] => true
  | name :: rest =>
    match v.members.lookup name with
    | some next => next.hasHelpOn rest
    | none => !v.members.isEmpty && name == "help".toList && rest.isEmpty

end Verb

/-- What a command line comes to. -/
inductive Request where
  | refused
  | help
  | version
  | run (invocation : Invocation)
  deriving DecidableEq, Repr

/-- What was given to one command. -/
structure Given where
  values : List (Switch × Text) := []
  operands : List Text := []
  deriving DecidableEq, Repr

namespace Given

/-- The value of an option. -/
def value? (g : Given) (s : Switch) : Option Text := g.values.lookup s

/-- Whether an option was given. -/
def has (g : Given) (s : Switch) : Bool := (g.value? s).isSome

/-- Which settings were asked for. -/
def level (g : Given) : SettingsLevel := if g.has .everywhere then .everywhere else .project

end Given

/-- A command line up to some argument. -/
structure Progress where
  verb : Verb := .program
  given : Given := {}
  /-- What was given before the command was named, from the inside out. -/
  outer : List Given := []
  /-- The option whose value comes next. -/
  pending : Option Switch := none
  /-- Whether two dashes have made operands of all that follows. -/
  plain : Bool := false
  deriving DecidableEq, Repr

namespace Progress

/-- Go on to a command that was named. -/
def enter (p : Progress) (v : Verb) : Progress :=
  { verb := v, outer := p.given :: p.outer }

/-- Take an option with its value.  No option is given twice to one command. -/
def give (p : Progress) (s : Switch) (v : Text) : Except Request Progress :=
  if p.given.has s || !s.accepts v then .error .refused
  else .ok { p with given.values := p.given.values ++ [(s, v)], pending := none }

/-- Take an option without a value. -/
def flag (p : Progress) (s : Switch) : Except Request Progress :=
  match s with
  | .help => .error .help
  | .version => .error .version
  | _ => p.give s []

/-- Take an operand.  Only a documentation ID may be empty. -/
def operand (p : Progress) (a : Text) : Except Request Progress :=
  let mayBeEmpty := p.verb == .xml && p.given.operands.isEmpty
  if !p.verb.takesOperands || (a.isEmpty && !mayBeEmpty) then .error .refused
  else .ok { p with given.operands := p.given.operands ++ [a] }

/-- Take an option by its name, with its value after an equals sign or in the next argument. -/
def long (p : Progress) (a : Text) : Except Request Progress :=
  let name := a.takeWhile (· != '=')
  match p.verb.switchNamed? name, a.drop name.length with
  | none, _ => .error .refused
  | some s, '=' :: v => if s.takesValue then p.give s v else .error .refused
  | some s, _ => if s.takesValue then .ok { p with pending := some s } else p.flag s

/-- Take options by their letters.  The rest after the letter of an option that has a value is that
value. -/
def letters (p : Progress) : Text → Except Request Progress
  | [] => .ok p
  | c :: rest =>
    match p.verb.switchLettered? c with
    | none => .error .refused
    | some s =>
      if !s.takesValue then (p.flag s).bind fun p => p.letters rest
      else if rest.isEmpty then .ok { p with pending := some s }
      else p.give s (Text.dropPrefix ['='] rest)

/-- Take an argument that begins with a dash and is more than that.  A value never does. -/
def dashed (p : Progress) (a : Text) : Except Request Progress :=
  if p.pending.isSome then .error .refused
  else
    match a with
    | ['-'] => .ok { p with plain := true }
    | '-' :: name => p.long name
    | _ => p.letters a

/-- Take an argument. -/
def step (p : Progress) (a : Text) : Except Request Progress :=
  if p.plain then p.operand a
  else
    match if p.pending.isNone then p.verb.members.lookup a else none with
    | some v => .ok (p.enter v)
    | none =>
      match a, p.pending with
      | '-' :: c :: rest, _ => p.dashed (c :: rest)
      | _, some s => p.give s a
      | _, none => p.operand a

/-- Whether an argument asks for help by the command of that name. -/
def asksHelp (p : Progress) (a : Text) : Bool :=
  !p.plain && p.pending.isNone && !p.verb.members.isEmpty && a == "help".toList

/-- The name of the format, as given farthest in. -/
def format? (p : Progress) : Option Text :=
  (p.given :: p.outer).findSome? fun g => g.value? .format

/-- The command that was named and has all that it needs. -/
def command? (p : Progress) : Option Command :=
  let g := p.given
  match p.verb with
  | .program | .config => none
  | .symbols => some (.symbols g.operands (g.has .documented))
  | .xml => g.operands.head?.map fun docId => .xml docId g.operands.tail
  | .emit => some (.emit g.operands (g.value? .assembly) (g.value? .output))
  | .configInit => some (.config (.init g.level (g.has .force)))
  | .configShow => some (.config (.display (g.has .everywhere)))
  | .configPath => some (.config (.path g.level))

/-- What the command line comes to when no argument is left. -/
def finish (p : Progress) : Request :=
  match p.pending, p.command? with
  | none, some command => .run ⟨command, p.format?⟩
  | _, _ => .refused

/-- Take all arguments that are left. -/
def takeAll (p : Progress) : List Text → Request
  | [] => p.finish
  | a :: rest =>
    if p.asksHelp a then if p.verb.hasHelpOn rest then .help else .refused
    else
      match p.step a with
      | .ok p => p.takeAll rest
      | .error r => r

end Progress

/-- What a command line asks for. -/
def readArguments (arguments : List Text) : Request := Progress.takeAll {} arguments

end PartialDocs
