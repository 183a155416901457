import PartialDocs.Text.Basic

/-!
# What can go wrong

Each family of errors lists its causes; `message` words them.
-/

set_option autoImplicit false

namespace PartialDocs

/-- Errors while the documentation of a symbol is worked out. -/
inductive ResolveError where
  /-- No symbol has the number. -/
  | unknownSymbol (id : Nat)
  /-- A symbol without a piece. -/
  | noDeclarations (name : Text)
  /-- No node of the file has the kind and span of a piece. -/
  | declarationNotFound (path : Text) (offset : Nat)
  deriving DecidableEq, Repr

/-- Errors while a source is parsed. -/
inductive SyntaxError where
  | grammar (reason : Text)
  | parseFailed (path : Text)
  deriving DecidableEq, Repr

/-- Refusals of the file system. -/
inductive FileError where
  | noSuchFile
  | alreadyExists
  | notADirectory
  | isADirectory
  | notText
  deriving DecidableEq, Repr

/-- Errors while sources are gathered. -/
inductive SourceError where
  | notFound (path : Text)
  | tooLarge (path : Text) (sizeMb limitMb : Nat)
  /-- No source is left. -/
  | empty (path : Text)
  | file (cause : FileError)
  deriving DecidableEq, Repr

/-- Errors while settings are read or written. -/
inductive ConfigError where
  | parse (reason : Text)
  | invalidValue (key reason : Text)
  | file (cause : FileError)
  deriving DecidableEq, Repr

/-- Whether an error can only come from a broken index and never from an unknown symbol. -/
def ResolveError.isInternal : ResolveError → Bool
  | .unknownSymbol _ => false
  | .noDeclarations _ | .declarationNotFound _ _ => true

/-- The wording of an error. -/
def ResolveError.message : ResolveError → Text
  | .unknownSymbol id => "Unknown symbol id ".toList ++ Text.ofNat id
  | .noDeclarations name =>
    "Internal error: symbol '".toList ++ name ++ "' has no declarations".toList
  | .declarationNotFound path offset =>
    "Internal error: declaration at byte ".toList ++ Text.ofNat offset
      ++ " not found in ".toList ++ path

/-- The wording of an error. -/
def SyntaxError.message : SyntaxError → Text
  | .grammar reason => "Failed to load C# grammar: ".toList ++ reason
  | .parseFailed path => "Failed to parse ".toList ++ path

/-- The wording of a refusal. -/
def FileError.message : FileError → Text
  | .noSuchFile => "No such file or directory (os error 2)".toList
  | .alreadyExists => "File exists (os error 17)".toList
  | .notADirectory => "Not a directory (os error 20)".toList
  | .isADirectory => "Is a directory (os error 21)".toList
  | .notText => "stream did not contain valid UTF-8".toList

/-- The wording of an error. -/
def SourceError.message : SourceError → Text
  | .notFound path => "Path not found: ".toList ++ path
  | .tooLarge path sizeMb limitMb =>
    "File too large (".toList ++ Text.ofNat sizeMb ++ "MB > ".toList ++ Text.ofNat limitMb
      ++ "MB limit): ".toList ++ path
  | .empty path => "No C# sources found under: ".toList ++ path
  | .file cause => cause.message

/-- The wording of an error. -/
def ConfigError.message : ConfigError → Text
  | .parse reason => "Config parse error: ".toList ++ reason
  | .invalidValue key reason =>
    "Invalid value for '".toList ++ key ++ "': ".toList ++ reason
  | .file cause => cause.message

end PartialDocs
