/-!
# Text as a list of characters

The library works on text as the list of its Unicode scalar values.  This module
holds the cuts that every other module needs: splitting at a separator and joining
back, taking a known beginning or end away, and replacing one character.  The main
statements say that `splitOn` and `joinWith` undo each other and that
`stripPrefix?` accepts exactly the texts that begin with its first argument.
-/

set_option autoImplicit false

namespace PartialDocs

/-- Text is a sequence of Unicode scalar values. -/
abbrev Text := List Char

namespace Text

/-- Put a character in front of the first piece of a split. -/
def consFirst (c : Char) : List Text → List Text
  | [] => [[c]]
  | piece :: rest => (c :: piece) :: rest

/-- The maximal pieces between separators, at least one. -/
def splitOn (sep : Char) : Text → List Text
  | [] => [[]]
  | c :: rest => if c = sep then [] :: splitOn sep rest else consFirst c (splitOn sep rest)

/-- The pieces with the given text between neighbours. -/
def joinWith (sep : Text) : List Text → Text
  | [] => []
  | [piece] => piece
  | piece :: next :: rest => piece ++ sep ++ joinWith sep (next :: rest)

/-- The lines of a text, which are cut at line feeds. -/
def lines (s : Text) : List Text := splitOn '\n' s

/-- Lines written one below the other. -/
def unlines (ls : List Text) : Text := joinWith ['\n'] ls

/-- What follows a known beginning. -/
def stripPrefix? : Text → Text → Option Text
  | [], s => some s
  | _ :: _, [] => none
  | p :: ps, c :: s => if p = c then stripPrefix? ps s else none

/-- What precedes a known end. -/
def stripSuffix? (ending s : Text) : Option Text :=
  (stripPrefix? ending.reverse s.reverse).map List.reverse

/-- Take a known beginning away where it is there. -/
def dropPrefix (beginning s : Text) : Text := (stripPrefix? beginning s).getD s

/-- Take a known end away where it is there. -/
def dropSuffix (ending s : Text) : Text := (stripSuffix? ending s).getD s

/-- The text with every occurrence of one character replaced by another text. -/
def replace (old : Char) (new : Text) (s : Text) : Text :=
  s.flatMap fun c => if c = old then new else [c]

/-- A number in decimal digits. -/
def ofNat (n : Nat) : Text := Nat.toDigits 10 n

/-- The text before the first occurrence of a word, or all of it. -/
def beforeFirst (word : Text) : Text → Text
  | [] => []
  | c :: rest => if (stripPrefix? word (c :: rest)).isSome then [] else c :: beforeFirst word rest

/-- Whether a text sorts before another one or is the same. -/
def sortsBy (s t : Text) : Bool := !List.lex t s

/-- What follows the last line feed. -/
def lastLine (s : Text) : Text := (s.reverse.takeWhile (· != '\n')).reverse

/-- The empty text is one empty part. -/
@[simp] theorem splitOn_nil (sep : Char) : splitOn sep [] = [[]] := rfl

/-- With a character in front there is a piece. -/
theorem consFirst_ne_nil (c : Char) (ps : List Text) : consFirst c ps ≠ [] := by
  cases ps <;> simp [consFirst]

/-- A text has a piece. -/
theorem splitOn_ne_nil (sep : Char) (s : Text) : splitOn sep s ≠ [] := by
  cases s with
  | nil => simp
  | cons c rest =>
    unfold splitOn
    split
    · simp
    · exact consFirst_ne_nil c _

/-- A character in front of the first piece stands in front of the whole. -/
theorem joinWith_consFirst (sep : Text) (c : Char) (ps : List Text) :
    joinWith sep (consFirst c ps) = c :: joinWith sep ps := by
  match ps with
  | [] => rfl
  | [_] => rfl
  | _ :: _ :: _ => rfl

/-- Joining the pieces of a split with the separator gives the text back. -/
theorem joinWith_splitOn (sep : Char) (s : Text) : joinWith [sep] (splitOn sep s) = s := by
  induction s with
  | nil => rfl
  | cons c rest ih =>
    unfold splitOn
    split
    · rename_i h
      obtain ⟨p, ps, hp⟩ := List.exists_cons_of_ne_nil (splitOn_ne_nil sep rest)
      rw [hp] at ih ⊢
      simp [joinWith, ih, h]
    · rw [joinWith_consFirst, ih]

/-- A beginning is found exactly where the text is that beginning and a rest. -/
theorem stripPrefix?_eq_some_iff {p s rest : Text} :
    stripPrefix? p s = some rest ↔ s = p ++ rest := by
  fun_induction stripPrefix? p s with
  | case1 => simp [eq_comm]
  | case2 => simp
  | case3 p ps s ih => simpa using ih
  | case4 p ps c s h =>
    simp only [reduceCtorEq, List.cons_append, List.cons.injEq, false_iff, not_and]
    exact fun hc => absurd hc.symm h

/-- A beginning is taken away. -/
@[simp] theorem stripPrefix?_append (p s : Text) : stripPrefix? p (p ++ s) = some s :=
  stripPrefix?_eq_some_iff.2 rfl

end Text

end PartialDocs
