import PartialDocs.TypeRef.Parser

/-!
# Reading a type by its characters

The readers of a type once more, as a walk over the characters of a text instead of its tokens.
The state of the walk is what stands from its position on.  A step leaves out the blanks there and
takes a given character where it comes next (`eat`).  Loops go on as long as they take something;
the readers that call each other pass on one unit less of fuel, as those of tokens do.
-/

set_option autoImplicit false

namespace PartialDocs.TypeRef

/-- What a walk finds, with the text from its position on. -/
abbrev Walking (α : Type) := Option (α × Text)

/-- Leave out the blanks at the position, and take a character where it comes next. -/
def eat (c : Char) (s : Text) : Bool × Text :=
  match s.trimStart with
  | [] => (false, [])
  | d :: rest => if d = c then (true, rest) else (false, d :: rest)

/-- Nothing is put back into the text, and what is taken is missing from it. -/
theorem length_eat (c : Char) (s : Text) :
    (eat c s).2.length ≤ s.length ∧ ((eat c s).1 = true → (eat c s).2.length < s.length) := by
  have htrim : s.trimStart.length ≤ s.length := (List.dropWhile_sublist isBlankChar).length_le
  unfold eat
  split
  · simp
  · rename_i d rest hd
    rw [hd, List.length_cons] at htrim
    split
    · exact ⟨Nat.le_of_succ_le htrim, fun _ => htrim⟩
    · exact ⟨htrim, by simp⟩

/-- Where a character is not taken, nothing but blanks is gone. -/
theorem length_le_of_eat {c : Char} {taken : Bool} {s rest : Text} (h : eat c s = (taken, rest)) :
    rest.length ≤ s.length := by
  have := (length_eat c s).1
  rwa [h] at this

/-- Where a character is taken, less of the text is left. -/
theorem length_lt_of_eat {c : Char} {s rest : Text} (h : eat c s = (true, rest)) :
    rest.length < s.length := by
  have := (length_eat c s).2
  rw [h] at this
  exact this rfl

/-- Take an identifier, with or without an at sign. -/
def eatIdentifier (s : Text) : Walking Text :=
  let s := (eat '@' s).2
  if s.takeWhile isIdentifierChar = [] then none
  else some (s.takeWhile isIdentifierChar, s.dropWhile isIdentifierChar)

/-- Take a name, with the alias before a double colon where there is one. -/
def eatName (s : Text) : Walking Text :=
  (eatIdentifier s).bind fun (name, s) =>
    match eat ':' s with
    | (false, s) => some (name, s)
    | (true, s) =>
      match eat ':' s with
      | (false, _) => none
      | (true, s) =>
        (eatIdentifier s).map fun (rest, s) =>
          (if name = "global".toList then rest else name ++ '.' :: rest, s)

/-- Take the commas at the position, and add their number to the given one. -/
def eatCommas (rank : Nat) (s : Text) : Nat × Text :=
  match _h : eat ',' s with
  | (true, s) => eatCommas (rank + 1) s
  | (false, s) => (rank, s)
termination_by s.length
decreasing_by exact length_lt_of_eat _h

/-- Taking commas puts nothing back into the text. -/
theorem length_eatCommas_le (rank : Nat) (s : Text) : (eatCommas rank s).2.length ≤ s.length := by
  fun_induction eatCommas rank s with
  | case1 rank s rest h ih => exact Nat.le_trans ih (Nat.le_of_lt (length_lt_of_eat h))
  | case2 rank s rest h => exact length_le_of_eat h

/-- Take the marks after a type: nullable, pointer and array. -/
def eatSuffixes (t : TypeRef) (s : Text) : Walking TypeRef :=
  match _h : eat '?' s with
  | (true, s) => eatSuffixes (.nullable t) s
  | (false, s) =>
    match _h : eat '*' s with
    | (true, s) => eatSuffixes (.pointer t) s
    | (false, s) =>
      match _h : eat '[' s with
      | (false, s) => some (t, s)
      | (true, s) =>
        match _h : eat ']' (eatCommas 1 s).2 with
        | (true, s') => eatSuffixes (.array t (eatCommas 1 s).1) s'
        | (false, _) => none
termination_by s.length
decreasing_by
  · exact length_lt_of_eat _h
  · exact Nat.lt_of_lt_of_le (length_lt_of_eat _h) (length_le_of_eat ‹_›)
  · have hcommas := length_eatCommas_le 1 s
    have hclosed := length_lt_of_eat _h
    have hopened := length_lt_of_eat ‹eat '[' _ = _›
    have hstar := length_le_of_eat ‹eat '*' _ = _›
    have hhook := length_le_of_eat ‹eat '?' _ = _›
    omega

/-- Take the name of a tuple element, where there is one. -/
def eatElementName (s : Text) : Option Text :=
  if TypeToken.startsWord s.trimStart then (eatIdentifier s.trimStart).map Prod.snd
  else some s.trimStart

mutual

/-- Take a type. -/
def eatType : Nat → Text → Walking TypeRef
  | 0, _ => none
  | fuel + 1, s =>
    match eat '(' s with
    | (true, s) => (eatElements fuel s).bind fun (es, s) => eatSuffixes (.tuple es) s
    | (false, s) => (eatSegments fuel s).bind fun (ss, s) => eatSuffixes (.named ss) s

/-- Take the elements of a tuple up to its closing parenthesis. -/
def eatElements : Nat → Text → Walking (List TypeRef)
  | 0, _ => none
  | fuel + 1, s =>
    (eatType fuel s).bind fun (e, s) =>
      (eatElementName s).bind fun s =>
        match eat ')' s with
        | (true, s) => some ([e], s)
        | (false, s) =>
          match eat ',' s with
          | (true, s) => (eatElements fuel s).map fun (es, s) => (e :: es, s)
          | (false, _) => none

/-- Take the type arguments up to the closing angle bracket. -/
def eatArguments : Nat → Text → Walking (List TypeRef)
  | 0, _ => none
  | fuel + 1, s =>
    (eatType fuel s).bind fun (a, s) =>
      match eat '>' s with
      | (true, s) => some ([a], s)
      | (false, s) =>
        match eat ',' s with
        | (true, s) => (eatArguments fuel s).map fun (as, s) => (a :: as, s)
        | (false, _) => none

/-- Take a dotted name. -/
def eatSegments : Nat → Text → Walking (List TypeSegment)
  | 0, _ => none
  | fuel + 1, s =>
    (eatName s).bind fun (name, s) =>
      let arguments : Walking (List TypeRef) :=
        match eat '<' s with
        | (true, s) => eatArguments fuel s
        | (false, s) => some ([], s)
      arguments.bind fun (as, s) =>
        match eat '.' s with
        | (true, s) => (eatSegments fuel s).map fun (ss, s) => (.mk name as :: ss, s)
        | (false, s) => some ([.mk name as], s)

end

/-- The type that the characters of a text spell, up to blanks at the end. -/
def ofCharacters? (s : Text) : Option TypeRef :=
  match eatType (3 * s.length + 3) s with
  | some (t, rest) => if rest.trimStart = [] then some t else none
  | none => none

end PartialDocs.TypeRef
