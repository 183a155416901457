import PartialDocs.StandIn.Toml.Basic
import PartialDocs.StandIn.Toml.Quoted

/-!
# Numbers and times in TOML

A part of the stand-in for the library for TOML.  Whole numbers have 64 bits and may be
written in four bases.  Of numbers with a fraction or an exponent and of dates and times only
the form is checked, and that a number is not too great for a double.
-/

set_option autoImplicit false

namespace PartialDocs.Toml

/-! ## Numbers -/

/-- The digits at the beginning of a text and what follows.  Single underscores may stand between
digits and are left out. -/
def digitRun (base : Nat) : Text → Text × Text
  | [] => ([], [])
  | c :: rest =>
    if isDigitOf base c then
      let (digits, after) := digitRun base rest
      (c :: digits, after)
    else if c == '_' && rest.head?.any (isDigitOf base) then digitRun base rest
    else ([], c :: rest)

/-- Read digits, at least one. -/
def readDigits (base : Nat) (s : Text) : Reading Text :=
  if s.head?.any (isDigitOf base) then some (digitRun base s) else none

/-- Read the digits of a whole number, which has no zeros in front. -/
def readWhole : Text → Reading Text
  | '0' :: rest => some (['0'], rest)
  | s => readDigits 10 s

/-- Whether a text begins with a minus, and what follows its sign. -/
def splitSign : Text → Bool × Text
  | '-' :: rest => (true, rest)
  | '+' :: rest => (false, rest)
  | s => (false, s)

/-- A whole number of 64 bits. -/
def integer? (i : Int) : Option Toml :=
  if -Int.pow 2 63 ≤ i && i < Int.pow 2 63 then some (.integer i) else none

/-- Read the digits of a whole number after the mark of their base. -/
def readBased (base : Nat) (s : Text) : Reading Toml :=
  (readDigits base s).bind fun (digits, rest) =>
    (integer? (valueOf base digits)).map fun v => (v, rest)

/-- Read the digits after a point. -/
def readFraction : Text → Reading Text
  | '.' :: rest => readDigits 10 rest
  | _ => none

/-- Read an exponent. -/
def readExponent : Text → Reading Int
  | c :: rest =>
    if c == 'e' || c == 'E' then
      let (negative, body) := splitSign rest
      (readDigits 10 body).map fun (digits, rest) =>
        let n : Int := valueOf 10 digits
        (if negative then -n else n, rest)
    else none
  | [] => none

/-- The least number that is nearer to a power of two beyond the doubles than to any double. -/
def doubleBound : Nat := Nat.pow 2 1024 - Nat.pow 2 970

/-- Whether digits times a power of ten are too great for a double.  Such a number has 309 digits
before its point or more. -/
def isTooGreat (digits : Text) (exponent : Int) : Bool :=
  let significant := digits.dropWhile (· == '0')
  let place : Int := significant.length + exponent
  if significant.isEmpty || place < 309 then false
  else if 309 < place then true
  else
    doubleBound * Nat.pow 10 (-exponent).toNat
      ≤ valueOf 10 significant * Nat.pow 10 exponent.toNat

/-- Read what follows the whole part of a number.  A fraction or an exponent makes it a float. -/
def readAfterWhole (negative : Bool) (whole rest : Text) : Reading Toml :=
  let fraction? := readFraction rest
  let (fraction, afterFraction) := fraction?.getD ([], rest)
  let exponent? := readExponent afterFraction
  let (exponent, after) := exponent?.getD (0, afterFraction)
  if fraction?.isNone && exponent?.isNone then
    let n : Int := valueOf 10 whole
    (integer? (if negative then -n else n)).map fun v => (v, rest)
  else if !negative && isTooGreat (whole ++ fraction) (exponent - fraction.length) then none
  else some (.float, after)

/-- Read a number. -/
def readNumber (s : Text) : Reading Toml :=
  match s with
  | '0' :: 'x' :: rest => readBased 16 rest
  | '0' :: 'o' :: rest => readBased 8 rest
  | '0' :: 'b' :: rest => readBased 2 rest
  | _ =>
    let (negative, body) := splitSign s
    match (Text.stripPrefix? "inf".toList body).or (Text.stripPrefix? "nan".toList body) with
    | some rest => some (.float, rest)
    | none => (readWhole body).bind fun (whole, rest) => readAfterWhole negative whole rest

/-! ## Times -/

/-- Read two digits that spell a number between two bounds. -/
def readTwo (low high : Nat) (s : Text) : Reading Nat :=
  (readDigitsOf 10 2 s).filter fun (n, _) => low ≤ n && n ≤ high

/-- Leave out a mark that has to be there. -/
def afterMark? (mark : Char) : Text → Option Text
  | c :: rest => if c == mark then some rest else none
  | [] => none

/-- The number of days in a month. -/
def daysIn (year month : Nat) : Nat :=
  if month = 2 then
    if year % 4 = 0 && (year % 100 != 0 || year % 400 = 0) then 29 else 28
  else if [4, 6, 9, 11].contains month then 30
  else 31

/-- What follows a date. -/
def afterDate? (s : Text) : Option Text := do
  let (year, s) ← readDigitsOf 10 4 s
  let (month, s) ← (afterMark? '-' s).bind (readTwo 1 12)
  let (_, s) ← (afterMark? '-' s).bind (readTwo 1 (daysIn year month))
  return s

/-- What follows the fraction of a second, where there is one. -/
def afterSecondFraction : Text → Text
  | '.' :: rest =>
    if rest.head?.any (isDigitOf 10) then rest.dropWhile (isDigitOf 10) else '.' :: rest
  | s => s

/-- What follows a time of day. -/
def afterTime? (s : Text) : Option Text := do
  let (_, s) ← readTwo 0 23 s
  let (_, s) ← (afterMark? ':' s).bind (readTwo 0 59)
  let (_, s) ← (afterMark? ':' s).bind (readTwo 0 60)
  return afterSecondFraction s

/-- What follows the offset from universal time. -/
def afterOffset? : Text → Option Text
  | [] => none
  | c :: rest =>
    if c == 'Z' || c == 'z' then some rest
    else if c == '+' || c == '-' then do
      let (_, s) ← readTwo 0 23 rest
      let (_, s) ← (afterMark? ':' s).bind (readTwo 0 59)
      return s
    else none

/-- What follows the time of day after a date, where there is one. -/
def afterTimeOfDate : Text → Text
  | [] => []
  | c :: rest =>
    if c == 'T' || c == 't' || c == ' ' then
      match afterTime? rest with
      | some s => (afterOffset? s).getD s
      | none => c :: rest
    else c :: rest

/-- Whether a text begins with so many digits and a mark. -/
def beginsWithDigits (count : Nat) (mark : Char) (s : Text) : Bool :=
  (readDigitsOf 10 count s).any fun (_, rest) => rest.head? == some mark

/-- Read a date with or without a time, a time or a number. -/
def readPlain (s : Text) : Reading Toml :=
  if beginsWithDigits 4 '-' s then (afterDate? s).map fun rest => (.time, afterTimeOfDate rest)
  else if beginsWithDigits 2 ':' s then (afterTime? s).map fun rest => (.time, rest)
  else readNumber s

end PartialDocs.Toml
