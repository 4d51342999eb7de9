import SpacerTurning.Number.Decimal
import SpacerTurning.Document.Json

/-!
Scalars of TOML.

Texts in four kinds of quotes, numbers with separators and bases, dates and times.  Every reader
here takes its scalar from the front of a text and returns what is left.
-/

namespace SpacerTurning
namespace Toml

open Number

-- Powers here are the core ones, also where a richer library is in scope.
attribute [local instance (high)] instPowNat

/-! ## Characters -/

def isBlank (c : Char) : Bool := c = ' ' || c = '\t'

/-- Characters that may stand in a comment. -/
def isPrintable (c : Char) : Bool := c = '\t' || (32 ≤ c.toNat && c.toNat ≠ 127)

/-- Characters of a name without quotes. -/
def isBare (c : Char) : Bool := c.isAlphanum || c = '-' || c = '_'

def lineEnd? : List Char → Option (List Char)
  | '\n' :: rest => some rest
  | '\r' :: '\n' :: rest => some rest
  | _ => none

/-! ## Texts -/

/-- The character with a code number, if there is one. -/
def charOf? (n : Nat) : Option Char := if n.isValidChar then some (Char.ofNat n) else none

/-- The character that a letter after a backslash stands for. -/
def escape? (c : Char) : Option Char := if c = '/' then none else Json.escape? c

/-- What a backslash and the characters after it stand for. -/
def escaped : List Char → Option (Char × List Char)
  | 'u' :: a :: b :: c :: d :: rest =>
    ((Json.hex? [a, b, c, d]).bind charOf?).map fun ch => (ch, rest)
  | 'U' :: a :: b :: c :: d :: e :: f :: g :: h :: rest =>
    ((Json.hex? [a, b, c, d, e, f, g, h]).bind charOf?).map fun ch => (ch, rest)
  | e :: rest => (escape? e).map fun ch => (ch, rest)
  | [] => none

/-- A text of one line in double quotes, behind the opening quote.  The fuel bounds its length. -/
def basicText : Nat → List Char → List Char → Option (String × List Char)
  | 0, _, _ => none
  | fuel + 1, cs, before =>
    match cs with
    | '"' :: rest => some (String.ofList before.reverse, rest)
    | '\\' :: rest =>
      match escaped rest with
      | some (c, rest) => basicText fuel rest (c :: before)
      | none => none
    | c :: rest => if isPrintable c then basicText fuel rest (c :: before) else none
    | [] => none

/-- A text of one line in single quotes, behind the opening quote. -/
def literalText (cs : List Char) : Option (String × List Char) :=
  match cs.dropWhile fun c => isPrintable c && c != '\'' with
  | '\'' :: rest =>
    some (String.ofList (cs.takeWhile fun c => isPrintable c && c != '\''), rest)
  | _ => none

/-- The end of a text of several lines: three quotes, of which up to two more before them belong to
the text. -/
def closing? (quote : Char) (cs : List Char) : Option (List Char × List Char) :=
  let run := (cs.takeWhile (· == quote)).length
  if 3 ≤ run then
    let inside := min run 5 - 3
    some (List.replicate inside quote, cs.drop (inside + 3))
  else none

/-- What is left behind blanks and line ends. -/
def afterEmptyLines : List Char → List Char
  | '\r' :: '\n' :: rest => afterEmptyLines rest
  | c :: rest => if isBlank c || c = '\n' then afterEmptyLines rest else c :: rest
  | [] => []

/-- What is left of a line that a backslash joins to the next one, behind the line end and all
blanks. -/
def joined? (cs : List Char) : Option (List Char) :=
  (lineEnd? (cs.dropWhile isBlank)).map afterEmptyLines

/-- A text of several lines in double quotes, behind the opening quotes. -/
def longBasicText : Nat → List Char → List Char → Option (String × List Char)
  | 0, _, _ => none
  | fuel + 1, cs, before =>
    match closing? '"' cs with
    | some (inside, rest) => some (String.ofList (before.reverse ++ inside), rest)
    | none =>
      match lineEnd? cs with
      | some rest => longBasicText fuel rest ('\n' :: before)
      | none =>
        match cs with
        | '\\' :: rest =>
          match joined? rest with
          | some rest => longBasicText fuel rest before
          | none =>
            match escaped rest with
            | some (c, rest) => longBasicText fuel rest (c :: before)
            | none => none
        | c :: rest => if isPrintable c then longBasicText fuel rest (c :: before) else none
        | [] => none

/-- A text of several lines in single quotes, behind the opening quotes. -/
def longLiteralText : Nat → List Char → List Char → Option (String × List Char)
  | 0, _, _ => none
  | fuel + 1, cs, before =>
    match closing? '\'' cs with
    | some (inside, rest) => some (String.ofList (before.reverse ++ inside), rest)
    | none =>
      match lineEnd? cs with
      | some rest => longLiteralText fuel rest ('\n' :: before)
      | none =>
        match cs with
        | c :: rest => if isPrintable c then longLiteralText fuel rest (c :: before) else none
        | [] => none

/-- A line end directly behind the opening quotes does not belong to the text. -/
def dropFirstLineEnd (cs : List Char) : List Char := (lineEnd? cs).getD cs

def anyText : List Char → Option (String × List Char)
  | '"' :: '"' :: '"' :: rest => longBasicText (rest.length + 1) (dropFirstLineEnd rest) []
  | '"' :: rest => basicText (rest.length + 1) rest []
  | '\'' :: '\'' :: '\'' :: rest => longLiteralText (rest.length + 1) (dropFirstLineEnd rest) []
  | '\'' :: rest => literalText rest
  | _ => none

/-! ## Numbers -/

/-- Further digits, with single separators among them. -/
def moreDigits (isDigit : Char → Bool) : List Char → List Char × List Char
  | '_' :: d :: rest =>
    if isDigit d then
      let (ds, rest) := moreDigits isDigit rest
      (d :: ds, rest)
    else ([], '_' :: d :: rest)
  | d :: rest =>
    if isDigit d then
      let (ds, rest) := moreDigits isDigit rest
      (d :: ds, rest)
    else ([], d :: rest)
  | [] => ([], [])

/-- Digits with single separators among them. -/
def digits (isDigit : Char → Bool) : List Char → Option (List Char × List Char)
  | d :: rest =>
    if isDigit d then
      let (ds, rest) := moreDigits isDigit rest
      some (d :: ds, rest)
    else none
  | [] => none

/-- The digits of a whole number: a zero alone, or some that start with another one. -/
def wholeDigits (cs : List Char) : Option (List Char × List Char) :=
  match cs with
  | '0' :: rest => some (['0'], rest)
  | _ => digits Char.isDigit cs

/-- A whole number that 64 bits hold, with a sign. -/
def inWords (negative : Bool) (n : Nat) : Option Document :=
  if negative then (if n ≤ 2 ^ (63 : Nat) then some (.integer (-(n : Int))) else none)
  else if n < 2 ^ (63 : Nat) then some (.integer n)
  else none

/-- A whole number to a base other than ten, behind its mark. -/
def basedNumber (base : Nat) (cs : List Char) : Option (Document × List Char) := do
  let isDigit (c : Char) : Bool := (Json.hexDigit? c).any fun d => decide (d < base)
  let (ds, rest) ← digits isDigit cs
  let n := ds.foldl (fun n d => base * n + (Json.hexDigit? d).getD 0) 0
  return (← inWords false n, rest)

def wholeNumber : List Char → Option (Document × List Char)
  | '0' :: 'x' :: rest => basedNumber 16 rest
  | '0' :: 'o' :: rest => basedNumber 8 rest
  | '0' :: 'b' :: rest => basedNumber 2 rest
  | cs => do
    let (negative, body) := takeSign cs
    let (ds, rest) ← wholeDigits body
    return (← inWords negative (ofDigits ds), rest)

def fraction? : List Char → Option (List Char × List Char)
  | '.' :: rest => digits Char.isDigit rest
  | _ => none

def exponent? : List Char → Option (Int × List Char)
  | c :: rest =>
    if c = 'e' ∨ c = 'E' then
      let (negative, body) := takeSign rest
      (digits Char.isDigit body).map fun (ds, rest) =>
        let e : Int := ofDigits ds
        (if negative then -e else e, rest)
    else none
  | [] => none

/-- A number with a fraction, an exponent or both.  One too large is no number; one too far below
zero is the infinity there. -/
def pointNumber (cs : List Char) : Option (Document × List Char) := do
  let (negative, body) := takeSign cs
  let (whole, rest) ← wholeDigits body
  let finish (places : List Char) (e : Int) (rest : List Char) : Option (Document × List Char) :=
    let x := Binary64.ofDecimal
      { negative, digits := ofDigits (whole ++ places), exponent := e - places.length }
    if !negative && !x.isFinite then none else some (.number x, rest)
  match exponent? rest with
  | some (e, rest) => finish [] e rest
  | none =>
    let (places, rest) ← fraction? rest
    match exponent? rest with
    | some (e, rest) => finish places e rest
    | none => finish places 0 rest

/-- An infinity, or what is no number, by name. -/
def namedNumber (cs : List Char) : Option (Document × List Char) :=
  match takeSign cs with
  | (negative, 'i' :: 'n' :: 'f' :: rest) =>
    some (.number (if negative then -(1.0 / 0.0) else 1.0 / 0.0), rest)
  | (negative, 'n' :: 'a' :: 'n' :: rest) =>
    some (.number (if negative then -(0.0 / 0.0) else 0.0 / 0.0), rest)
  | _ => none

/-! ## Dates and times -/

/-- A number of exactly so many digits, in a range. -/
def fixedNumber (places low high : Nat) (cs : List Char) : Option (Nat × List Char) :=
  let ds := cs.take places
  let n := ofDigits ds
  if ds.length = places ∧ ds.all Char.isDigit ∧ low ≤ n ∧ n ≤ high then
    some (n, cs.drop places)
  else none

def mark (c : Char) : List Char → Option (List Char)
  | d :: rest => if d = c then some rest else none
  | [] => none

def daysIn (year month : Nat) : Nat :=
  if month = 2 then (if year % 4 = 0 ∧ (year % 100 ≠ 0 ∨ year % 400 = 0) then 29 else 28)
  else if month = 4 ∨ month = 6 ∨ month = 9 ∨ month = 11 then 30
  else 31

def date? (cs : List Char) : Option (List Char) := do
  let (year, rest) ← fixedNumber 4 0 9999 cs
  let (month, rest) ← fixedNumber 2 1 12 (← mark '-' rest)
  let (_, rest) ← fixedNumber 2 1 (daysIn year month) (← mark '-' rest)
  return rest

def time? (cs : List Char) : Option (List Char) := do
  let (_, rest) ← fixedNumber 2 0 23 cs
  let (_, rest) ← fixedNumber 2 0 59 (← mark ':' rest)
  let (_, rest) ← fixedNumber 2 0 60 (← mark ':' rest)
  match rest with
  | '.' :: d :: more => if d.isDigit then some (more.dropWhile Char.isDigit) else none
  | _ => some rest

/-- What is left behind the distance of a local time, if there is one. -/
def afterOffset (cs : List Char) : Option (List Char) :=
  match cs with
  | c :: rest =>
    if c = 'Z' ∨ c = 'z' then some rest
    else if c = '+' ∨ c = '-' then do
      let (_, rest) ← fixedNumber 2 0 23 rest
      let (_, rest) ← fixedNumber 2 0 59 (← mark ':' rest)
      return rest
    else some cs
  | [] => some cs

/-- What is left behind a date, a time or both. -/
def moment? (cs : List Char) : Option (List Char) :=
  match date? cs with
  | some rest =>
    match rest with
    | c :: more =>
      if c = 'T' ∨ c = 't' ∨ c = ' ' then
        match time? more with
        | some rest => afterOffset rest
        | none => some rest
      else some rest
    | [] => some []
  | none => time? cs

/-- A date or time.  No setting is one, so it is a table with a single entry under a name that no
record has. -/
def moment : Document := .table [("date and time", .null)]

/-- A number, or a date or time. -/
def numeric (cs : List Char) : Option (Document × List Char) :=
  match moment? cs with
  | some rest => some (moment, rest)
  | none =>
    match namedNumber cs with
    | some found => some found
    | none =>
      match pointNumber cs with
      | some found => some found
      | none => wholeNumber cs

end Toml
end SpacerTurning
