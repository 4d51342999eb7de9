import SpacerTurning.Number.Decimal
import SpacerTurning.Document.Basic

/-!
Documents in JSON.

`Json.read` takes a whole text as one document.  `Json.write` gives every entry and every item a
line of its own, two blanks further in than what it belongs to.
-/

namespace SpacerTurning
namespace Json

open Number

-- Powers here are the core ones, also where a richer library is in scope.
attribute [local instance (high)] instPowNat

/-! ## Reading -/

def isBlank (c : Char) : Bool := c = ' ' || c = '\n' || c = '\t' || c = '\r'

def hexDigit? (c : Char) : Option Nat :=
  if c.isDigit then some (c.toNat - '0'.toNat)
  else if 'a' ≤ c ∧ c ≤ 'f' then some (c.toNat - 'a'.toNat + 10)
  else if 'A' ≤ c ∧ c ≤ 'F' then some (c.toNat - 'A'.toNat + 10)
  else none

def hex? (ds : List Char) : Option Nat :=
  ds.foldlM (fun n d => (hexDigit? d).map (16 * n + ·)) 0

/-- The character that a letter after a backslash stands for. -/
def escape? : Char → Option Char
  | '"' => some '"'
  | '\\' => some '\\'
  | '/' => some '/'
  | 'b' => some '\x08'
  | 'f' => some '\x0c'
  | 'n' => some '\n'
  | 'r' => some '\r'
  | 't' => some '\t'
  | _ => none

/-- The rest of a quoted text: its code numbers, those already read in reverse, and what follows
the closing quote.  A character beyond 16 bits may be written as two halves. -/
def quoted : List Char → List Nat → Option (List Nat × List Char)
  | '"' :: rest, codes => some (codes.reverse, rest)
  | '\\' :: 'u' :: a :: b :: c :: d :: rest, codes =>
    match hex? [a, b, c, d] with
    | some n => quoted rest (n :: codes)
    | none => none
  | '\\' :: e :: rest, codes =>
    match escape? e with
    | some c => quoted rest (c.toNat :: codes)
    | none => none
  | c :: rest, codes => if c.toNat < 32 then none else quoted rest (c.toNat :: codes)
  | [], _ => none

/-- First halves of a character. -/
def isHighHalf (n : Nat) : Bool := 0xD800 ≤ n && n < 0xDC00

/-- Second halves of a character. -/
def isLowHalf (n : Nat) : Bool := 0xDC00 ≤ n && n < 0xE000

/-- The text of code numbers, with halves put together; there is none when a half is alone. -/
def ofCodes? : List Nat → List Char → Option String
  | [], cs => some (String.ofList cs.reverse)
  | [n], cs => if isHighHalf n || isLowHalf n then none else ofCodes? [] (Char.ofNat n :: cs)
  | n :: m :: rest, cs =>
    if isHighHalf n then
      if isLowHalf m then
        ofCodes? rest (Char.ofNat (0x10000 + (n - 0xD800) * 0x400 + (m - 0xDC00)) :: cs)
      else none
    else if isLowHalf n then none
    else ofCodes? (m :: rest) (Char.ofNat n :: cs)

def takeDigits (cs : List Char) : List Char × List Char :=
  (cs.takeWhile Char.isDigit, cs.dropWhile Char.isDigit)

/-- The whole part of a number: a zero alone, or digits that start with another one. -/
def takeWhole (cs : List Char) : Option (List Char × List Char) :=
  match takeDigits cs with
  | ([], _) => none
  | ('0' :: _ :: _, _) => none
  | (ds, rest) => some (ds, rest)

/-- A point and digits, if there is a point. -/
def takeFraction : List Char → Option (Option (List Char) × List Char)
  | '.' :: cs =>
    match takeDigits cs with
    | ([], _) => none
    | (ds, rest) => some (some ds, rest)
  | cs => some (none, cs)

/-- An exponent, if there is a mark of one. -/
def takeExponent : List Char → Option (Option Int × List Char)
  | c :: cs =>
    if c = 'e' ∨ c = 'E' then
      let (negative, body) := takeSign cs
      match takeDigits body with
      | ([], _) => none
      | (ds, rest) =>
        let e : Int := ofDigits ds
        some (some (if negative then -e else e), rest)
    else some (none, c :: cs)
  | [] => some (none, [])

/-- A machine number that is in range. -/
def inRange (x : Float) : Document := if x.isFinite then .number x else .beyond

/-- The document of a number.  A whole number that 64 bits hold stays whole. -/
def numberDocument (negative : Bool) (whole : List Char) (fraction : Option (List Char))
    (exponent : Option Int) : Document :=
  match fraction, exponent with
  | none, none =>
    let n := ofDigits whole
    if negative then
      if n = 0 then .number (-0.0)
      else if n ≤ 2 ^ (63 : Nat) then .integer (-(n : Int))
      else inRange (Binary64.ofDecimal { negative, digits := n, exponent := 0 })
    else if n < 2 ^ (64 : Nat) then .integer n
    else inRange (Binary64.ofDecimal { negative, digits := n, exponent := 0 })
  | _, _ =>
    let places := fraction.getD []
    inRange (Binary64.ofDecimal
      { negative
        digits := ofDigits (whole ++ places)
        exponent := exponent.getD 0 - places.length })

def number (cs : List Char) : Option (Document × List Char) := do
  let (negative, body) := match cs with
    | '-' :: rest => (true, rest)
    | _ => (false, cs)
  let (whole, rest) ← takeWhole body
  let (fraction, rest) ← takeFraction rest
  let (exponent, rest) ← takeExponent rest
  return (numberDocument negative whole fraction exponent, rest)

/-- What is left behind a word at the front of a text. -/
def word (w : List Char) (cs : List Char) : Option (List Char) :=
  if w.isPrefixOf cs then some (cs.drop w.length) else none

/-- A key, if it is a text, and what is left behind its colon. -/
def key (cs : List Char) : Option (Option String × List Char) :=
  match cs.dropWhile isBlank with
  | '"' :: rest => do
    let (codes, rest) ← quoted rest []
    match rest.dropWhile isBlank with
    | ':' :: rest => some (ofCodes? codes [], rest)
    | _ => none
  | _ => none

/-- Entries read so far, in reverse.  There are none to be had when a key is no text. -/
abbrev Entries := Option (List (String × Document))

def Entries.add (before : Entries) (name : Option String) (d : Document) : Entries := do
  return (← name, d) :: (← before)

def Entries.table : Entries → Document
  | some entries => .table entries.reverse
  | none => .beyond

mutual

/-- A document from the front of a text.  The fuel bounds the characters that are used up. -/
def value : Nat → List Char → Option (Document × List Char)
  | 0, _ => none
  | fuel + 1, cs =>
    match cs.dropWhile isBlank with
    | '\x7b' :: rest =>
      match rest.dropWhile isBlank with
      | '\x7d' :: rest => some (.table [], rest)
      | rest => entries fuel rest (some [])
    | '[' :: rest =>
      match rest.dropWhile isBlank with
      | ']' :: rest => some (.list [], rest)
      | rest => items fuel rest []
    | '"' :: rest =>
      match quoted rest [] with
      | some (codes, rest) =>
        some (((ofCodes? codes []).map Document.text).getD .beyond, rest)
      | none => none
    | 't' :: rest => (word ['r', 'u', 'e'] rest).map fun r => (.bool true, r)
    | 'f' :: rest => (word ['a', 'l', 's', 'e'] rest).map fun r => (.bool false, r)
    | 'n' :: rest => (word ['u', 'l', 'l'] rest).map fun r => (.null, r)
    | rest => number rest

/-- The items of a list up to its end, with those already read in reverse. -/
def items : Nat → List Char → List Document → Option (Document × List Char)
  | 0, _, _ => none
  | fuel + 1, cs, before =>
    match value fuel cs with
    | none => none
    | some (d, rest) =>
      match rest.dropWhile isBlank with
      | ',' :: rest => items fuel rest (d :: before)
      | ']' :: rest => some (.list (d :: before).reverse, rest)
      | _ => none

/-- The entries of a table up to its end, with those already read in reverse. -/
def entries : Nat → List Char → Entries → Option (Document × List Char)
  | 0, _, _ => none
  | fuel + 1, cs, before =>
    match key cs with
    | none => none
    | some (name, rest) =>
      match value fuel rest with
      | none => none
      | some (d, rest) =>
        match rest.dropWhile isBlank with
        | ',' :: rest => entries fuel rest (before.add name d)
        | '\x7d' :: rest => some ((before.add name d).table, rest)
        | _ => none

end

def read (text : String) : Option Document :=
  let cs := text.toList
  match value (cs.length + 1) cs with
  | some (d, rest) => if rest.all isBlank then some d else none
  | none => none

/-- A list may not be longer than a record, and a name may be the key of null. -/
def dialect : Dialect where
  longLists := false
  isEmptyContent
    | .null => true
    | _ => false

/-! ## Writing -/

/-- Numbers have an exponent when their first digit is five places behind the point, or further, or
when they have more than sixteen digits before it. -/
def numberNotation : Notation := { tie := .even, wholeMark := ".0", positional := some (-4, 16) }

/-- A number.  What is no finite number is null. -/
def numberText (x : Float) : String :=
  if x.isFinite then Binary64.text numberNotation "null" "null" x else "null"

def hexDigit (n : Nat) : Char := ("0123456789abcdef".toList)[n]?.getD '0'

def escaped (c : Char) : List Char :=
  if c = '"' then ['\\', '"']
  else if c = '\\' then ['\\', '\\']
  else if c = '\x08' then ['\\', 'b']
  else if c = '\x0c' then ['\\', 'f']
  else if c = '\n' then ['\\', 'n']
  else if c = '\r' then ['\\', 'r']
  else if c = '\t' then ['\\', 't']
  else if c.toNat < 32 then
    ['\\', 'u', '0', '0', hexDigit (c.toNat / 16), hexDigit (c.toNat % 16)]
  else [c]

def quote (s : String) : String := "\"" ++ String.ofList (s.toList.flatMap escaped) ++ "\""

def newLine (depth : Nat) : String := "\n" ++ String.ofList (List.replicate (2 * depth) ' ')

mutual

def textAt : Nat → Document → String
  | _, .null => "null"
  | _, .bool b => if b then "true" else "false"
  | _, .integer n => toString n
  | _, .number x => numberText x
  | _, .text s => quote s
  | _, .list [] => "[]"
  | depth, .list (d :: rest) =>
    "[" ++ newLine (depth + 1) ++ textAt (depth + 1) d ++ itemsText (depth + 1) rest
      ++ newLine depth ++ "]"
  | _, .table [] => "\x7b\x7d"
  | depth, .table ((name, d) :: rest) =>
    "\x7b" ++ newLine (depth + 1) ++ quote name ++ ": " ++ textAt (depth + 1) d
      ++ entriesText (depth + 1) rest ++ newLine depth ++ "\x7d"
  | _, .beyond => "null"

/-- Further items, each behind a comma. -/
def itemsText : Nat → List Document → String
  | _, [] => ""
  | depth, d :: rest => "," ++ newLine depth ++ textAt depth d ++ itemsText depth rest

/-- Further entries, each behind a comma. -/
def entriesText : Nat → List (String × Document) → String
  | _, [] => ""
  | depth, (name, d) :: rest =>
    "," ++ newLine depth ++ quote name ++ ": " ++ textAt depth d ++ entriesText depth rest

end

def write (d : Document) : String := textAt 0 d

end Json
end SpacerTurning
