import SpacerTurning.Document.Json

/-!
Writing TOML.

A document of plain values and of tables of plain values is written as the plain values first and
then every table under its header, with a blank line before a header.  A text gets the quotes in
which it needs the fewest marks.
-/

namespace SpacerTurning
namespace Toml

open Number

-- Powers here are the core ones, also where a richer library is in scope.
attribute [local instance (high)] instPowNat

/-- Numbers never have an exponent, and a whole one shows its point. -/
def numberNotation : Notation := { tie := .up, wholeMark := ".0", positional := none }

def numberText (x : Float) : String := Binary64.text numberNotation "inf" "nan" x

/-- What decides about the quotes of a text. -/
structure Marks where
  /-- There are control characters other than tabs and line feeds. -/
  control : Bool
  backslash : Bool
  lineFeed : Bool
  /-- The longest run of single quotes, and that of double quotes. -/
  singles : Nat
  doubles : Nat

/-- The longest run of a character, after a run of `current` of them. -/
def longestRun (c : Char) : Nat → List Char → Nat
  | current, [] => current
  | current, d :: rest =>
    if d = c then longestRun c (current + 1) rest else max current (longestRun c 0 rest)

/-- Control characters that must be written as something else. -/
def isControl (c : Char) : Bool :=
  (c.toNat < 32 && c != '\t' && c != '\n') || c.toNat = 127

def marks (cs : List Char) : Marks where
  control := cs.any isControl
  backslash := cs.contains '\\'
  lineFeed := cs.contains '\n'
  singles := longestRun '\'' 0 cs
  doubles := longestRun '"' 0 cs

/-- Quotes of one line or of several. -/
inductive Quotes where
  | basic
  | literal
  | longBasic
  | longLiteral
deriving DecidableEq, Repr

def Quotes.choose (m : Marks) : Quotes :=
  if !m.control && !m.backslash && m.doubles = 0 && !m.lineFeed then .basic
  else if !m.control && m.singles = 0 && !m.lineFeed then .literal
  else if !m.control && !m.backslash && m.doubles ≤ 2 then .longBasic
  else if !m.control && m.singles ≤ 2 then .longLiteral
  else if m.lineFeed then .longBasic
  else .basic

/-- A digit to base sixteen, in capitals. -/
def hexDigit (n : Nat) : Char := (Json.hexDigit n).toUpper

/-- The text between double quotes.  Up to `allowed` quotes in a row stand as they are, and `long`
says that line feeds do; `run` counts the quotes just before. -/
def basicBody (allowed : Nat) (long : Bool) : Nat → List Char → List Char
  | _, [] => []
  | run, c :: rest =>
    if c = '"' then
      if run < allowed then '"' :: basicBody allowed long (run + 1) rest
      else '\\' :: '"' :: basicBody allowed long 0 rest
    else if c = '\\' then '\\' :: '\\' :: basicBody allowed long 0 rest
    else if c = '\x08' then '\\' :: 'b' :: basicBody allowed long 0 rest
    else if c = '\t' then '\\' :: 't' :: basicBody allowed long 0 rest
    else if c = '\n' then
      (if long then ['\n'] else ['\\', 'n']) ++ basicBody allowed long 0 rest
    else if c = '\x0c' then '\\' :: 'f' :: basicBody allowed long 0 rest
    else if c = '\r' then '\\' :: 'r' :: basicBody allowed long 0 rest
    else if c.toNat < 32 ∨ c.toNat = 127 then
      ['\\', 'u', '0', '0', hexDigit (c.toNat / 16), hexDigit (c.toNat % 16)]
        ++ basicBody allowed long 0 rest
    else c :: basicBody allowed long 0 rest

def quote (s : String) : String :=
  let cs := s.toList
  let m := marks cs
  let start := if m.lineFeed then "\n" else ""
  match Quotes.choose m with
  | .basic => "\"" ++ String.ofList (basicBody 0 false 0 cs) ++ "\""
  | .literal => "'" ++ s ++ "'"
  | .longBasic => "\"\"\"" ++ start ++ String.ofList (basicBody 2 true 0 cs) ++ "\"\"\""
  | .longLiteral => "'''" ++ start ++ s ++ "'''"

/-- A plain value.  Whole numbers have 64 bits, of which one is the sign. -/
def plainText? : Document → Option String
  | .bool b => some (if b then "true" else "false")
  | .integer n => if -(2 ^ (63 : Nat)) ≤ n ∧ n < 2 ^ (63 : Nat) then some (toString n) else none
  | .number x => some (numberText x)
  | .text s => some (quote s)
  | _ => none

/-- The lines of plain values under bare names. -/
def plainLines : List (String × Document) → Option (List String)
  | [] => some []
  | (name, d) :: rest => do
    let text ← plainText? d
    let lines ← plainLines rest
    return (name ++ " = " ++ text) :: lines

/-- The lines of tables, each under its header and behind a blank line. -/
def tableLines : List (String × Document) → Option (List String)
  | [] => some []
  | (name, .table entries) :: rest => do
    let lines ← plainLines entries
    let more ← tableLines rest
    return "" :: ("[" ++ name ++ "]") :: lines ++ more
  | _ :: _ => none

/-- The text of a document, if it has no more than tables of plain values in it, and no whole number
that is too large. -/
def write : Document → Option String
  | .table entries => do
    let isTable : String × Document → Bool
      | (_, .table _) => true
      | _ => false
    let top ← plainLines (entries.filter fun e => !isTable e)
    let tables ← tableLines (entries.filter isTable)
    let lines := if top = [] then tables.drop 1 else top ++ tables
    return String.join (lines.map (· ++ "\n"))
  | _ => none

end Toml
end SpacerTurning
