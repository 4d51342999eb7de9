/-!
Numbers as they are written in decimal.

`Numeral.read` accepts exactly one grammar: an optional sign, then digits with at most one point
and at least one digit, then an optional exponent; or, in any mixture of cases, `inf`, `infinity`
or `nan`.  It returns what was written rather than a rounded value, so that one reading serves
every type of number the library computes with.
-/

namespace SpacerTurning
namespace Number

/-- The value `± digits * 10 ^ exponent`.  The sign is kept apart from the digits because a
negative zero is written differently from a positive one. -/
structure Decimal where
  negative : Bool
  digits : Nat
  exponent : Int
deriving DecidableEq, Repr

/-- What a numeral can stand for. -/
inductive Numeral where
  | decimal (value : Decimal)
  | infinity (negative : Bool)
  | nan
deriving DecidableEq, Repr

/-- The value of a run of decimal digits. -/
def ofDigits (ds : List Char) : Nat := Nat.ofDigitChars 10 ds 0

theorem ofDigits_toDigits (n : Nat) : ofDigits (Nat.toDigits 10 n) = n :=
  Nat.ofDigitChars_ten_toDigits

/-- A leading sign, and what follows it. -/
def takeSign : List Char → Bool × List Char
  | '-' :: cs => (true, cs)
  | '+' :: cs => (false, cs)
  | cs => (false, cs)

/-- The exponent part: nothing, or a mark and a whole number that ends the text. -/
def readExponent : List Char → Option Int
  | [] => some 0
  | mark :: cs =>
    if mark = 'e' ∨ mark = 'E' then
      let (negative, ds) := takeSign cs
      if ds ≠ [] ∧ ds.all Char.isDigit then
        some (if negative then -(ofDigits ds : Int) else ofDigits ds)
      else none
    else none

/-- Digits with at most one point among them, then an exponent part. -/
def readUnsigned (negative : Bool) (cs : List Char) : Option Decimal :=
  let whole := cs.takeWhile Char.isDigit
  let afterWhole := cs.dropWhile Char.isDigit
  let (fraction, rest) :=
    match afterWhole with
    | '.' :: r => (r.takeWhile Char.isDigit, r.dropWhile Char.isDigit)
    | r => ([], r)
  if whole = [] ∧ fraction = [] then none
  else (readExponent rest).map fun e =>
    { negative, digits := ofDigits (whole ++ fraction), exponent := e - fraction.length }

namespace Numeral

def read (cs : List Char) : Option Numeral :=
  let (negative, body) := takeSign cs
  let name := body.map Char.toLower
  if name = ['i', 'n', 'f'] ∨ name = ['i', 'n', 'f', 'i', 'n', 'i', 't', 'y'] then
    some (.infinity negative)
  else if name = ['n', 'a', 'n'] then some .nan
  else (readUnsigned negative body).map .decimal

end Numeral
end Number
end SpacerTurning
