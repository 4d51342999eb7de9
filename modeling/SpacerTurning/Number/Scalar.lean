import SpacerTurning.Number.Decimal

/-!
The numbers the shop computes with.

Every rule that does arithmetic is written once, over any type with the operations of `Scalar`.
Two types have them: `Float`, on which programs are made and checked, and `Rat`, on which the same
rules are exact.  A statement about dimensions is made over `Rat`; a statement about what a
machine number can do is made over `Float`.
-/

namespace SpacerTurning

open Number

/-- A number type with the operations that the shop's rules use.  Comparisons may fail both ways,
as they do for a machine number that is no number. -/
class Scalar (α : Type) extends Add α, Sub α, Mul α, Div α, Neg α, LT α, LE α, BEq α,
    OfScientific α where
  decidableLt : DecidableLT α
  decidableLe : DecidableLE α
  /-- Neither infinite nor undefined. -/
  isFinite : α → Bool
  /-- The value without its sign. -/
  magnitude : α → α
  /-- The nearest whole number; a half goes away from zero. -/
  round : α → α
  /-- The least whole number that is not smaller. -/
  ceiling : α → α
  /-- The whole part, cut toward zero.  It is zero where there is no number, and an infinity
  counts as larger than every finite value. -/
  wholePart : α → Int
  /-- The value that a decimal numeral stands for, or the nearest there is. -/
  ofDecimal : Decimal → α
  /-- The shortest text that stands for this value and no other. -/
  shortest : α → String
  /-- The value with a fixed number of decimal places, a half going to the even digit. -/
  fixed : Nat → α → String

namespace Scalar

variable {α : Type} [Scalar α]

instance instDecidableLt : DecidableLT α := Scalar.decidableLt

instance instDecidableLe : DecidableLE α := Scalar.decidableLe

/-- A natural number as a scalar. -/
def ofNat (n : Nat) : α := OfScientific.ofScientific n false 0

/-- Numerals in rules over an unknown scalar.  A known number type has its own, which comes
first. -/
instance (priority := low) instOfNat (n : Nat) : OfNat α n := ⟨Scalar.ofNat n⟩

/-- The smaller of two values; the first when they are equal, the other one when one of them is
no number. -/
def smaller (a b : α) : α := if b < a then b else if a == a then a else b

/-- The larger of two values; the first when they are equal, the other one when one of them is
no number. -/
def larger (a b : α) : α := if a < b then b else if a == a then a else b

def least? : List α → Option α
  | [] => none
  | a :: rest => some (rest.foldl smaller a)

def greatest? : List α → Option α
  | [] => none
  | a :: rest => some (rest.foldl larger a)

/-- The whole part, cut to the range from `low` to `high`. -/
def wholeWithin (low high : Int) (x : α) : Int := max low (min high (wholePart x))

/-- The whole part as a natural number of at most `limit`. -/
def toNatWithin (limit : Nat) (x : α) : Nat := (wholeWithin 0 limit x).toNat

/-- The largest number that a code, a speed or a tool station can take: 32 bits hold it. -/
def codeLimit : Nat := 4294967295

/-- The largest count that a list of passes or levels can have: 64 bits hold it. -/
def countLimit : Nat := 18446744073709551615

/-- Rounded to four decimal places, the finest that a program word carries. -/
def round4 (x : α) : α := round (x * 10000) / 10000

end Scalar

def millimetresPerInch {α : Type} [Scalar α] : α := 25.4

def toInches {α : Type} [Scalar α] (mm : α) : α := mm / millimetresPerInch

def toMillimetres {α : Type} [Scalar α] (inches : α) : α := inches * millimetresPerInch

end SpacerTurning
