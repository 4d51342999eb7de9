import SpacerTurning.Number.Scalar
import SpacerTurning.Number.Places
import SpacerTurning.Number.Shortest

/-!
Exact numbers.

Over rationals every operation of the shop's rules is exact, every value is finite and comparisons
never fail both ways.  A rational whose decimal ends is written as that decimal, any other as a
fraction.
-/

namespace SpacerTurning
namespace Number
namespace Exact

-- Powers here are the core ones, also where a richer library is in scope.
attribute [local instance (high)] instPowNat

/-- The nearest whole number; a half goes away from zero. -/
def round (x : Rat) : Rat :=
  if x < 0 then (((x - 1 / 2).ceil : Int) : Rat) else (((x + 1 / 2).floor : Int) : Rat)

/-- The value that a decimal stands for. -/
def ofDecimal (d : Decimal) : Rat :=
  let size : Rat := (d.digits : Rat) * (10 : Rat) ^ d.exponent
  if d.negative then -size else size

/-- The number of decimal places that a fraction with this denominator needs, if it ends. -/
def placesOf (den : Nat) : Option Nat :=
  (List.range (den.log2 + 1)).find? fun places => 10 ^ places % den = 0

/-- The decimal of a rational that has one, and a fraction for the others. -/
def text (x : Rat) : String :=
  let size := x.num.natAbs
  let body := match placesOf x.den with
    | some places =>
      let (digits, exponent) := dropZeros places (size * 10 ^ places / x.den) (-(places : Int))
      if size = 0 then ['0'] else positionalText "" digits exponent
    | none => Nat.toDigits 10 size ++ '/' :: Nat.toDigits 10 x.den
  String.ofList (if x.num < 0 then '-' :: body else body)

end Exact
end Number

open Number

instance : Scalar Rat where
  decidableLt := inferInstance
  decidableLe := inferInstance
  isFinite _ := true
  magnitude := Rat.abs
  round := Exact.round
  ceiling x := ((x.ceil : Int) : Rat)
  wholePart x := x.num.tdiv x.den
  ofDecimal := Exact.ofDecimal
  shortest := Exact.text
  fixed places x := fixedText (x.num < 0) x.num.natAbs x.den places

end SpacerTurning
