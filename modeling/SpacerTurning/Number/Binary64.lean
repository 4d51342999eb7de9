import SpacerTurning.Number.Scalar
import SpacerTurning.Number.Places
import SpacerTurning.Number.Shortest

/-!
Machine numbers.

A machine number of 64 bits is a sign, a whole number of at most 53 bits and a power of two, or an
infinity, or no number at all.  `decode` reads that off the bits; rounding, whole parts and written
forms are computed from it in exact arithmetic.  The last declaration makes machine numbers
scalars.
-/

namespace SpacerTurning

-- Powers here are the core ones, also where a richer library is in scope.
attribute [local instance (high)] instPowNat

namespace Number

/-- What 64 bits stand for. -/
inductive Binary64 where
  | nan
  | infinity (negative : Bool)
  /-- The value `± significand * 2 ^ exponent`. -/
  | finite (negative : Bool) (significand : Nat) (exponent : Int)
deriving DecidableEq, Repr

namespace Binary64

/-- The significand of a number that is not too small to have all its 53 bits. -/
def leadingBit : Nat := 4503599627370496

/-- The exponent of the smallest numbers. -/
def leastExponent : Int := -1074

/-- The value of a machine number. -/
def decode (x : Float) : Binary64 :=
  let bits : Nat := x.toBits.toNat
  let negative := bits / 2 ^ (63 : Nat) % 2 = 1
  let field : Nat := bits / 2 ^ (52 : Nat) % 2048
  let fraction : Nat := bits % 2 ^ (52 : Nat)
  if field = 2047 then (if fraction = 0 then .infinity negative else .nan)
  else if field = 0 then .finite negative fraction leastExponent
  else .finite negative (leadingBit + fraction) ((field : Int) - 1075)

/-- A whole number with a sign, which zero keeps. -/
def ofWhole (negative : Bool) (n : Nat) : Float :=
  if negative then -(Float.ofNat n) else Float.ofNat n

/-- The nearest whole number; a half goes away from zero. -/
def round (x : Float) : Float :=
  match decode x with
  | .finite negative m e =>
    if 0 ≤ e then x
    else
      let k := (-e).toNat
      ofWhole negative ((m + 2 ^ (k - 1)) / 2 ^ k)
  | _ => x

/-- The least whole number that is not smaller. -/
def ceiling (x : Float) : Float :=
  match decode x with
  | .finite negative m e =>
    if 0 ≤ e then x
    else
      let unit := 2 ^ (-e).toNat
      ofWhole negative (if negative then m / unit else (m + unit - 1) / unit)
  | _ => x

/-- The whole part.  An infinity counts as the first power of two that is no machine number. -/
def wholePart (x : Float) : Int :=
  let signed (negative : Bool) (n : Nat) : Int := if negative then -(n : Int) else n
  match decode x with
  | .nan => 0
  | .infinity negative => signed negative (2 ^ (1024 : Nat))
  | .finite negative m e =>
    signed negative (if 0 ≤ e then m * 2 ^ e.toNat else m / 2 ^ (-e).toNat)

/-- A power of two that a decimal above zero reaches, since ten lies between eight and sixteen. -/
def reachedPower (d : Decimal) : Int :=
  (d.digits.log2 : Int) + (if 0 ≤ d.exponent then 3 else 4) * d.exponent

/-- The machine number nearest to a decimal.  Decimals that are far out of range are settled by
their size alone, so that a long exponent costs nothing. -/
def ofDecimal (d : Decimal) : Float :=
  let nearest : Float :=
    if d.digits = 0 then 0
    else if 1024 ≤ reachedPower d then Float.ofBits 0x7FF0000000000000
    else if d.exponent < -400 - (d.digits.log2 : Int) then 0
    else if 0 ≤ d.exponent then OfScientific.ofScientific d.digits false d.exponent.toNat
    else OfScientific.ofScientific d.digits true (-d.exponent).toNat
  if d.negative then -nearest else nearest

def ofNumeral : Numeral → Float
  | .decimal d => ofDecimal d
  | .infinity negative => if negative then -(1.0 / 0.0) else 1.0 / 0.0
  | .nan => 0.0 / 0.0

/-- The written form of a machine number.  There is none for an infinity or for no number, for
which `special` gives the words. -/
def text (form : Notation) (infinityName nanName : String) (x : Float) : String :=
  let signed (negative : Bool) (body : List Char) : String :=
    String.ofList (if negative then '-' :: body else body)
  match decode x with
  | .nan => nanName
  | .infinity negative => signed negative infinityName.toList
  | .finite negative m e =>
    if m = 0 then signed negative ('0' :: form.wholeMark.toList)
    else
      let narrow := m = leadingBit ∧ leastExponent < e
      let (digits, exponent) := shortestDigits form.tie m e narrow
      signed negative (form.text digits exponent)

/-- Plain text never has an exponent, and a whole number has no point. -/
def plain : Notation := { tie := .up, wholeMark := "", positional := none }

def fixed (places : Nat) (x : Float) : String :=
  match decode x with
  | .nan => "NaN"
  | .infinity negative => if negative then "-inf" else "inf"
  | .finite negative m e =>
    let (num, den) := powerOfTwo e
    fixedText negative (m * num) den places

end Binary64
end Number

open Number

instance : Scalar Float where
  decidableLt := inferInstance
  decidableLe := inferInstance
  isFinite := Float.isFinite
  magnitude x := if x.toBits.toNat / 2 ^ (63 : Nat) % 2 = 1 then -x else x
  round := Binary64.round
  ceiling := Binary64.ceiling
  wholePart := Binary64.wholePart
  ofDecimal := Binary64.ofDecimal
  shortest := Binary64.text Binary64.plain "inf" "NaN"
  fixed := Binary64.fixed

end SpacerTurning
