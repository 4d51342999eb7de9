/-!
The fewest digits that stand for a binary number.

A binary number `m * 2 ^ q` is the nearest one to every real in an interval around it, which ends
half way to its two neighbours.  `shortestDigits` looks for a decimal in that interval on the grids
of one digit, two digits and so on, in whole-number arithmetic; on the first grid that has one it
takes the nearer of the two around the value.  Seventeen digits always suffice for a number of
fifty-three bits.  `Notation` holds the choices of a written form that are left when the digits are
known.
-/

namespace SpacerTurning
namespace Number

-- Powers here are the core ones, also where a richer library is in scope.
attribute [local instance (high)] instPowNat

/-- Which of two equally near decimals is taken. -/
inductive Tie where
  | up
  | even
deriving DecidableEq, Repr

/-- `2 ^ e` as a fraction. -/
def powerOfTwo (e : Int) : Nat × Nat :=
  if 0 ≤ e then (2 ^ e.toNat, 1) else (1, 2 ^ (-e).toNat)

/-- `10 ^ e` as a fraction. -/
def powerOfTen (e : Int) : Nat × Nat :=
  if 0 ≤ e then (10 ^ e.toNat, 1) else (1, 10 ^ (-e).toNat)

/-- The greatest `e` with `10 ^ e ≤ m * 2 ^ q`, for a positive `m`.  The logarithm of two is known
well enough that the first guess is off by one at most. -/
def decimalMagnitude (m : Nat) (q : Int) : Int :=
  let guess := ((m.log2 : Int) + q) * 30103 / 100000
  let (twoNum, twoDen) := powerOfTwo q
  let reaches (e : Int) : Bool :=
    let (tenNum, tenDen) := powerOfTen e
    tenNum * twoDen ≤ m * twoNum * tenDen
  if ¬ reaches guess then guess - 1
  else if reaches (guess + 1) then guess + 1
  else guess

/-- The interval of reals that round to `m * 2 ^ q`, in quarters of a unit of the last bit.
`narrow` says that the next smaller number is only half as far away as the next larger one. -/
structure Interval where
  below : Nat
  value : Nat
  above : Nat
  /-- The ends round to the value too. -/
  closed : Bool

/-- The interval of `m * 2 ^ q`.  The ends belong to it when `m` is even, since a half goes to the
even one. -/
def Interval.around (m : Nat) (narrow : Bool) : Interval :=
  { below := if narrow then 4 * m - 1 else 4 * m - 2
    value := 4 * m
    above := 4 * m + 2
    closed := m % 2 = 0 }

/-- The multiple of `10 ^ k` nearest to the value, if one lies in the interval, whose unit is
`2 ^ q`. -/
def Interval.onGrid (i : Interval) (tie : Tie) (q k : Int) : Option Nat :=
  let (twoNum, twoDen) := powerOfTwo q
  let (tenNum, tenDen) := powerOfTen k
  let unit := twoNum * tenDen
  let step := tenNum * twoDen
  let inside (c : Nat) : Bool :=
    if i.closed then i.below * unit ≤ c * step && c * step ≤ i.above * unit
    else i.below * unit < c * step && c * step < i.above * unit
  let lower := i.value * unit / step
  let upper := lower + 1
  let gapBelow := i.value * unit - lower * step
  let gapAbove := upper * step - i.value * unit
  match inside lower, inside upper with
  | false, false => none
  | true, false => some lower
  | false, true => some upper
  | true, true =>
    if gapBelow < gapAbove then some lower
    else if gapAbove < gapBelow then some upper
    else match tie with
      | .up => some upper
      | .even => some (if lower % 2 = 0 then lower else upper)

/-- Moves the zeros at the end of a number into the exponent.  The fuel bounds the number of
digits. -/
def dropZeros : Nat → Nat → Int → Nat × Int
  | 0, n, k => (n, k)
  | fuel + 1, n, k => if n ≠ 0 ∧ n % 10 = 0 then dropZeros fuel (n / 10) (k + 1) else (n, k)

/-- The first grid with a decimal in the interval, trying grids of one digit more each time. -/
def firstGrid (i : Interval) (tie : Tie) (q : Int) : Nat → Int → Nat × Int
  | 0, k => (i.value, k)
  | fuel + 1, k =>
    match i.onGrid tie q k with
    | some c => dropZeros 18 c k
    | none => firstGrid i tie q fuel (k - 1)

/-- The fewest digits, and the exponent of ten they are scaled by, that stand for `m * 2 ^ q` with
a positive `m`. -/
def shortestDigits (tie : Tie) (m : Nat) (q : Int) (narrow : Bool) : Nat × Int :=
  firstGrid (Interval.around m narrow) tie (q - 2) 17 (decimalMagnitude m q)

/-- What is left to choose of a written form when its digits are known. -/
structure Notation where
  tie : Tie
  /-- Written after a whole number. -/
  wholeMark : String
  /-- The positions of the point, counted from the first digit, at which zeros are filled in
  instead of an exponent; always, when absent. -/
  positional : Option (Int × Int)

/-- Digits scaled by a power of ten, without an exponent. -/
def positionalText (wholeMark : String) (digits : Nat) (exponent : Int) : List Char :=
  let ds := Nat.toDigits 10 digits
  let point := (ds.length : Int) + exponent
  if 0 ≤ exponent then ds ++ List.replicate exponent.toNat '0' ++ wholeMark.toList
  else if 0 < point then ds.take point.toNat ++ '.' :: ds.drop point.toNat
  else '0' :: '.' :: (List.replicate (-point).toNat '0' ++ ds)

/-- Digits scaled by a power of ten, with one digit before the point and an exponent that shows its
sign. -/
def exponentText (digits : Nat) (exponent : Int) : List Char :=
  match Nat.toDigits 10 digits with
  | [] => []
  | d :: ds =>
    let e := exponent + ds.length
    let sign := if e < 0 then '-' else '+'
    d :: ((if ds = [] then [] else '.' :: ds) ++ 'e' :: sign :: Nat.toDigits 10 e.natAbs)

/-- The written form of digits scaled by a power of ten. -/
def Notation.text (n : Notation) (digits : Nat) (exponent : Int) : List Char :=
  let point := ((Nat.toDigits 10 digits).length : Int) + exponent
  let fits := match n.positional with
    | none => true
    | some (low, high) => decide (low ≤ point ∧ point ≤ high)
  if fits then positionalText n.wholeMark digits exponent else exponentText digits exponent

end Number
end SpacerTurning
