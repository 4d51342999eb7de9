/-!
Fixed decimal places.

A nonnegative fraction is rounded to a number of places exactly, a half going to the even digit,
and written with that many digits after the point.
-/

namespace SpacerTurning
namespace Number

-- Powers here are the core ones, also where a richer library is in scope.
attribute [local instance (high)] instPowNat

/-- The whole number nearest to `num / den`, a half going to the even neighbour. -/
def roundHalfEven (num den : Nat) : Nat :=
  let below := num / den
  let rest := num % den
  if 2 * rest < den ∨ (2 * rest = den ∧ below % 2 = 0) then below else below + 1

theorem roundHalfEven_mul (n den : Nat) (h : 0 < den) : roundHalfEven (n * den) den = n := by
  simp [roundHalfEven, Nat.mul_div_cancel _ h, h]

/-- The digits of `n`, with zeros in front up to `width` of them. -/
def paddedDigits (width n : Nat) : List Char :=
  let ds := Nat.toDigits 10 n
  List.replicate (width - ds.length) '0' ++ ds

/-- `n / 10 ^ places` with exactly `places` digits after the point. -/
def placed (places n : Nat) : List Char :=
  if places = 0 then Nat.toDigits 10 n
  else Nat.toDigits 10 (n / 10 ^ places) ++ '.' :: paddedDigits places (n % 10 ^ places)

/-- The fraction `num / den`, rounded to `places` places, behind its sign. -/
def fixedText (negative : Bool) (num den places : Nat) : String :=
  let text := placed places (roundHalfEven (num * 10 ^ places) den)
  String.ofList (if negative then '-' :: text else text)

end Number
end SpacerTurning
