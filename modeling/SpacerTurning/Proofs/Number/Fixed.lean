import SpacerTurning.Proofs.Number.Exact
import SpacerTurning.Proofs.Number.Nearest

/-!
Exact numbers with a fixed number of places.

A number is written with the nearest number of units of its last place.  So what is read of it is at
most half of such a unit away.
-/

namespace SpacerTurning
namespace Number

/-- A number of units of the last place, with all its places. -/
def WordNumber.ofPlaced (negative : Bool) (places n : Nat) : WordNumber where
  negative
  whole := Nat.toDigits 10 (n / 10 ^ places)
  fraction := paddedDigits places (n % 10 ^ places)
  whole_ne_nil := Nat.toDigits_ne_nil
  whole_digits := allDigits_toDigits _
  fraction_digits := allDigits_paddedDigits _ _

theorem WordNumber.decimal_ofPlaced {places : Nat} (hplaces : 0 < places) (negative : Bool) (n : Nat) :
    (ofPlaced negative places n).decimal = { negative, digits := n, exponent := -places } := by
  have hlen : (paddedDigits places (n % 10 ^ places)).length = places :=
    length_paddedDigits hplaces (Nat.mod_lt n (by positivity))
  have hdigits : ofDigits (Nat.toDigits 10 (n / 10 ^ places) ++ paddedDigits places (n % 10 ^ places)) = n := by
    rw [ofDigits_append, ofDigits_toDigits, ofDigits_paddedDigits, hlen]
    exact Nat.div_add_mod' n (10 ^ places)
  simp only [decimal, ofPlaced, hlen, hdigits]

namespace Exact

variable {places : Nat}

theorem ofDecimal_ofPlaced (hplaces : 0 < places) (negative : Bool) (n : Nat) :
    ofDecimal (WordNumber.ofPlaced negative places n).decimal
      = (if negative then -(n : Rat) else n) / 10 ^ places := by
  simp only [WordNumber.decimal_ofPlaced hplaces, ofDecimal, zpow_neg, zpow_natCast]
  cases negative
  · exact (div_eq_mul_inv _ _).symm
  · simp only [if_true, neg_div]
    exact congrArg _ (div_eq_mul_inv _ _).symm

/-- A number is written with the nearest number of units of its last place. -/
theorem exists_fixed (hplaces : 0 < places) (x : Rat) :
    ∃ n : Nat, |(n : Rat) - |x| * 10 ^ places| ≤ 1 / 2 ∧
      (Scalar.fixed places x).toList = (WordNumber.ofPlaced (x < 0) places n).text := by
  have hvalue : ((x.num.natAbs * 10 ^ places : Nat) : Rat) / x.den = |x| * 10 ^ places := by
    have hsize : |x| = (x.num.natAbs : Rat) / x.den := by
      rw [Rat.abs_def, Rat.divInt_eq_div, Int.cast_natCast, Int.cast_natCast]
    rw [hsize]
    push_cast
    ring
  have hnear := abs_sub_roundHalfEven_le (x.num.natAbs * 10 ^ places) x.den_pos
  rw [hvalue] at hnear
  refine ⟨_, hnear, ?_⟩
  have hsign : decide (x.num < 0) = decide (x < 0) := decide_eq_decide.2 Rat.num_neg
  show (fixedText (x.num < 0) x.num.natAbs x.den places).toList = _
  rw [hsign]
  simp only [fixedText, placed, hplaces.ne', if_false, String.toList_ofList]
  cases decide (x < 0) <;> rfl

/-- What is read of a number with a fixed number of places is at most half a unit of the last one away. -/
theorem exists_read_fixed (hplaces : 0 < places) (x : Rat) :
    ∃ y : Rat, Word.read (Scalar.fixed places x).toList = some y ∧ |y - x| ≤ 1 / 2 / 10 ^ places := by
  obtain ⟨n, hnear, htext⟩ := exists_fixed hplaces x
  have hpow : (0 : Rat) < 10 ^ places := by positivity
  have hunits (a : Rat) : |a / 10 ^ places - x| = |a - x * 10 ^ places| / 10 ^ places := by
    rw [← abs_of_pos hpow, ← abs_div, sub_div, abs_of_pos hpow, mul_div_cancel_right₀ _ hpow.ne']
  refine ⟨ofDecimal (WordNumber.ofPlaced (x < 0) places n).decimal, ?_, ?_⟩
  · rw [htext, Word.read_text]
    rfl
  · rw [ofDecimal_ofPlaced hplaces, hunits]
    refine div_le_div_of_nonneg_right ?_ hpow.le
    by_cases hneg : x < 0
    · rw [abs_of_neg hneg, neg_mul, sub_neg_eq_add] at hnear
      rw [if_pos (decide_eq_true hneg), ← abs_neg, neg_sub, sub_neg_eq_add, add_comm]
      exact hnear
    · rw [abs_of_nonneg (not_lt.1 hneg)] at hnear
      simpa [hneg] using hnear

end Exact
end Number
end SpacerTurning
