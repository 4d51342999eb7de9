import SpacerTurning.Proofs.Number.Places

/-!
Whole parts of machine numbers.

A machine number that is no larger than a whole number has no larger whole part, and is rounded to no
larger one.
-/

namespace SpacerTurning
namespace Number
namespace Binary64

open Float.Model Float.Model.UnpackedFloat

variable {x : Float} {m n : Nat} {e : Int}

/-- The value of a number below one unit, in units of its last place. -/
theorem le_mul_of_value_le {k : Nat} (he : e = -k) (h : (m : Rat) * 2 ^ e ≤ n) : m ≤ n * 2 ^ k := by
  rw [he, zpow_neg, zpow_natCast, ← div_eq_mul_inv, div_le_iff₀ (by positivity)] at h
  exact_mod_cast h

theorem wholePart_le (h : decode x = .finite false m e) (hle : (m : Rat) * 2 ^ e ≤ n) :
    wholePart x ≤ n := by
  rw [wholePart, h]
  simp only [Bool.false_eq_true, if_false]
  by_cases he : 0 ≤ e
  · obtain ⟨k, rfl⟩ := Int.eq_ofNat_of_zero_le he
    rw [zpow_natCast] at hle
    rw [if_pos he, Int.toNat_natCast]
    exact_mod_cast hle
  · obtain ⟨k, rfl⟩ : ∃ k : Nat, e = -k := ⟨(-e).toNat, by omega⟩
    have hm := Nat.div_le_of_le_mul (Nat.mul_comm n _ ▸ le_mul_of_value_le rfl hle)
    rw [if_neg he, neg_neg, Int.toNat_natCast]
    exact_mod_cast hm

theorem wholePart_ofWhole_le (hn : n < 2 ^ 53) : wholePart (ofWhole false n) ≤ n := by
  rcases Nat.eq_zero_or_pos n with rfl | hpos
  · refine wholePart_le (m := 0) (e := leastExponent) ?_ (by simp)
    rw [decode_eq, unpack_ofWhole_zero]
    rfl
  · obtain ⟨m, e, hm, hu, -, -, hvalue⟩ := isWhole_ofWhole false hpos hn
    refine wholePart_le (m := m) (e := e) ?_ hvalue.le
    rw [decode_eq, hu]
    rfl

/-- Rounding does not go past a whole number. -/
theorem wholePart_round_le (h : decode x = .finite false m e) (hm : m < 2 * leadingBit)
    (hle : (m : Rat) * 2 ^ e ≤ n) : wholePart (round x) ≤ n := by
  by_cases he : 0 ≤ e
  · have hround : round x = x := by
      rw [round, h]
      exact if_pos he
    rw [hround]
    exact wholePart_le h hle
  · obtain ⟨k, rfl⟩ : ∃ k : Nat, e = -(k + 1 : Nat) := ⟨(-e).toNat - 1, by omega⟩
    have hround : round x = ofWhole false ((m + 2 ^ k) / 2 ^ (k + 1)) := by
      rw [round, h]
      simp only [if_neg he, neg_neg, Int.toNat_natCast, Nat.add_sub_cancel]
    have hwhole : (m + 2 ^ k) / 2 ^ (k + 1) ≤ n := by
      have hvalue := le_mul_of_value_le rfl hle
      rw [← Nat.lt_succ_iff, Nat.div_lt_iff_lt_mul (Nat.two_pow_pos _), Nat.succ_mul]
      have hhalf : 2 ^ k < 2 ^ (k + 1) := Nat.pow_lt_pow_right (by decide) (Nat.lt_succ_self k)
      omega
    rw [hround]
    have := wholePart_ofWhole_le (rounded_lt (k := k) hm)
    omega

end Binary64
end Number
end SpacerTurning
