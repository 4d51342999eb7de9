import SpacerTurning.Proofs.Number.Decimal
import SpacerTurning.Proofs.Number.Order

/-!
The closest machine number.

No machine number is closer to a value than the one nearest to it.  So what is read of a number that was
written with a few places is no farther from these places than the number was, and is written with the same
ones.
-/

namespace SpacerTurning
namespace Number

/-- The value half way between two whole numbers goes to the even one. -/
theorem roundHalfEven_even {num den : Nat} (h : 0 < den)
    (htie : |(num : Rat) / den - roundHalfEven num den| = 1 / 2) : roundHalfEven num den % 2 = 0 := by
  have hden : (0 : Rat) < den := by exact_mod_cast h
  have hvalue : (num : Rat) / den - (num / den : Nat) = (num % den : Nat) / den := by
    have hdivide : (den : Rat) * (num / den : Nat) + (num % den : Nat) = num := by
      exact_mod_cast Nat.div_add_mod num den
    rw [← hdivide, add_div, mul_div_cancel_left₀ _ hden.ne', add_sub_cancel_left]
  have htwice : 2 * (num % den) = den := by
    have hrest : ((num % den : Nat) : Rat) / den = 1 / 2 := by
      unfold roundHalfEven at htie
      dsimp only at htie
      split at htie
      · rw [hvalue, abs_of_nonneg (by positivity)] at htie
        exact htie
      · have hless : ((num % den : Nat) : Rat) / den < 1 := by
          rw [div_lt_one hden]
          exact_mod_cast Nat.mod_lt num h
        push_cast at htie
        rw [← sub_sub, hvalue, abs_of_neg (by linarith)] at htie
        linarith
    rw [div_eq_iff hden.ne'] at hrest
    have : (2 : Rat) * (num % den : Nat) = den := by linarith
    exact_mod_cast this
  unfold roundHalfEven
  dsimp only
  split
  · next heven => omega
  · next hodd => omega

namespace Binary64

open Float.Model Float.Model.UnpackedFloat

variable {v w : Rat} {m m' n k : Nat} {e e' : Int} {x : Float}

theorem Canonical.le_two_pow (h : Canonical m e) : (m : Rat) ≤ 2 ^ (53 : Int) := by
  have hhigh : (m : Rat) ≤ (2 * leadingBit : Nat) := by exact_mod_cast h.high.le
  norm_num [leadingBit] at hhigh ⊢
  exact hhigh

/-- Another machine number is a unit away, or half a unit if it lies below a power of two. -/
theorem eq_or_gap (e e' : Int) (hlow : leadingBit ≤ m) (hhigh : m' < 2 * leadingBit) :
    (m' : Rat) * 2 ^ e' = m * 2 ^ e ∨ 2 ^ e ≤ |(m : Rat) * 2 ^ e - m' * 2 ^ e'| ∨
      (m = leadingBit ∧ (m' : Rat) * 2 ^ e' + 2 ^ e / 2 ≤ m * 2 ^ e) := by
  have hpos := two_zpow_pos e
  rcases le_or_gt e e' with hle | hlt
  · -- The other one is a whole number of units too.
    obtain ⟨j, rfl⟩ : ∃ j : Nat, e' = e + j := ⟨(e' - e).toNat, by omega⟩
    have hunits : (m' : Rat) * 2 ^ (e + j) = (m' * 2 ^ j : Nat) * 2 ^ e := by
      rw [zpow_add₀ (by norm_num), zpow_natCast]
      push_cast
      ring
    rw [hunits]
    rcases eq_or_ne (m' * 2 ^ j) m with heq | hne
    · exact Or.inl (by rw [heq])
    · refine Or.inr (Or.inl ?_)
      have hone : (1 : Rat) ≤ |(m : Rat) - (m' * 2 ^ j : Nat)| := by
        exact_mod_cast Int.one_le_abs (show (m : Int) - (m' * 2 ^ j : Nat) ≠ 0 by omega)
      rw [← sub_mul, abs_mul, abs_of_pos hpos]
      exact le_mul_of_one_le_left hpos.le hone
  · have hdouble := two_mul_zpow_le hlt
    have hpos' := two_zpow_pos e'
    have hlead : (1 : Rat) ≤ leadingBit := by norm_num [leadingBit]
    have hbelow : (m' : Rat) * 2 ^ e' ≤ (2 * leadingBit - 1) * (2 ^ e / 2) := by
      have hm' : (m' : Rat) ≤ 2 * leadingBit - 1 := by
        have : ((m' + 1 : Nat) : Rat) ≤ (2 * leadingBit : Nat) := by exact_mod_cast hhigh
        push_cast at this
        linarith
      exact mul_le_mul hm' (by linarith) hpos'.le (by linarith)
    rcases Nat.eq_or_lt_of_le hlow with heq | hmore
    · refine Or.inr (Or.inr ⟨heq.symm, ?_⟩)
      rw [← heq]
      linarith
    · refine Or.inr (Or.inl ?_)
      have hm : ((leadingBit + 1 : Nat) : Rat) * 2 ^ e ≤ m * 2 ^ e :=
        mul_le_mul_of_nonneg_right (by exact_mod_cast hmore) hpos.le
      push_cast at hm
      refine le_trans ?_ (le_abs_self _)
      linarith

/-- No machine number is closer than the nearest one. -/
theorem IsNearest.closest (h : IsNearest v m e) (hhigh : m' < 2 * leadingBit) :
    |v - m * 2 ^ e| ≤ |v - m' * 2 ^ e'| := by
  have hnear := h.near
  rcases eq_or_gap e e' h.low hhigh with heq | hgap | ⟨hlead, hgap⟩
  · rw [heq]
  · have hway := abs_sub_le (m * 2 ^ e : Rat) v (m' * 2 ^ e')
    rw [abs_sub_comm _ v] at hway
    linarith
  · have hnarrow := h.narrow hlead
    have hpos := two_zpow_pos e
    have hright := le_abs_self (v - m' * 2 ^ e')
    rcases le_total (m * 2 ^ e : Rat) v with habove | hbelow
    · rw [abs_of_nonneg (sub_nonneg.2 habove)]
      linarith
    · rw [abs_of_nonpos (sub_nonpos.2 hbelow)]
      linarith

/-! ## Numbers above zero -/

/-- A machine number above zero, and its value. -/
def HasValue (x : Float) (v : Rat) : Prop :=
  ∃ m e hm, x.toModel.unpack = .finite .positive m e hm ∧ (m : Rat) * 2 ^ e = v

theorem HasValue.exists_decode (h : HasValue x v) :
    ∃ m e, decode x = .finite false m e ∧ Canonical m e ∧ (m : Rat) * 2 ^ e = v := by
  obtain ⟨m, e, hm, hu, hvalue⟩ := h
  refine ⟨m, e, ?_, canonical_of_unpack hu, hvalue⟩
  rw [decode_eq, hu]
  rfl

theorem HasValue.of_decode (hm : 0 < m) (h : decode x = .finite false m e) :
    HasValue x (m * 2 ^ e) := ⟨m, e, hm, unpack_of_decode hm h, rfl⟩

/-- A number rounds to itself. -/
theorem RoundsTo.self (m : Nat) (e : Int) : RoundsTo (m * 2 ^ e) m e := by
  have hpos := two_zpow_pos e
  have hzero : |(m : Rat) * 2 ^ e - m * 2 ^ e| = 0 := by rw [sub_self, abs_zero]
  refine ⟨by linarith, fun h => ?_, fun _ _ => ?_⟩
  · linarith
  · rw [sub_self]
    linarith

theorem HasValue.ofDecimal_eq (h : HasValue x v) {d : Decimal} (hsign : d.negative = false)
    (hvalue : valueOf d = v) : ofDecimal d = x := by
  obtain ⟨m, e, hdecode, hm, rfl⟩ := h.exists_decode
  refine ofDecimal_of_roundsTo hm.pos (hsign ▸ hdecode) ?_
  rw [hvalue]
  exact RoundsTo.self m e

/-! ## Places -/

/-- The units of the last of `k` places that a value is rounded to, the even ones half way. -/
structure HasPlaces (v : Rat) (k n : Nat) : Prop where
  near : |v * 10 ^ k - n| ≤ 1 / 2
  even : |v * 10 ^ k - n| = 1 / 2 → n % 2 = 0

/-- A number is written with the nearest number of units of its last place. -/
theorem HasValue.exists_fixed (h : HasValue x v) (k : Nat) :
    ∃ n, HasPlaces v k n ∧ (Scalar.fixed k x).toList = placed k n := by
  obtain ⟨m, e, hdecode, -, rfl⟩ := h.exists_decode
  have hvalue : ((m * (powerOfTwo e).1 * 10 ^ k : Nat) : Rat) / (powerOfTwo e).2 = m * 2 ^ e * 10 ^ k := by
    rw [← powerOfTwo_eq]
    push_cast
    ring
  have hden := powerOfTwo_pos e
  have hnear := abs_sub_roundHalfEven_le (m * (powerOfTwo e).1 * 10 ^ k) hden
  rw [abs_sub_comm, hvalue] at hnear
  refine ⟨_, ⟨hnear, fun htie => roundHalfEven_even hden (by rw [hvalue]; exact htie)⟩, ?_⟩
  show (fixed k x).toList = _
  rw [fixed, hdecode]
  simp only [fixedText, String.toList_ofList]
  rfl

theorem HasValue.fixed_eq (h : HasValue x v) (hplaces : HasPlaces v k n) :
    (Scalar.fixed k x).toList = placed k n := by
  obtain ⟨n', hplaces', htext⟩ := h.exists_fixed k
  rw [htext, eq_of_near hplaces'.near hplaces'.even hplaces.near hplaces.even]

theorem inRange_placed (hn : 0 < n) (hk : k ≤ 4) (hhigh : (n : Rat) / 10 ^ k ≤ 2 ^ (1020 : Int)) :
    InRange (n / 10 ^ k) := by
  have hsmall : (2 : Rat) ^ (-1020 : Int) ≤ 2 ^ (-14 : Int) :=
    zpow_le_zpow_right₀ (by norm_num) (by norm_num)
  have hunit : (2 : Rat) ^ (-14 : Int) ≤ 1 / 10 ^ 4 := by norm_num
  have hplace : (1 : Rat) / 10 ^ 4 ≤ 1 / 10 ^ k :=
    one_div_le_one_div_of_le (by positivity) (pow_le_pow_right₀ (by norm_num) hk)
  have hone : (1 : Rat) ≤ n := by exact_mod_cast hn
  have hunits : (1 : Rat) / 10 ^ k ≤ n / 10 ^ k := div_le_div_of_nonneg_right hone (by positivity)
  exact ⟨hsmall.trans (hunit.trans (hplace.trans hunits)), hhigh⟩

/-- What is read of the places of a number is no farther from them. -/
theorem HasValue.exists_ofDecimal (h : HasValue x v) (hk : k ≤ 4) (hn : 0 < n)
    (hnear : |v * 10 ^ k - n| ≤ 1 / 2) :
    ∃ w, HasValue (ofDecimal ⟨false, n, -k⟩) w ∧ |w * 10 ^ k - n| ≤ |v * 10 ^ k - n| := by
  have hten : (0 : Rat) < 10 ^ k := by positivity
  obtain ⟨m, e, hdecode, hm, hvalue⟩ := h.exists_decode
  rcases le_or_gt 0 e with hwhole | hsmall
  · -- A whole number is written as it is.
    obtain ⟨j, rfl⟩ := Int.eq_ofNat_of_zero_le hwhole
    have hexact : v * 10 ^ k = n := by
      have hgap : |((m * 2 ^ j * 10 ^ k : Nat) : Rat) - n| < 1 := by
        push_cast
        rw [← hvalue, zpow_natCast] at hnear
        linarith
      rw [← hvalue, zpow_natCast]
      exact_mod_cast eq_of_abs_sub_lt_one hgap
    have hread : ofDecimal ⟨false, n, -k⟩ = x := h.ofDecimal_eq rfl (by
      rw [valueOf, ← hexact, zpow_neg, zpow_natCast]
      field_simp)
    exact ⟨v, hread ▸ h, le_rfl⟩
  · have hrange : InRange (n / 10 ^ k) := by
      refine inRange_placed hn hk ?_
      have hone : (1 : Rat) ≤ 10 ^ k := one_le_pow₀ (by norm_num)
      have hunit : (2 : Rat) ^ e ≤ 1 := zpow_le_one_of_nonpos₀ (by norm_num) hsmall.le
      have hv : v ≤ 2 ^ (53 : Int) := by
        rw [← hvalue]
        exact (mul_le_of_le_one_right (by positivity) hunit).trans hm.le_two_pow
      have hlarge : (2 : Rat) ^ (53 : Int) + 1 ≤ 2 ^ (1020 : Int) := by
        calc (2 : Rat) ^ (53 : Int) + 1 ≤ 2 ^ (54 : Int) := by norm_num
          _ ≤ 2 ^ (1020 : Int) := zpow_le_zpow_right₀ (by norm_num) (by norm_num)
      have hscaled := mul_le_mul_of_nonneg_right (hv.trans (le_sub_iff_add_le.2 hlarge)) hten.le
      have hbelow := (abs_le.1 hnear).1
      rw [div_le_iff₀ hten]
      linarith
    obtain ⟨m', e', hm', hu, hnearest⟩ := isRounded_ofDecimal (d := ⟨false, n, -k⟩) rfl hk hn hrange
    refine ⟨m' * 2 ^ e', ⟨m', e', hm', hu, rfl⟩, ?_⟩
    have hunits (a : Rat) : |a * 10 ^ k - n| = |n / 10 ^ k - a| * 10 ^ k := by
      rw [← abs_of_pos hten, ← abs_mul, abs_of_pos hten, sub_mul, div_mul_cancel₀ _ hten.ne',
        abs_sub_comm]
    rw [hunits, hunits, ← hvalue]
    exact mul_le_mul_of_nonneg_right (hnearest.closest hm.high) hten.le

end Binary64
end Number
end SpacerTurning
