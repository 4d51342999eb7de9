import SpacerTurning.Proofs.Number.Arithmetic

/-!
The values that are rounded to a machine number.

They form an interval around it, also where the number is too small for all its bits.  Rounding a long
mantissa ends at the number in whose interval the value lies: the shift goes to the exponent of the
number, or to the one below if the value lies under a power of two.
-/

namespace SpacerTurning
namespace Number
namespace Binary64

open Float.Model Float.Model.UnpackedFloat

/-- A significand and an exponent as a machine number has them. -/
structure Canonical (m : Nat) (e : Int) : Prop where
  pos : 0 < m
  high : m < 2 * leadingBit
  least : leastExponent ≤ e
  most : e ≤ 971
  /-- Only the smallest numbers have fewer bits. -/
  full : leastExponent < e → leadingBit ≤ m

/-- A value is rounded to the machine number `m * 2 ^ e`: it lies no further away than half way to a
neighbour, and a half goes to the even one. -/
structure RoundsTo (v : Rat) (m : Nat) (e : Int) : Prop where
  near : |v - m * 2 ^ e| ≤ 2 ^ e / 2
  even : |v - m * 2 ^ e| = 2 ^ e / 2 → m % 2 = 0
  /-- The numbers below a power of two lie twice as close. -/
  narrow : m = leadingBit → leastExponent < e → m * 2 ^ e - v ≤ 2 ^ e / 4

theorem canonical_of_unpack {x : Float.Model} {s : Sign} {m : Nat} {e : Int} {hm : 0 < m}
    (h : x.unpack = .finite s m e hm) : Canonical m e := by
  obtain ⟨hhigh, hleast, hmost, hfull⟩ := bounds_of_unpack h
  refine ⟨hm, hhigh, hleast, hmost, fun he => ?_⟩
  by_contra hless
  have := hfull (not_le.1 hless)
  simp only [leastExponent] at he
  omega

/-- A value has one nearest whole number, if a half goes to the even one. -/
theorem eq_of_near {w : Rat} {j k : Nat} (hj : |w - j| ≤ 1 / 2) (hj' : |w - j| = 1 / 2 → j % 2 = 0)
    (hk : |w - k| ≤ 1 / 2) (hk' : |w - k| = 1 / 2 → k % 2 = 0) : j = k := by
  have hless {a b : Nat} (ha : |w - a| ≤ 1 / 2) (ha' : |w - a| = 1 / 2 → a % 2 = 0)
      (hb : |w - b| ≤ 1 / 2) (hb' : |w - b| = 1 / 2 → b % 2 = 0) : ¬ a < b := by
    intro hlt
    have hstep : (a : Rat) + 1 ≤ b := by exact_mod_cast hlt
    have hlow := (abs_le.1 hb).1
    have hhigh := (abs_le.1 ha).2
    -- Only a value half way between two neighbours is near both, and one of them is odd.
    have hmid : w = a + 1 / 2 := by linarith
    have hnext : (b : Rat) = a + 1 := by linarith
    have hsucc : b = a + 1 := by exact_mod_cast hnext
    have heven := ha' (by rw [hmid, add_sub_cancel_left]; norm_num)
    have heven' := hb' (by rw [hmid, hnext]; norm_num)
    omega
  exact le_antisymm (not_lt.1 (hless hk hk' hj hj')) (not_lt.1 (hless hj hj' hk hk'))

namespace RoundsTo

variable {v : Rat} {m : Nat} {e t : Int}

theorem bounds (h : RoundsTo v m e) : (m - 1 / 2) * 2 ^ e ≤ v ∧ v ≤ (m + 1 / 2) * 2 ^ e := by
  have hnear := abs_le.1 h.near
  constructor <;> linarith

theorem lt_zpow (h : RoundsTo v m e) (hm : Canonical m e) : v < 2 ^ (e + 53) := by
  have hhigh : (m : Rat) + 1 ≤ 2 ^ (53 : Int) := by
    have : ((m + 1 : Nat) : Rat) ≤ (2 * leadingBit : Nat) := by exact_mod_cast hm.high
    norm_num [leadingBit] at this ⊢
    exact this
  rw [zpow_add₀ (by norm_num), mul_comm]
  exact h.bounds.2.trans_lt (mul_lt_mul_of_pos_right (by linarith) (two_zpow_pos e))

theorem zpow_le (h : RoundsTo v m e) (hm : Canonical m e) : (2 : Rat) ^ (-1075 : Int) ≤ v := by
  have hone : (1 : Rat) ≤ m := by exact_mod_cast hm.pos
  have hleast : (2 : Rat) ^ (-1074 : Int) ≤ 2 ^ e := zpow_le_zpow_right₀ (by norm_num) hm.least
  have hhalf : (2 : Rat) ^ (-1074 : Int) = 2 ^ (-1075 : Int) * 2 :=
    zpow_add_one₀ (by norm_num) (-1075)
  have hsmall : 1 / 2 * (2 : Rat) ^ (-1074 : Int) ≤ (m - 1 / 2) * 2 ^ e :=
    mul_le_mul (by linarith) hleast (two_zpow_pos _).le (by linarith)
  linarith [h.bounds.1]

theorem pos (h : RoundsTo v m e) (hm : Canonical m e) : 0 < v :=
  (two_zpow_pos _).trans_le (h.zpow_le hm)

/-- The exponent at which a value has 53 bits is that of its machine number, or the one below. -/
theorem exponent_eq (h : RoundsTo v m e) (hm : Canonical m e) (hleast : leastExponent ≤ t)
    (hhigh : v < 2 ^ (t + 53)) (hlow : t = leastExponent ∨ 2 ^ (t + 52) ≤ v) :
    t = e ∨ (e = t + 1 ∧ m = leadingBit ∧ leastExponent < e) := by
  have hone : (1 : Rat) < 2 := by norm_num
  have hle : t ≤ e := by
    by_contra hlt
    rcases hlow with hlow | hlow
    · have := hm.least
      omega
    · have := (zpow_lt_zpow_iff_right₀ hone).1 (hlow.trans_lt (h.lt_zpow hm))
      omega
  rcases eq_or_lt_of_le hle with heq | hlt
  · exact Or.inl heq
  refine Or.inr ?_
  have he : leastExponent < e := hleast.trans_lt hlt
  have hpos := two_zpow_pos e
  have hpower : (2 : Rat) ^ (e + 52) = leadingBit * 2 ^ e := by
    rw [zpow_add₀ (by norm_num), mul_comm]
    norm_num [leadingBit]
  have hbelow : v < leadingBit * 2 ^ e := by
    rw [← hpower]
    exact hhigh.trans_le (zpow_le_zpow_right₀ hone.le (by omega))
  have hm' : m = leadingBit := by
    refine le_antisymm ?_ (hm.full he)
    by_contra hmore
    have hmore : ((leadingBit + 1 : Nat) : Rat) ≤ m := by exact_mod_cast not_le.1 hmore
    push_cast at hmore
    have := mul_le_mul_of_nonneg_right (by linarith : (leadingBit : Rat) ≤ m - 1 / 2) hpos.le
    linarith [h.bounds.1]
  refine ⟨?_, hm', he⟩
  have hnarrow := h.narrow hm' he
  have habove : (2 : Rat) ^ (e + 51) < v := by
    have hhalf : (2 : Rat) ^ (e + 51) = leadingBit / 2 * 2 ^ e := by
      rw [zpow_add₀ (by norm_num), mul_comm]
      norm_num [leadingBit]
    have hlead : (leadingBit : Rat) / 2 < leadingBit - 1 / 4 := by norm_num [leadingBit]
    rw [hm'] at hnarrow
    rw [hhalf]
    linarith [mul_lt_mul_of_pos_right hlead hpos]
  have := (zpow_lt_zpow_iff_right₀ hone).1 (habove.trans hhigh)
  omega

end RoundsTo

/-! ## Rounding a long mantissa -/

/-- A mantissa with all its bits is not shifted. -/
theorem shiftToTargetExponent_self {m : Nat} {e : Int} (h : Canonical m e) :
    shiftToTargetExponent .binary64 m e .exact
      = (ExtendedMantissa.ofMantissaAndAccuracy m .exact, e) := by
  have hlog : m.log2 ≤ 52 := by
    have := (Nat.log2_lt h.pos.ne').2 (show m < 2 ^ 53 from h.high)
    omega
  have hlog' : leastExponent < e → 52 ≤ m.log2 := fun he =>
    (Nat.le_log2 h.pos.ne').2 (leadingBit_eq ▸ h.full he)
  have hleast := h.least
  simp only [leastExponent] at hleast hlog'
  have hamount : (Format.binary64.targetExponent (totalExponent m e) - e).toNat = 0 := by
    simp only [Format.targetExponent, totalExponent, Format.mantissaBits, Format.minExponent]
    norm_num
    omega
  simp only [shiftToTargetExponent, shiftToExponent, hamount, Nat.cast_zero, add_zero]
  rfl

/-- The rounded mantissa, and the exponent it has after the first shift. -/
theorem RoundsTo.roundedMantissa_eq {v w : Rat} {m k : Nat} {e t : Int} (h : RoundsTo v m e)
    (hvalue : v = w * 2 ^ t) (ht : t = e ∨ (e = t + 1 ∧ m = leadingBit ∧ leastExponent < e))
    (hhigh : v < 2 ^ (t + 53)) (hk : |w - k| ≤ 1 / 2) (hk' : |w - k| = 1 / 2 → k % 2 = 0) :
    (t = e ∧ k = m) ∨ (e = t + 1 ∧ m = leadingBit ∧ k = 2 * leadingBit) := by
  have hscale {n : Rat} : |w * 2 ^ t - n * 2 ^ t| = |w - n| * 2 ^ t := by
    rw [← sub_mul, abs_mul, abs_of_pos (two_zpow_pos t)]
  have hpos := two_zpow_pos t
  rcases ht with rfl | ⟨rfl, hm, he⟩
  · refine Or.inl ⟨rfl, eq_of_near hk hk' ?_ fun htie => h.even ?_⟩
    · have hnear := h.near
      rw [hvalue, hscale, ← mul_one_div, mul_comm] at hnear
      exact le_of_mul_le_mul_left hnear hpos
    · rw [hvalue, hscale, htie]
      ring
  · have htop : w < 2 * leadingBit := by
      rw [hvalue, zpow_add₀ (by norm_num), mul_comm] at hhigh
      have := lt_of_mul_lt_mul_left hhigh hpos.le
      norm_num [leadingBit] at this ⊢
      exact this
    have hnarrow := h.narrow hm he
    rw [hm, hvalue, zpow_add_one₀ (by norm_num)] at hnarrow
    have hlow : (2 * leadingBit : Rat) - 1 / 2 ≤ w := by
      have : ((2 * leadingBit : Rat) - w) * 2 ^ t ≤ 1 / 2 * 2 ^ t := by linarith
      linarith [le_of_mul_le_mul_right this hpos]
    refine Or.inr ⟨rfl, hm, eq_of_near hk hk' ?_ fun _ => by decide⟩
    push_cast
    rw [abs_le]
    constructor <;> linarith

/-- What a mantissa stands for lies between the powers of two around the mantissa. -/
theorem StandsFor.lt_zpow {M : Nat} {accuracy : Accuracy} {V : Rat}
    (h : StandsFor (.ofMantissaAndAccuracy M accuracy) V) (E : Int) :
    V * 2 ^ E < 2 ^ (M.log2 + 1 + E) := by
  have hb := h.bounds.2
  rw [mantissa_ofMantissaAndAccuracy] at hb
  have hlog : ((M + 1 : Nat) : Rat) ≤ (2 ^ (M.log2 + 1) : Nat) := by
    exact_mod_cast Nat.lt_log2_self
  push_cast at hlog
  calc V * 2 ^ E < 2 ^ (M.log2 + 1) * 2 ^ E :=
        mul_lt_mul_of_pos_right (hb.trans_le hlog) (two_zpow_pos E)
    _ = 2 ^ (M.log2 + 1 + E) := by
        rw [zpow_add₀ (by norm_num), ← Nat.cast_succ, zpow_natCast]

theorem StandsFor.zpow_le {M : Nat} {accuracy : Accuracy} {V : Rat}
    (h : StandsFor (.ofMantissaAndAccuracy M accuracy) V) (hpos : 0 < M) (E : Int) :
    2 ^ (M.log2 + E) ≤ V * 2 ^ E := by
  have hb := h.bounds.1
  rw [mantissa_ofMantissaAndAccuracy] at hb
  exact (zpow_log2_le hpos E).trans (mul_le_mul_of_nonneg_right hb (two_zpow_pos E).le)

theorem roundWithAccuracy_of_roundsTo {M : Nat} {E : Int} {accuracy : Accuracy} {V : Rat} {m : Nat}
    {e : Int} (hV : StandsFor (.ofMantissaAndAccuracy M accuracy) V)
    (hE : E ≤ max (M.log2 + E - 52) leastExponent) (hm : Canonical m e)
    (h : RoundsTo (V * 2 ^ E) m e) (s : Sign) :
    roundWithAccuracy .binary64 s M E accuracy = .finite s m e hm.pos := by
  obtain ⟨t, ht⟩ : ∃ t, t = max (M.log2 + E - 52) leastExponent := ⟨_, rfl⟩
  obtain ⟨j, hj⟩ : ∃ j : Nat, t = E + j := ⟨(t - E).toNat, by omega⟩
  have htarget : Format.binary64.targetExponent (totalExponent M E) = t := by
    simp only [Format.targetExponent, totalExponent, Format.mantissaBits, Format.minExponent, ht,
      leastExponent]
    norm_num
    omega
  have hfirst : shiftToTargetExponent .binary64 M E accuracy
      = (ExtendedMantissa.ofMantissaAndAccuracy M accuracy >>> j, t) := by
    have hamount : (t - E).toNat = j := by omega
    simp only [shiftToTargetExponent, shiftToExponent, htarget, hamount, ← hj]
  have hvalue : V * 2 ^ E = V / 2 ^ j * 2 ^ t := by
    rw [hj, zpow_add₀ (by norm_num), zpow_natCast]
    field_simp
  have hhigh : V * 2 ^ E < 2 ^ (t + 53) :=
    (hV.lt_zpow E).trans_le (zpow_le_zpow_right₀ (by norm_num) (by omega))
  have hlow : t = leastExponent ∨ 2 ^ (t + 52) ≤ V * 2 ^ E := by
    rcases Nat.eq_zero_or_pos M with hzero | hpos
    · rw [hzero, Nat.log2_zero] at ht
      omega
    · by_cases hleast : t = leastExponent
      · exact Or.inl hleast
      · have hexponent : t + 52 = M.log2 + E := by omega
        rw [hexponent]
        exact Or.inr (hV.zpow_le hpos E)
  obtain ⟨hnear, heven⟩ := (hV.shiftRight j).roundedMantissa
  generalize hk : (ExtendedMantissa.ofMantissaAndAccuracy M accuracy >>> j).roundedMantissa = k
    at hnear heven
  have hexponent := h.exponent_eq hm (t := t) (by omega) hhigh hlow
  rcases h.roundedMantissa_eq hvalue hexponent hhigh hnear heven with ⟨rfl, rfl⟩ | ⟨he, hlead, htop⟩
  · simp only [roundWithAccuracy, hfirst, hk, shiftToTargetExponent_self hm]
    exact dif_neg hm.pos.ne'
  · -- The mantissa has been rounded to the next power of two, and is shifted once more.
    have hlogk : k.log2 = 52 + 1 := by
      rw [htop]
      decide
    have hleast := hm.least
    simp only [leastExponent] at hleast
    have hsecond := shiftToTargetExponent_eq (e := t) hlogk (by omega) .exact
    have hmantissa : (ExtendedMantissa.ofMantissaAndAccuracy k .exact >>> 1).mantissa
        = leadingBit := by
      rw [htop]
      rfl
    subst hlead
    simp only [roundWithAccuracy, hfirst, hk, hsecond, hmantissa, he]
    rfl

end Binary64
end Number
end SpacerTurning
