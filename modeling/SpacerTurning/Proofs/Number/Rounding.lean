import SpacerTurning.Proofs.Number.Nearest

/-!
Rounding a long mantissa.

The operations on machine numbers compute a mantissa that is too long, with what is left of it, and
shift it to the right, two bits keeping what has been lost.  The mantissa at the end is the one nearest
to the value, and so is the machine number.
-/

namespace SpacerTurning
namespace Number
namespace Binary64

open Float.Model Float.Model.UnpackedFloat

/-- The value that a mantissa and the bits behind it stand for: half a unit if the next bit is set, and
something below half a unit if any other is. -/
def StandsFor (em : ExtendedMantissa) (v : Rat) : Prop :=
  ∃ g : Rat, 0 ≤ g ∧ g < 1 / 2 ∧ (em.stickyBit = true ↔ 0 < g) ∧
    v = em.mantissa + (if em.roundBit then 1 / 2 else 0) + g

namespace StandsFor

variable {em : ExtendedMantissa} {v : Rat}

theorem bounds (h : StandsFor em v) : em.mantissa ≤ v ∧ v < em.mantissa + 1 := by
  obtain ⟨g, hzero, hhalf, -, rfl⟩ := h
  split <;> constructor <;> linarith

theorem exact (m : Nat) : StandsFor (.ofMantissaAndAccuracy m .exact) m :=
  ⟨0, le_rfl, by norm_num, by simp [ExtendedMantissa.ofMantissaAndAccuracy],
    by simp [ExtendedMantissa.ofMantissaAndAccuracy]⟩

theorem fraction (m : Nat) {num den : Nat} (h : num < den) :
    StandsFor (.ofMantissaAndAccuracy m (accuracyOfFraction num den)) (m + num / den) := by
  have hden : (0 : Rat) < den := by exact_mod_cast Nat.zero_lt_of_lt h
  have hpos : (0 : Rat) ≤ num / den := by positivity
  have hless : (num : Rat) / den < 1 := by
    rw [div_lt_one hden]
    exact_mod_cast h
  unfold accuracyOfFraction
  split
  · next hzero =>
    subst hzero
    simpa using exact m
  · next hzero =>
    have hnum : (0 : Rat) < num / den := by
      have : (0 : Rat) < num := by exact_mod_cast Nat.pos_of_ne_zero hzero
      positivity
    cases horder : compare (2 * num) den with
    | lt =>
      have hhalf : 2 * num < den := Nat.compare_eq_lt.1 horder
      have hhalf : (2 : Rat) * num < den := by exact_mod_cast hhalf
      refine ⟨num / den, hpos, ?_, by simpa [ExtendedMantissa.ofMantissaAndAccuracy] using hnum,
        by simp [ExtendedMantissa.ofMantissaAndAccuracy]⟩
      rw [div_lt_iff₀ hden]
      linarith
    | eq =>
      have hhalf : 2 * num = den := Nat.compare_eq_eq.1 horder
      have hhalf : (2 : Rat) * num = den := by exact_mod_cast hhalf
      refine ⟨0, le_rfl, by norm_num, by simp [ExtendedMantissa.ofMantissaAndAccuracy], ?_⟩
      have : (num : Rat) / den = 1 / 2 := by
        rw [div_eq_iff hden.ne']
        linarith
      simp [ExtendedMantissa.ofMantissaAndAccuracy, this]
    | gt =>
      have hhalf : den < 2 * num := Nat.compare_eq_gt.1 horder
      have hhalf : (den : Rat) < 2 * num := by exact_mod_cast hhalf
      have hmore : 1 / 2 < (num : Rat) / den := by
        rw [lt_div_iff₀ hden]
        linarith
      refine ⟨num / den - 1 / 2, by linarith, by linarith,
        by simpa [ExtendedMantissa.ofMantissaAndAccuracy] using hmore, ?_⟩
      simp only [ExtendedMantissa.ofMantissaAndAccuracy, if_true]
      ring

theorem shiftRightOne (h : StandsFor em v) : StandsFor em.shiftRightOne (v / 2) := by
  obtain ⟨m, r, s⟩ := em
  obtain ⟨g, hzero, hhalf, hsticky, rfl⟩ := h
  have hsplit : (m : Rat) = 2 * (m / 2 : Nat) + (m % 2 : Nat) := by
    exact_mod_cast (Nat.div_add_mod m 2).symm
  refine ⟨(if r then 1 / 4 else 0) + g / 2, ?_, ?_, ?_, ?_⟩
  · split <;> linarith
  · split <;> linarith
  · simp only [ExtendedMantissa.shiftRightOne, Bool.or_eq_true]
    dsimp only at hsticky
    rw [hsticky]
    cases r with
    | true => simpa using (by linarith : (0 : Rat) < 1 / 4 + g / 2)
    | false => simp
  · rw [hsplit]
    rcases Nat.mod_two_eq_zero_or_one m with heven | hodd
    · cases r <;> simp [ExtendedMantissa.shiftRightOne, heven] <;> ring
    · cases r <;> simp [ExtendedMantissa.shiftRightOne, hodd] <;> ring

theorem shiftRight (h : StandsFor em v) (n : Nat) : StandsFor (em >>> n) (v / 2 ^ n) := by
  induction n with
  | zero => simpa [HShiftRight.hShiftRight, Nat.repeat] using h
  | succ n ih =>
    rw [pow_succ, ← div_div]
    exact ih.shiftRightOne

/-- The rounded mantissa is nearest to the value. -/
theorem roundedMantissa (h : StandsFor em v) :
    |v - em.roundedMantissa| ≤ 1 / 2 ∧
      (|v - em.roundedMantissa| = 1 / 2 → em.roundedMantissa % 2 = 0) := by
  obtain ⟨m, r, s⟩ := em
  obtain ⟨g, hzero, hhalf, hsticky, rfl⟩ := h
  have hstickyNot : s = false → g = 0 := fun hs =>
    le_antisymm (not_lt.1 fun hpos => by simpa [hs] using hsticky.2 hpos) hzero
  rw [ExtendedMantissa.roundedMantissa]
  cases r with
  | false =>
    have hround : (ExtendedMantissa.accuracy ⟨m, false, s⟩).roundToNearestEven m = m := by
      cases s <;> rfl
    have hvalue : (m : Rat) + (if false = true then 1 / 2 else 0) + g - m = g := by simp
    rw [hround, hvalue, abs_of_nonneg hzero]
    exact ⟨hhalf.le, fun htie => absurd htie hhalf.ne⟩
  | true =>
    cases s with
    | true =>
      have hround : (ExtendedMantissa.accuracy ⟨m, true, true⟩).roundToNearestEven m = m + 1 := rfl
      have hpos : 0 < g := hsticky.1 rfl
      have hvalue : (m : Rat) + (if true = true then 1 / 2 else 0) + g - (m + 1 : Nat)
          = g - 1 / 2 := by
        push_cast
        simp only [if_true]
        ring
      rw [hround, hvalue, abs_of_neg (by linarith)]
      exact ⟨by linarith, fun htie => by linarith⟩
    | false =>
      have hround : (ExtendedMantissa.accuracy ⟨m, true, false⟩).roundToNearestEven m
          = m + m % 2 := rfl
      rw [hround, hstickyNot rfl]
      refine ⟨?_, fun _ => by omega⟩
      rcases Nat.mod_two_eq_zero_or_one m with heven | hodd
      · rw [heven]
        norm_num
      · rw [hodd]
        norm_num

end StandsFor

/-! ## Rounding with the exponent -/

theorem leadingBit_eq : leadingBit = 2 ^ 52 := by decide

theorem log2_eq {m : Nat} (hlow : leadingBit ≤ m) (hhigh : m < 2 * leadingBit) : m.log2 = 52 := by
  rw [leadingBit_eq] at hlow hhigh
  have hne : m ≠ 0 := by omega
  exact (Nat.log2_eq_iff hne).2 ⟨hlow, by omega⟩

/-- A mantissa that is too long by some bits is shifted by those, if that leaves it large enough. -/
theorem shiftToTargetExponent_eq {m j : Nat} {e : Int} (hj : m.log2 = 52 + j) (he : -1074 ≤ e + j)
    (accuracy : Accuracy) :
    shiftToTargetExponent .binary64 m e accuracy
      = (ExtendedMantissa.ofMantissaAndAccuracy m accuracy >>> j, e + j) := by
  have htarget : Format.binary64.targetExponent (totalExponent m e) = e + j := by
    simp only [Format.targetExponent, totalExponent, Format.mantissaBits, Format.minExponent]
    norm_num
    omega
  have hamount : (e + j - e).toNat = j := by omega
  simp only [shiftToTargetExponent, shiftToExponent, htarget, hamount]

theorem mantissa_ofMantissaAndAccuracy (m : Nat) (accuracy : Accuracy) :
    (ExtendedMantissa.ofMantissaAndAccuracy m accuracy).mantissa = m := by
  cases accuracy with
  | exact => rfl
  | inexact order => cases order <;> rfl

/-- The shift leaves a value that takes all the bits. -/
theorem StandsFor.shifted_bounds {m j : Nat} {accuracy : Accuracy} {v : Rat} (hm : m ≠ 0)
    (hj : m.log2 = 52 + j) (h : StandsFor (.ofMantissaAndAccuracy m accuracy) v) :
    (leadingBit : Rat) ≤ v / 2 ^ j ∧ v / 2 ^ j < 2 * leadingBit := by
  have hb := h.bounds
  rw [mantissa_ofMantissaAndAccuracy] at hb
  have hlow : 2 ^ (52 + j) ≤ m := hj ▸ Nat.log2_self_le hm
  have hhigh : m + 1 ≤ 2 ^ (52 + j + 1) := hj ▸ Nat.lt_log2_self
  have hlow : ((2 ^ (52 + j) : Nat) : Rat) ≤ m := by exact_mod_cast hlow
  have hhigh : ((m + 1 : Nat) : Rat) ≤ (2 ^ (52 + j + 1) : Nat) := by exact_mod_cast hhigh
  push_cast at hlow hhigh
  rw [pow_add] at hlow
  rw [pow_succ, pow_add] at hhigh
  rw [leadingBit_eq, le_div_iff₀ (by positivity), div_lt_iff₀ (by positivity)]
  push_cast
  constructor <;> linarith

/-- Rounding keeps the sign and gives the machine number nearest to the value, unless the value is too
small for all the bits. -/
theorem roundWithAccuracy_eq {m : Nat} {e : Int} {accuracy : Accuracy} {v : Rat}
    (hm : leadingBit ≤ m) (hv : StandsFor (.ofMantissaAndAccuracy m accuracy) v)
    (he : -1022 ≤ m.log2 + e) (s : Sign) :
    ∃ m' e' hm', roundWithAccuracy .binary64 s m e accuracy = .finite s m' e' hm' ∧
      IsNearest (v * 2 ^ e) m' e' := by
  have hne : m ≠ 0 := (lt_of_lt_of_le (by decide) hm).ne'
  have hlog : 52 ≤ m.log2 := (Nat.le_log2 hne).2 (leadingBit_eq ▸ hm)
  obtain ⟨j, hj⟩ : ∃ j : Nat, m.log2 = 52 + j := ⟨m.log2 - 52, by omega⟩
  have hfirst := shiftToTargetExponent_eq (e := e) hj (by omega) accuracy
  obtain ⟨hnear, heven⟩ := (hv.shiftRight j).roundedMantissa
  generalize hk : (ExtendedMantissa.ofMantissaAndAccuracy m accuracy >>> j).roundedMantissa = k
    at hnear heven
  have hvalue : v * 2 ^ e = v / 2 ^ j * 2 ^ (e + (j : Int)) := by
    rw [zpow_add₀ (by norm_num), zpow_natCast]
    field_simp
  rw [hvalue]
  rcases IsNearest.of_rounded (hv.shifted_bounds hne hj) hnear heven (e + j) with
    hnearest | ⟨htop, hnearest⟩
  · -- The second shift does nothing.
    have hlogk : k.log2 = 52 + 0 := log2_eq hnearest.low hnearest.high
    have hsecond := shiftToTargetExponent_eq (e := e + j) hlogk (by omega) .exact
    have hpos : 0 < k := lt_of_lt_of_le (by decide) hnearest.low
    refine ⟨k, e + j, hpos, ?_, hnearest⟩
    simp only [roundWithAccuracy, hfirst, hk, hsecond]
    simp only [Nat.cast_zero, add_zero]
    exact dif_neg hpos.ne'
  · -- The mantissa has been rounded to the next power of two, and is shifted once more.
    have hlogk : k.log2 = 52 + 1 := by
      rw [htop]
      decide
    have hsecond := shiftToTargetExponent_eq (e := e + j) hlogk (by omega) .exact
    have hmantissa : (ExtendedMantissa.ofMantissaAndAccuracy k .exact >>> 1).mantissa
        = leadingBit := by
      rw [htop]
      rfl
    refine ⟨leadingBit, e + j + 1, by decide, ?_, hnearest⟩
    simp only [roundWithAccuracy, hfirst, hk, hsecond, hmantissa]
    rfl

end Binary64
end Number
end SpacerTurning
