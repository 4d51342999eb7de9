import SpacerTurning.Proofs.Number.Interval

/-!
Decimals that are read.

A decimal is read as the machine number in whose interval it lies.  Few digits are read by one operation
on two exact numbers, and longer ones by a product or a quotient of whole numbers of any length, so the
result is rounded once in either case.
-/

namespace SpacerTurning
namespace Number
namespace Binary64

open Float.Model Float.Model.UnpackedFloat

section

variable {m m₁ m₂ n k : Nat} {e e₁ e₂ : Int} {h₁ : 0 < m₁} {h₂ : 0 < m₂} {v : Rat}

theorem mul_of_roundsTo (hsize : 52 ≤ (m₁ * m₂).log2) (hm : Canonical m e)
    (h : RoundsTo (m₁ * 2 ^ e₁ * (m₂ * 2 ^ e₂)) m e) (s₁ s₂ : Sign) :
    UnpackedFloat.mul .binary64 (.finite s₁ m₁ e₁ h₁) (.finite s₂ m₂ e₂ h₂)
      = .finite (s₁ * s₂) m e hm.pos := by
  have hvalue : (m₁ : Rat) * 2 ^ e₁ * (m₂ * 2 ^ e₂) = (m₁ * m₂ : Nat) * 2 ^ (e₁ + e₂) := by
    rw [zpow_add₀ (by norm_num)]
    push_cast
    ring
  rw [hvalue] at h
  exact roundWithAccuracy_of_roundsTo (.exact (m₁ * m₂)) (by omega) hm h (s₁ * s₂)

theorem div_of_roundsTo (hm : Canonical m e) (h : RoundsTo (m₁ * 2 ^ e₁ / (m₂ * 2 ^ e₂)) m e)
    (s₁ s₂ : Sign) :
    UnpackedFloat.div .binary64 (.finite s₁ m₁ e₁ h₁) (.finite s₂ m₂ e₂ h₂)
      = .finite (s₁ / s₂) m e hm.pos := by
  obtain ⟨d, hd⟩ : ∃ d : Int, d = min (e₁ - e₂) (Format.binary64.targetExponent
      (totalExponent m₁ e₁ - totalExponent m₂ e₂)) := ⟨_, rfl⟩
  obtain ⟨j, hj⟩ : ∃ j : Nat, j = (e₁ - e₂ - d).toNat := ⟨_, rfl⟩
  have hdiv : UnpackedFloat.div .binary64 (.finite s₁ m₁ e₁ h₁) (.finite s₂ m₂ e₂ h₂)
      = roundWithAccuracy .binary64 (s₁ / s₂) (m₁ * 2 ^ j / m₂) d
        (accuracyOfFraction (m₁ * 2 ^ j % m₂) m₂) := by
    simp only [UnpackedFloat.div, divCore, ← hd, ← hj, Nat.shiftLeft_eq]
  simp only [Format.targetExponent, totalExponent, Format.mantissaBits, Format.minExponent] at hd
  norm_num at hd
  have hvalue : (m₁ : Rat) * 2 ^ e₁ / (m₂ * 2 ^ e₂) = (m₁ * 2 ^ j : Nat) / m₂ * 2 ^ d := by
    have hexponent : d = e₁ - e₂ - j := by omega
    rw [hexponent, zpow_sub₀ (by norm_num), zpow_sub₀ (by norm_num), zpow_natCast]
    push_cast
    field_simp
  rw [hvalue] at h
  rw [hdiv]
  refine roundWithAccuracy_of_roundsTo (.quotient (m₁ * 2 ^ j) h₂) ?_ hm h (s₁ / s₂)
  by_cases hleast : d ≤ leastExponent
  · exact le_max_of_le_right hleast
  · -- The quotient has all its bits, unless the exponent is the least one.
    simp only [leastExponent] at hleast
    have hlow : 2 ^ 52 ≤ m₁ * 2 ^ j / m₂ := two_pow_le_quotient h₁ h₂ (by omega)
    have hne : m₁ * 2 ^ j / m₂ ≠ 0 := (lt_of_lt_of_le (by decide) hlow).ne'
    have := (Nat.le_log2 hne).2 hlow
    omega

/-! ## Digits scaled by a power of ten -/

theorem two_pow_le_ten_pow (k : Nat) : (2 : Rat) ^ k ≤ 10 ^ k :=
  pow_le_pow_left₀ (by norm_num) (by norm_num) k

theorem natCast_lt_zpow (n : Nat) : (n : Rat) < 2 ^ (n.log2 + 1 : Int) := by
  have h := lt_zpow_log2 n 0
  rwa [zpow_zero, mul_one, add_zero] at h

theorem toModel_ofScientific_false (hn : 0 < n) (hm : Canonical m e)
    (h : RoundsTo (n * 10 ^ k) m e) :
    (OfScientific.ofScientific n false k : Float).toModel = pack (.finite .positive m e hm.pos) := by
  have hhigh := (h.lt_zpow hm).trans_le
    (zpow_le_zpow_right₀ (by norm_num) (by have := hm.most; omega) : (2 : Rat) ^ (e + 53) ≤ 2 ^ (1024 : Int))
  change (Float.ofScientific n false k).toModel = _
  unfold Float.ofScientific
  split
  · next hsmall =>
    obtain ⟨m₁, e₁, h₁, hx, hlow₁, -, hvalue₁⟩ := isWhole_toFloat hn hsmall.1
    obtain ⟨m₂, e₂, h₂, hy, -, -, hvalue₂⟩ := isWhole_powerOfTen (k := k) (by omega) _
    have hsize : 52 ≤ (m₁ * m₂).log2 :=
      (Nat.le_log2 (Nat.mul_pos h₁ h₂).ne').2
        (leadingBit_eq ▸ hlow₁.trans (Nat.le_mul_of_pos_right _ h₂))
    rw [if_neg (by decide)]
    change Float.Model.pack (UnpackedFloat.mul .binary64 _ _) = _
    rw [hx, hy, mul_of_roundsTo hsize hm (by rw [hvalue₁, hvalue₂]; exact_mod_cast h)]
    rfl
  · have hk : k ≤ 1024 := by
      by_contra hlarge
      have hpower : (2 : Rat) ^ (1024 : Int) ≤ 2 ^ k := by
        rw [← zpow_natCast]
        exact zpow_le_zpow_right₀ (by norm_num) (by omega)
      have hone : (1 : Rat) ≤ n := by exact_mod_cast hn
      have hten := two_pow_le_ten_pow k
      have := le_mul_of_one_le_left (by positivity : (0 : Rat) ≤ 10 ^ k) hone
      linarith
    have hshift : 0 < n <<< 53 := by
      rw [Nat.shiftLeft_eq]
      exact Nat.mul_pos hn (by decide)
    have hten : 0 < 10 ^ k := Nat.pow_pos (by decide)
    have hmodel : UnpackedFloat.ofScientific .binary64 n k
        = UnpackedFloat.mul .binary64 (.finite .positive (n <<< 53) (-53) hshift)
          (.finite .positive (10 ^ k) 0 hten) := by
      rw [UnpackedFloat.ofScientific, dif_neg hn.ne', if_neg (by norm_num; omega),
        if_neg (by norm_num; omega), if_pos (Int.natCast_nonneg k)]
      rfl
    have hsize : 52 ≤ (n <<< 53 * 10 ^ k).log2 := by
      refine (Nat.le_log2 (Nat.mul_pos hshift hten).ne').2 ?_
      rw [Nat.shiftLeft_eq]
      calc 2 ^ 52 ≤ 2 ^ 53 := by decide
        _ ≤ n * 2 ^ 53 := Nat.le_mul_of_pos_left _ hn
        _ ≤ n * 2 ^ 53 * 10 ^ k := Nat.le_mul_of_pos_right _ hten
    have hvalue : ((n <<< 53 : Nat) : Rat) * 2 ^ (-53 : Int) * ((10 ^ k : Nat) * 2 ^ (0 : Int))
        = n * 10 ^ k := by
      rw [Nat.shiftLeft_eq]
      push_cast
      rw [zpow_neg]
      norm_num
      ring
    rw [if_neg (by decide)]
    change Float.Model.pack (UnpackedFloat.ofScientific .binary64 n k) = _
    rw [hmodel, mul_of_roundsTo hsize hm (by rw [hvalue]; exact h)]
    rfl

theorem toModel_ofScientific_true (hn : 0 < n) (hm : Canonical m e) (hk : 0 < k)
    (h : RoundsTo (n / 10 ^ k) m e) :
    (OfScientific.ofScientific n true k : Float).toModel = pack (.finite .positive m e hm.pos) := by
  change (Float.ofScientific n true k).toModel = _
  unfold Float.ofScientific
  split
  · next hsmall =>
    obtain ⟨m₁, e₁, h₁, hx, -, -, hvalue₁⟩ := isWhole_toFloat hn hsmall.1
    obtain ⟨m₂, e₂, h₂, hy, -, -, hvalue₂⟩ := isWhole_powerOfTen (k := k) (by omega) _
    rw [if_pos rfl]
    change Float.Model.pack (UnpackedFloat.div .binary64 _ _) = _
    rw [hx, hy, div_of_roundsTo hm (by rw [hvalue₁, hvalue₂]; exact_mod_cast h)]
    rfl
  · have hsmall : (k : Int) ≤ 2048 + n.log2 := by
      by_contra hlarge
      have hlow := h.zpow_le hm
      rw [le_div_iff₀ (by positivity)] at hlow
      have hpower : (2 : Rat) ^ (2048 + n.log2 : Int) ≤ 10 ^ k :=
        (zpow_le_zpow_right₀ (by norm_num) (not_le.1 hlarge).le).trans
          (by rw [zpow_natCast]; exact two_pow_le_ten_pow k)
      have hless := (mul_le_mul_of_nonneg_left hpower (two_zpow_pos (-1075)).le).trans_lt
        (hlow.trans_lt (natCast_lt_zpow n))
      rw [← zpow_add₀ (by norm_num)] at hless
      have := (zpow_lt_zpow_iff_right₀ (by norm_num : (1 : Rat) < 2)).1 hless
      omega
    have hten : 0 < 10 ^ k := Nat.pow_pos (by decide)
    have hmodel : UnpackedFloat.ofScientific .binary64 n (Int.negOfNat k)
        = UnpackedFloat.div .binary64 (.finite .positive n 0 hn)
          (.finite .positive (10 ^ k) 0 hten) := by
      have hneg : Int.negOfNat k = -(k : Int) := Int.negOfNat_eq
      rw [hneg, UnpackedFloat.ofScientific, dif_neg hn.ne', if_neg (by norm_num),
        if_neg (by norm_num; omega), if_neg (by omega)]
      simp only [neg_neg, Int.toNat_natCast]
    have hvalue : (n : Rat) * 2 ^ (0 : Int) / ((10 ^ k : Nat) * 2 ^ (0 : Int)) = n / 10 ^ k := by
      push_cast
      ring
    rw [if_pos rfl]
    change Float.Model.pack (UnpackedFloat.ofScientific .binary64 n (Int.negOfNat k)) = _
    rw [hmodel, div_of_roundsTo hm (by rw [hvalue]; exact h)]
    rfl

end

/-! ## Decimals -/

/-- Ten lies between eight and sixteen. -/
theorem ten_zpow_bounds (x : Int) :
    (2 : Rat) ^ ((if 0 ≤ x then 3 else 4) * x) ≤ 10 ^ x ∧
      (10 : Rat) ^ x ≤ 2 ^ ((if 0 ≤ x then 4 else 3) * x) := by
  have hpow (k : Nat) : (2 : Rat) ^ (3 * k) ≤ 10 ^ k ∧ (10 : Rat) ^ k ≤ 2 ^ (4 * k) := by
    rw [pow_mul, pow_mul]
    exact ⟨pow_le_pow_left₀ (by norm_num) (by norm_num) k,
      pow_le_pow_left₀ (by norm_num) (by norm_num) k⟩
  by_cases hx : 0 ≤ x
  · obtain ⟨k, rfl⟩ := Int.eq_ofNat_of_zero_le hx
    rw [if_pos hx, if_pos hx]
    exact_mod_cast hpow k
  · obtain ⟨k, rfl⟩ : ∃ k : Nat, x = -(k : Int) := ⟨(-x).toNat, by omega⟩
    obtain ⟨hlow, hhigh⟩ := hpow k
    rw [if_neg hx, if_neg hx, mul_neg, mul_neg, zpow_neg, zpow_neg, zpow_neg]
    constructor
    · rw [inv_le_inv₀ (by positivity) (by positivity)]
      exact_mod_cast hhigh
    · rw [inv_le_inv₀ (by positivity) (by positivity)]
      exact_mod_cast hlow

theorem eq_of_toModel {x y : Float} (h : x.toModel = y.toModel) : x = y := by
  cases x
  cases y
  exact congrArg Float.ofModel h

theorem toModel_eq_pack (x : Float) : x.toModel = pack x.toModel.unpack := by
  have hbits : UnpackedFloat.pack .binary64 x.toModel.unpack = x.toModel.toBits.toBitVec :=
    pack_unpack_of_valid x.toModel.valid
  have hmodel {a b : Float.Model} (h : a.toBits.toBitVec = b.toBits.toBitVec) : a = b := by
    cases a
    cases b
    congr
    exact UInt64.toBitVec_inj.1 h
  exact hmodel hbits.symm

/-- A number with fewer bits comes back from its bits too. -/
theorem unpack_pack_canonical {m : Nat} {e : Int} (hm : Canonical m e) (s : Sign) :
    (pack (.finite s m e hm.pos)).unpack = .finite s m e hm.pos := by
  by_cases hlow : leadingBit ≤ m
  · exact unpack_pack_finite s hm.pos hlow hm.high ⟨hm.least, hm.most⟩
  · have he : e = -1074 := by
      have hleast := hm.least
      have hfull := mt hm.full hlow
      simp only [leastExponent] at hleast hfull
      omega
    rw [not_le, leadingBit_eq] at hlow
    have hlog : m.log2 < 52 := (Nat.log2_lt hm.pos.ne').2 hlow
    have hmantissa : (BitVec.ofNat 52 m).toNat = m := by
      rw [BitVec.toNat_ofNat, Nat.mod_eq_of_lt hlow]
    have hne : BitVec.ofNat 52 m ≠ 0#52 := fun h => by
      have := congrArg BitVec.toNat h
      rw [hmantissa] at this
      exact hm.pos.ne' this
    subst he
    have hbits : Format.binary64.mantissaBits = 53 := rfl
    rw [unpack_pack, UnpackedFloat.pack, if_neg (by decide), if_neg (by omega)]
    change UnpackedFloat.unpack .binary64 (packComponents .binary64 s 0#11 (BitVec.ofNat 52 m)) = _
    rw [unpack_packComponents, ofParts, if_neg (by decide), if_pos rfl, dif_neg hne]
    simp only [hmantissa]

/-- The value of a decimal, without its sign. -/
def valueOf (d : Decimal) : Rat := d.digits * 10 ^ d.exponent

theorem valueOf_bounds {d : Decimal} (hpos : 0 < d.digits) :
    (2 : Rat) ^ reachedPower d ≤ valueOf d ∧
      valueOf d < 2 ^ (d.digits.log2 + 1 + (if 0 ≤ d.exponent then 4 else 3) * d.exponent : Int) := by
  obtain ⟨hlow, hhigh⟩ := ten_zpow_bounds d.exponent
  have hdigits := zpow_log2_le hpos 0
  rw [zpow_zero, mul_one, add_zero] at hdigits
  constructor
  · rw [reachedPower, zpow_add₀ (by norm_num)]
    exact mul_le_mul hdigits hlow (two_zpow_pos _).le (by positivity)
  · rw [zpow_add₀ (by norm_num)]
    exact mul_lt_mul (natCast_lt_zpow d.digits) hhigh (by positivity) (two_zpow_pos _).le

/-- A decimal in the interval of a machine number is read as that number. -/
theorem ofDecimal_of_roundsTo {d : Decimal} {x : Float} {m : Nat} {e : Int} (hpos : 0 < m)
    (hx : decode x = .finite d.negative m e) (h : RoundsTo (valueOf d) m e) : ofDecimal d = x := by
  obtain ⟨s, hs, hu⟩ := exists_unpack_of_decode hpos hx
  have hm := canonical_of_unpack hu
  have hdigits : 0 < d.digits := by
    by_contra hzero
    have hvalue := h.pos hm
    rw [valueOf, Nat.eq_zero_of_not_pos hzero, Nat.cast_zero, zero_mul] at hvalue
    exact lt_irrefl _ hvalue
  obtain ⟨hlow, hhigh⟩ := valueOf_bounds hdigits
  have hone : (1 : Rat) < 2 := by norm_num
  have hreached : ¬ 1024 ≤ reachedPower d := by
    have := (zpow_lt_zpow_iff_right₀ hone).1 (hlow.trans_lt (h.lt_zpow hm))
    have := hm.most
    omega
  have hsmall : ¬ d.exponent < -400 - (d.digits.log2 : Int) := by
    have := (zpow_lt_zpow_iff_right₀ hone).1 ((h.zpow_le hm).trans_lt hhigh)
    split at this <;> omega
  have hnearest : (ofDecimal { d with negative := false }).toModel
      = pack (.finite .positive m e hpos) := by
    have hreached' : ¬ 1024 ≤ reachedPower { d with negative := false } := hreached
    rw [ofDecimal, if_neg (by simp), if_neg hdigits.ne', if_neg hreached', if_neg hsmall]
    by_cases hexponent : 0 ≤ d.exponent
    · obtain ⟨k, hk⟩ := Int.eq_ofNat_of_zero_le hexponent
      rw [valueOf, hk, zpow_natCast] at h
      rw [if_pos hexponent, hk, Int.toNat_natCast]
      exact toModel_ofScientific_false hdigits hm h
    · obtain ⟨k, hk⟩ : ∃ k : Nat, d.exponent = -(k : Int) := ⟨(-d.exponent).toNat, by omega⟩
      rw [valueOf, hk, zpow_neg, zpow_natCast, ← div_eq_mul_inv] at h
      rw [if_neg hexponent, hk, neg_neg, Int.toNat_natCast]
      exact toModel_ofScientific_true hdigits hm (by omega) h
  apply eq_of_toModel
  rw [toModel_eq_pack x, hu]
  obtain ⟨negative, digits, exponent⟩ := d
  cases s with
  | positive =>
    obtain rfl : negative = false := hs.symm
    exact hnearest
  | negative =>
    obtain rfl : negative = true := hs.symm
    have hmodel : (ofDecimal ⟨true, digits, exponent⟩).toModel
      = pack (ofDecimal ⟨false, digits, exponent⟩).toModel.unpack.neg := rfl
    rw [hmodel, hnearest, unpack_pack_canonical hm]
    rfl

end Binary64
end Number
end SpacerTurning
