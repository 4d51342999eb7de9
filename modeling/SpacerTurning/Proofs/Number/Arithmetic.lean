import SpacerTurning.Proofs.Number.Packing

/-!
Arithmetic on machine numbers.

A product and a quotient are the machine numbers nearest to the exact ones, whole numbers of 53 bits are
machine numbers, and a decimal of a few places is read as the machine number nearest to it.
-/

namespace SpacerTurning
namespace Number
namespace Binary64

open Float.Model Float.Model.UnpackedFloat

theorem mul_eq {m₁ m₂ : Nat} {e₁ e₂ : Int} (h₁ : 0 < m₁) (h₂ : 0 < m₂)
    (hlow : leadingBit ≤ m₁ * m₂) (he : -1022 ≤ (m₁ * m₂).log2 + (e₁ + e₂)) (s₁ s₂ : Sign) :
    ∃ m e hm, UnpackedFloat.mul .binary64 (.finite s₁ m₁ e₁ h₁) (.finite s₂ m₂ e₂ h₂)
        = .finite (s₁ * s₂) m e hm ∧ IsNearest (m₁ * 2 ^ e₁ * (m₂ * 2 ^ e₂)) m e := by
  obtain ⟨m, e, hm, hround, hnearest⟩ :=
    roundWithAccuracy_eq hlow (.exact (m₁ * m₂)) he (s₁ * s₂)
  refine ⟨m, e, hm, hround, ?_⟩
  have hvalue : (m₁ : Rat) * 2 ^ e₁ * (m₂ * 2 ^ e₂) = (m₁ * m₂ : Nat) * 2 ^ (e₁ + e₂) := by
    rw [zpow_add₀ (by norm_num)]
    push_cast
    ring
  rwa [hvalue]

/-- A quotient of whole numbers, with what is left of it. -/
theorem StandsFor.quotient (a : Nat) {b : Nat} (hb : 0 < b) :
    StandsFor (.ofMantissaAndAccuracy (a / b) (accuracyOfFraction (a % b) b)) (a / b) := by
  have hfraction := StandsFor.fraction (a / b) (Nat.mod_lt a hb)
  have hquotient : ((a / b : Nat) : Rat) + (a % b : Nat) / b = a / b := by
    have hsplit : (b : Rat) * (a / b : Nat) + (a % b : Nat) = a := by
      exact_mod_cast Nat.div_add_mod a b
    have hpos : (0 : Rat) < b := by exact_mod_cast hb
    rw [← hsplit, add_div, mul_div_cancel_left₀ _ hpos.ne']
  rwa [hquotient] at hfraction

/-- One bit may be lost against the difference of the sizes. -/
theorem two_pow_le_quotient {m₁ m₂ j k : Nat} (h₁ : 0 < m₁) (h₂ : 0 < m₂)
    (hk : m₂.log2 + 1 + k ≤ m₁.log2 + j) : 2 ^ k ≤ m₁ * 2 ^ j / m₂ := by
  rw [Nat.le_div_iff_mul_le h₂]
  have hlow : 2 ^ (m₁.log2 + j) ≤ m₁ * 2 ^ j := by
    rw [pow_add]
    exact Nat.mul_le_mul_right _ (Nat.log2_self_le h₁.ne')
  calc 2 ^ k * m₂ ≤ 2 ^ k * 2 ^ (m₂.log2 + 1) := Nat.mul_le_mul_left _ Nat.lt_log2_self.le
    _ = 2 ^ (m₂.log2 + 1 + k) := by rw [← pow_add, Nat.add_comm]
    _ ≤ 2 ^ (m₁.log2 + j) := Nat.pow_le_pow_right (by decide) hk
    _ ≤ m₁ * 2 ^ j := hlow

/-- The numerator is shifted so far that the quotient has all its bits. -/
theorem div_eq {m₁ m₂ : Nat} {e₁ e₂ : Int} (h₁ : 0 < m₁) (h₂ : 0 < m₂)
    (he : -1021 ≤ m₁.log2 + e₁ - (m₂.log2 + e₂)) (s₁ s₂ : Sign) :
    ∃ m e hm, UnpackedFloat.div .binary64 (.finite s₁ m₁ e₁ h₁) (.finite s₂ m₂ e₂ h₂)
        = .finite (s₁ / s₂) m e hm ∧ IsNearest (m₁ * 2 ^ e₁ / (m₂ * 2 ^ e₂)) m e := by
  obtain ⟨j, hj⟩ : ∃ j : Nat, j = ((m₂.log2 : Int) - m₁.log2 + 53).toNat := ⟨_, rfl⟩
  have hcore : divCore .binary64 m₁ e₁ m₂ e₂ = (m₁ * 2 ^ j / m₂, e₁ - e₂ - j,
      accuracyOfFraction (m₁ * 2 ^ j % m₂) m₂) := by
    have htarget : min (e₁ - e₂) (Format.binary64.targetExponent
        (totalExponent m₁ e₁ - totalExponent m₂ e₂)) = e₁ - e₂ - j := by
      simp only [Format.targetExponent, totalExponent, Format.mantissaBits, Format.minExponent]
      norm_num
      omega
    have hamount : (e₁ - e₂ - (e₁ - e₂ - (j : Int))).toNat = j := by omega
    simp only [divCore, htarget, hamount, Nat.shiftLeft_eq]
  have hfraction := StandsFor.quotient (m₁ * 2 ^ j) h₂
  push_cast at hfraction
  have hlow : leadingBit ≤ m₁ * 2 ^ j / m₂ :=
    leadingBit_eq ▸ two_pow_le_quotient h₁ h₂ (by omega)
  have hlog : m₁.log2 + j ≤ (m₁ * 2 ^ j / m₂).log2 + (m₂.log2 + 1) := by
    have hne : m₁ * 2 ^ j / m₂ ≠ 0 := (lt_of_lt_of_le (by decide) hlow).ne'
    have := (Nat.le_log2 hne).2
      (two_pow_le_quotient (j := j) (k := m₁.log2 + j - (m₂.log2 + 1)) h₁ h₂ (by omega))
    omega
  obtain ⟨m, e, hm, hround, hnearest⟩ := roundWithAccuracy_eq hlow hfraction
    (e := e₁ - e₂ - j) (by omega) (s₁ / s₂)
  refine ⟨m, e, hm, ?_, ?_⟩
  · simp only [UnpackedFloat.div, hcore]
    exact hround
  · have hvalue : (m₁ : Rat) * 2 ^ e₁ / (m₂ * 2 ^ e₂) = m₁ * 2 ^ j / m₂ * 2 ^ (e₁ - e₂ - j) := by
      rw [zpow_sub₀ (by norm_num), zpow_sub₀ (by norm_num), zpow_natCast]
      field_simp
    rwa [hvalue]

/-! ## Numbers that come back from their bits -/

/-- A number is a sign and the machine number nearest to a value. -/
def IsRounded (u : UnpackedFloat) (s : Sign) (v : Rat) : Prop :=
  ∃ m e hm, u = .finite s m e hm ∧ IsNearest v m e

/-- A value whose nearest machine number has all its bits and is in range. -/
def InRange (v : Rat) : Prop := (2 : Rat) ^ (-1020 : Int) ≤ v ∧ v ≤ 2 ^ (1020 : Int)

theorem IsRounded.pack {u : UnpackedFloat} {s : Sign} {v : Rat} (h : IsRounded u s v)
    (hv : InRange v) : IsRounded (Float.Model.pack u).unpack s v := by
  obtain ⟨m, e, hm, rfl, hnearest⟩ := h
  have hbounds := hnearest.exponent_bounds hv.1 hv.2
  refine ⟨m, e, hm, ?_, hnearest⟩
  exact unpack_pack_finite s hm hnearest.low hnearest.high (by omega)

theorem zpow_log2_le {m : Nat} (h : 0 < m) (e : Int) : (2 : Rat) ^ (m.log2 + e) ≤ m * 2 ^ e := by
  rw [zpow_add₀ (by norm_num), zpow_natCast]
  have : ((2 ^ m.log2 : Nat) : Rat) ≤ m := by exact_mod_cast Nat.log2_self_le h.ne'
  push_cast at this
  exact mul_le_mul_of_nonneg_right this (two_zpow_pos e).le

theorem lt_zpow_log2 (m : Nat) (e : Int) : (m : Rat) * 2 ^ e < 2 ^ (m.log2 + 1 + e) := by
  rw [zpow_add₀ (by norm_num), ← Nat.cast_succ, zpow_natCast]
  have : (m : Rat) < (2 ^ (m.log2 + 1) : Nat) := by exact_mod_cast Nat.lt_log2_self
  push_cast at this
  exact mul_lt_mul_of_pos_right this (two_zpow_pos e)

section

variable {x y : Float} {s₁ s₂ : Sign} {m₁ m₂ : Nat} {e₁ e₂ : Int} {h₁ : 0 < m₁} {h₂ : 0 < m₂}
  {v : Rat}

theorem div_isRounded (hvalue : m₁ * 2 ^ e₁ / (m₂ * 2 ^ e₂) = v) (hv : InRange v) :
    IsRounded (UnpackedFloat.div .binary64 (.finite s₁ m₁ e₁ h₁) (.finite s₂ m₂ e₂ h₂))
      (s₁ / s₂) v := by
  have hsize : -1021 ≤ (m₁.log2 : Int) + e₁ - (m₂.log2 + e₂) := by
    have hpos : (0 : Rat) < m₂ * 2 ^ e₂ :=
      mul_pos (by exact_mod_cast h₂) (two_zpow_pos e₂)
    have hlow := hv.1
    rw [← hvalue, le_div_iff₀ hpos] at hlow
    have hless : (2 : Rat) ^ (-1020 + (m₂.log2 + e₂)) < 2 ^ (m₁.log2 + 1 + e₁) := by
      rw [zpow_add₀ (by norm_num)]
      refine lt_of_le_of_lt ?_ (lt_zpow_log2 m₁ e₁)
      exact (mul_le_mul_of_nonneg_left (zpow_log2_le h₂ e₂) (by positivity)).trans hlow
    have := (zpow_lt_zpow_iff_right₀ (by norm_num : (1 : Rat) < 2)).1 hless
    omega
  rw [← hvalue]
  exact div_eq h₁ h₂ hsize s₁ s₂

theorem isRounded_div (hx : x.toModel.unpack = .finite s₁ m₁ e₁ h₁)
    (hy : y.toModel.unpack = .finite s₂ m₂ e₂ h₂) (hvalue : m₁ * 2 ^ e₁ / (m₂ * 2 ^ e₂) = v)
    (hv : InRange v) : IsRounded (x / y).toModel.unpack (s₁ / s₂) v := by
  have hmodel : (x / y).toModel = Float.Model.pack
    (UnpackedFloat.div .binary64 x.toModel.unpack y.toModel.unpack) := rfl
  rw [hmodel, hx, hy]
  exact (div_isRounded hvalue hv).pack hv

theorem mul_isRounded (hlow : leadingBit ≤ m₁ * m₂) (hvalue : m₁ * 2 ^ e₁ * (m₂ * 2 ^ e₂) = v)
    (hv : InRange v) :
    IsRounded (UnpackedFloat.mul .binary64 (.finite s₁ m₁ e₁ h₁) (.finite s₂ m₂ e₂ h₂))
      (s₁ * s₂) v := by
  have hsize : -1022 ≤ ((m₁ * m₂).log2 : Int) + (e₁ + e₂) := by
    have hless : (2 : Rat) ^ (-1020 : Int) < 2 ^ ((m₁ * m₂).log2 + 1 + (e₁ + e₂)) := by
      refine lt_of_le_of_lt hv.1 (lt_of_eq_of_lt ?_ (lt_zpow_log2 (m₁ * m₂) (e₁ + e₂)))
      rw [← hvalue, zpow_add₀ (by norm_num)]
      push_cast
      ring
    have := (zpow_lt_zpow_iff_right₀ (by norm_num : (1 : Rat) < 2)).1 hless
    omega
  rw [← hvalue]
  exact mul_eq h₁ h₂ hlow hsize s₁ s₂

theorem isRounded_mul (hx : x.toModel.unpack = .finite s₁ m₁ e₁ h₁)
    (hy : y.toModel.unpack = .finite s₂ m₂ e₂ h₂) (hlow : leadingBit ≤ m₁ * m₂)
    (hvalue : m₁ * 2 ^ e₁ * (m₂ * 2 ^ e₂) = v) (hv : InRange v) :
    IsRounded (x * y).toModel.unpack (s₁ * s₂) v := by
  have hmodel : (x * y).toModel = Float.Model.pack
    (UnpackedFloat.mul .binary64 x.toModel.unpack y.toModel.unpack) := rfl
  rw [hmodel, hx, hy]
  exact (mul_isRounded hlow hvalue hv).pack hv

end

/-! ## Whole numbers and decimals -/

/-- A number is a sign and a whole number, with all its bits. -/
def IsWhole (u : UnpackedFloat) (s : Sign) (n : Nat) : Prop :=
  ∃ m e hm, u = .finite s m e hm ∧ leadingBit ≤ m ∧ m < 2 * leadingBit ∧ (m : Rat) * 2 ^ e = n

theorem isWhole_toFloat {n : Nat} (hpos : 0 < n) (hn : n < 2 ^ 53) :
    IsWhole n.toUInt64.toFloat.toModel.unpack .positive n := by
  have hlog : n.log2 ≤ 52 := by
    have := (Nat.log2_lt hpos.ne').2 hn
    omega
  have hmodel : n.toUInt64.toFloat.toModel
      = pack (UnpackedFloat.round .binary64 .positive n 0) := by
    have hnat : n.toUInt64.toNat = n := Nat.mod_eq_of_lt (hn.trans (by decide))
    have hgt : compare (n : Int) 0 = .gt := Int.compare_eq_gt.2 (by omega)
    change pack (UnpackedFloat.ofUInt64 .binary64 n.toUInt64) = _
    rw [UnpackedFloat.ofUInt64, UnpackedFloat.ofNat, UnpackedFloat.ofInt, UnpackedFloat.normalize, hnat, hgt]
    rfl
  have hlow : leadingBit ≤ n * 2 ^ (52 - n.log2) := by
    have := Nat.mul_le_mul_right (2 ^ (52 - n.log2)) (Nat.log2_self_le hpos.ne')
    rwa [← pow_add, Nat.add_sub_cancel' hlog, ← leadingBit_eq] at this
  have hhigh : n * 2 ^ (52 - n.log2) < 2 * leadingBit := by
    have := Nat.mul_lt_mul_of_pos_right (Nat.lt_log2_self (n := n)) (Nat.two_pow_pos (52 - n.log2))
    rw [← pow_add] at this
    have hexp : n.log2 + 1 + (52 - n.log2) = 53 := by omega
    rw [hexp] at this
    exact this
  have htarget : Format.binary64.targetExponent (totalExponent n 0) = n.log2 - 52 := by
    simp only [Format.targetExponent, totalExponent, Format.mantissaBits, Format.minExponent]
    norm_num
    omega
  have hamount : ((0 : Int) - (n.log2 - 52)).toNat = 52 - n.log2 := by omega
  have hexact := StandsFor.exact (n * 2 ^ (52 - n.log2))
  have hlogm := log2_eq hlow hhigh
  obtain ⟨m, e, hm, hround, hnearest⟩ := roundWithAccuracy_eq hlow hexact
    (e := 0 - (52 - n.log2 : Nat)) (by omega) .positive
  obtain ⟨rfl, rfl⟩ := (IsNearest.self hlow hhigh _).unique hnearest
  refine ⟨n * 2 ^ (52 - n.log2), 0 - (52 - n.log2 : Nat), hm, ?_, hlow, hhigh, ?_⟩
  · rw [hmodel, UnpackedFloat.round, htarget]
    simp only [decreaseExponent, hamount, Nat.shiftLeft_eq]
    rw [hround]
    exact unpack_pack_finite _ hm hlow hhigh (by omega)
  · push_cast
    rw [zero_sub, zpow_neg, zpow_natCast]
    field_simp

theorem isWhole_of_decode {x : Float} {m : Nat} {e : Int} {n : Nat}
    (h : decode x = .finite false m e) (hlow : leadingBit ≤ m) (hhigh : m < 2 * leadingBit)
    (hvalue : (m : Rat) * 2 ^ e = n) : IsWhole x.toModel.unpack .positive n :=
  ⟨m, e, lt_of_lt_of_le (by decide) hlow, unpack_of_decode _ h, hlow, hhigh, hvalue⟩

theorem decode_powerOfTen : ∀ k < 23,
    (match Float.exactlyRepresentablePowersOfTen[k]?.map decode with
      | some (.finite false m e) => leadingBit ≤ m && decide (m < 2 * leadingBit)
        && m * (powerOfTwo e).1 == 10 ^ k * (powerOfTwo e).2
      | _ => false) = true := by
  decide +kernel

theorem isWhole_powerOfTen {k : Nat} (hk : k < 23)
    (hsize : k < Float.exactlyRepresentablePowersOfTen.size) :
    IsWhole Float.exactlyRepresentablePowersOfTen[k].toModel.unpack .positive (10 ^ k) := by
  have h := decode_powerOfTen k hk
  rw [Array.getElem?_eq_getElem hsize, Option.map_some] at h
  split at h
  · next m e hdecode =>
    simp only [Bool.and_eq_true, decide_eq_true_eq, beq_iff_eq] at h
    obtain ⟨⟨hlow, hhigh⟩, hvalue⟩ := h
    refine isWhole_of_decode (Option.some.inj hdecode) hlow hhigh ?_
    have hpos : ((powerOfTwo e).2 : Rat) ≠ 0 := by exact_mod_cast (powerOfTwo_pos e).ne'
    rw [← powerOfTwo_eq, hvalue, Nat.cast_mul, mul_div_cancel_right₀ _ hpos]
  · cases h

theorem ofScientific_true {n k : Nat} (hpos : 0 < n) (hk : 0 < k) (hk4 : k ≤ 4)
    (hrange : InRange (n / 10 ^ k)) :
    IsRounded (OfScientific.ofScientific n true k : Float).toModel.unpack .positive
      (n / 10 ^ k) := by
  change IsRounded (Float.ofScientific n true k).toModel.unpack .positive _
  unfold Float.ofScientific
  split
  · next hsmall =>
    obtain ⟨m₁, e₁, h₁, hx, -, -, hvalue₁⟩ := isWhole_toFloat hpos hsmall.1
    obtain ⟨m₂, e₂, h₂, hy, -, -, hvalue₂⟩ := isWhole_powerOfTen (k := k) (by omega) _
    rw [if_pos rfl]
    exact isRounded_div hx hy (by rw [hvalue₁, hvalue₂, Nat.cast_pow, Nat.cast_ofNat]) hrange
  · have hten : 0 < 10 ^ k := Nat.pow_pos (by decide)
    have hmodel : UnpackedFloat.ofScientific .binary64 n (Int.negOfNat k)
        = UnpackedFloat.div .binary64 (.finite .positive n 0 hpos)
          (.finite .positive (10 ^ k) 0 hten) := by
      have hneg : Int.negOfNat k = -(k : Int) := Int.negOfNat_eq
      rw [hneg, UnpackedFloat.ofScientific, dif_neg hpos.ne', if_neg (by norm_num),
        if_neg (by norm_num; omega), if_neg (by omega)]
      simp only [neg_neg, Int.toNat_natCast]
    rw [if_pos rfl]
    change IsRounded (Float.Model.pack (UnpackedFloat.ofScientific .binary64 n
      (Int.negOfNat k))).unpack .positive _
    rw [hmodel]
    exact (div_isRounded (by push_cast; ring) hrange).pack hrange

theorem ofScientific_false {n : Nat} (hpos : 0 < n) (hrange : InRange n) :
    IsRounded (OfScientific.ofScientific n false 0 : Float).toModel.unpack .positive n := by
  change IsRounded (Float.ofScientific n false 0).toModel.unpack .positive _
  unfold Float.ofScientific
  split
  · next hsmall =>
    obtain ⟨m₁, e₁, h₁, hx, hlow, -, hvalue₁⟩ := isWhole_toFloat hpos hsmall.1
    obtain ⟨m₂, e₂, h₂, hy, -, -, hvalue₂⟩ := isWhole_powerOfTen (k := 0) (by decide) _
    rw [if_neg (by decide)]
    exact isRounded_mul hx hy (hlow.trans (Nat.le_mul_of_pos_right _ h₂))
      (by rw [hvalue₁, hvalue₂, pow_zero, Nat.cast_one, mul_one]) hrange
  · have hshift : 0 < n <<< 53 := by
      rw [Nat.shiftLeft_eq]
      exact Nat.mul_pos hpos (by decide)
    have hmodel : UnpackedFloat.ofScientific .binary64 n 0
        = UnpackedFloat.mul .binary64 (.finite .positive (n <<< 53) (-53) hshift)
          (.finite .positive 1 0 Nat.one_pos) := by
      rw [UnpackedFloat.ofScientific, dif_neg hpos.ne', if_neg (by norm_num),
        if_neg (by norm_num), if_pos le_rfl]
      rfl
    rw [if_neg (by decide)]
    change IsRounded (Float.Model.pack (UnpackedFloat.ofScientific .binary64 n 0)).unpack
      .positive _
    rw [hmodel]
    refine (mul_isRounded ?_ ?_ hrange).pack hrange
    · rw [Nat.shiftLeft_eq, Nat.mul_one, leadingBit_eq]
      exact Nat.le_mul_of_pos_left _ hpos |>.trans' (by decide)
    · rw [Nat.shiftLeft_eq]
      push_cast
      rw [zpow_neg]
      norm_num
      ring

theorem IsRounded.neg {x : Float} {v : Rat} (h : IsRounded x.toModel.unpack .positive v)
    (hv : InRange v) : IsRounded (-x).toModel.unpack .negative v := by
  obtain ⟨m, e, hm, hu, hnearest⟩ := h
  have hmodel : (-x).toModel = Float.Model.pack x.toModel.unpack.neg := rfl
  rw [hmodel, hu]
  exact IsRounded.pack ⟨m, e, hm, rfl, hnearest⟩ hv

def signOf (negative : Bool) : Sign := if negative then .negative else .positive

/-- A decimal of a few places is read as the machine number nearest to it. -/
theorem isRounded_ofDecimal {d : Decimal} {k : Nat} (hexponent : d.exponent = -k) (hk : k ≤ 4)
    (hpos : 0 < d.digits) (hrange : InRange (d.digits / 10 ^ k)) :
    IsRounded (ofDecimal d).toModel.unpack (signOf d.negative) (d.digits / 10 ^ k) := by
  have hpower : reachedPower d < 1024 := by
    -- Ten is less than sixteen, so that the places take four bits each.
    have hdigits : (2 : Rat) ^ (d.digits.log2 : Int) ≤ 2 ^ (1020 + 4 * k : Int) := by
      have hlog := zpow_log2_le hpos 0
      rw [add_zero, zpow_zero, mul_one] at hlog
      have hhigh := hrange.2
      rw [div_le_iff₀ (by positivity)] at hhigh
      refine (hlog.trans hhigh).trans ?_
      rw [zpow_add₀ (by norm_num), zpow_mul, zpow_natCast]
      exact mul_le_mul_of_nonneg_left (pow_le_pow_left₀ (by norm_num) (by norm_num) k)
        (by positivity)
    have hlog := (zpow_le_zpow_iff_right₀ (by norm_num : (1 : Rat) < 2)).1 hdigits
    simp only [reachedPower, hexponent]
    split <;> omega
  have hnearest : IsRounded (ofDecimal { d with negative := false }).toModel.unpack .positive
      (d.digits / 10 ^ k) := by
    have hpower : ¬ 1024 ≤ reachedPower { d with negative := false } := not_le.2 hpower
    rw [ofDecimal, if_neg (by simp), if_neg hpos.ne', if_neg hpower, if_neg (by rw [hexponent]; omega)]
    rw [hexponent]
    rcases Nat.eq_zero_or_pos k with rfl | hkpos
    · rw [pow_zero, div_one] at hrange ⊢
      rw [if_pos (by simp)]
      exact ofScientific_false hpos hrange
    · rw [if_neg (by omega), neg_neg, Int.toNat_natCast]
      exact ofScientific_true hpos hkpos hk hrange
  obtain ⟨negative, digits, exponent⟩ := d
  cases negative with
  | false => exact hnearest
  | true => exact hnearest.neg hrange

end Binary64
end Number
end SpacerTurning
