import SpacerTurning.Proofs.Number.Closest
import SpacerTurning.Proofs.Number.Lengths

/-!
How far a number is from a whole one.

A difference of numbers is the machine number nearest to the exact one.  So a number differs from the whole
number that it is rounded to by nothing if it is whole, and by more than a little if it is not nearly so.
-/

namespace SpacerTurning
namespace Number
namespace Binary64

open Float.Model Float.Model.UnpackedFloat

variable {x y : Float} {v w : Rat} {s : Sign} {m n : Nat} {e : Int}

/-! ## Differences -/

/-- A mantissa that is short is shifted first, so that it has all its bits. -/
theorem round_eq (hm : 0 < m) (he : -1022 ≤ (m.log2 : Int) + e) (s : Sign) :
    ∃ m' e' hm', UnpackedFloat.round .binary64 s m e = .finite s m' e' hm' ∧
      IsNearest (m * 2 ^ e) m' e' := by
  obtain ⟨j, hj⟩ : ∃ j : Nat, j = 52 - m.log2 := ⟨_, rfl⟩
  have hamount : (e - Format.binary64.targetExponent (totalExponent m e)).toNat = j := by
    simp only [Format.targetExponent, totalExponent, Format.mantissaBits, Format.minExponent]
    norm_num
    omega
  have hpow : 2 ^ (m.log2 + j) ≤ m * 2 ^ j := by
    rw [pow_add]
    exact Nat.mul_le_mul_right _ (Nat.log2_self_le hm.ne')
  have hpos : 0 < m * 2 ^ j := Nat.mul_pos hm (Nat.two_pow_pos j)
  have hlow : leadingBit ≤ m * 2 ^ j := by
    rw [leadingBit_eq]
    exact (Nat.pow_le_pow_right (by decide) (by omega)).trans hpow
  have hlog := (Nat.le_log2 hpos.ne').2 hpow
  obtain ⟨m', e', hm', hround, hnearest⟩ := roundWithAccuracy_eq hlow (.exact (m * 2 ^ j))
    (e := e - j) (by omega) s
  refine ⟨m', e', hm', ?_, ?_⟩
  · simp only [UnpackedFloat.round, decreaseExponent, hamount, Nat.shiftLeft_eq]
    exact hround
  · have hvalue : ((m * 2 ^ j : Nat) : Rat) * 2 ^ (e - j) = m * 2 ^ e := by
      rw [zpow_sub₀ (by norm_num), zpow_natCast]
      push_cast
      field_simp
    rwa [hvalue] at hnearest

/-- A difference, on the exponent of the smaller number. -/
theorem sub_eq_normalize (hx : HasValue x v) (hy : HasValue y w) :
    ∃ (M E : Int), (x - y).toModel = pack (UnpackedFloat.normalize .binary64 M E .positive) ∧
      (M : Rat) * 2 ^ E = v - w := by
  obtain ⟨m₁, e₁, h₁, hx, rfl⟩ := hx
  obtain ⟨m₂, e₂, h₂, hy, rfl⟩ := hy
  have hmodel : (x - y).toModel
      = pack (UnpackedFloat.sub .binary64 x.toModel.unpack y.toModel.unpack) := rfl
  rw [hmodel, hx, hy]
  obtain ⟨j₁, hj₁⟩ : ∃ j : Nat, e₁ = min e₁ e₂ + j := ⟨(e₁ - min e₁ e₂).toNat, by omega⟩
  obtain ⟨j₂, hj₂⟩ : ∃ j : Nat, e₂ = min e₁ e₂ + j := ⟨(e₂ - min e₁ e₂).toNat, by omega⟩
  generalize hE : min e₁ e₂ = E at hj₁ hj₂
  refine ⟨(m₁ * 2 ^ j₁ : Nat) - (m₂ * 2 ^ j₂ : Nat), E, ?_, ?_⟩
  · have hamount₁ : (e₁ - E).toNat = j₁ := by omega
    have hamount₂ : (e₂ - E).toNat = j₂ := by omega
    simp only [UnpackedFloat.sub, decreaseExponent, hE, hamount₁, hamount₂, Nat.shiftLeft_eq]
    rfl
  · rw [hj₁, hj₂, zpow_add₀ (by norm_num), zpow_add₀ (by norm_num), zpow_natCast, zpow_natCast]
    push_cast
    ring

/-- Equal numbers leave nothing. -/
theorem HasValue.isZero_sub (hx : HasValue x v) (hy : HasValue y v) : IsZero (x - y) := by
  obtain ⟨M, E, hmodel, hvalue⟩ := sub_eq_normalize hx hy
  have hM : M = 0 := by
    rw [sub_self, mul_eq_zero] at hvalue
    exact_mod_cast hvalue.resolve_right (two_zpow_pos E).ne'
  refine ⟨.positive, ?_⟩
  rw [hmodel, hM]
  exact unpack_pack_zero .positive

/-- Other numbers leave the number nearest to their difference, if that is not too small. -/
theorem HasValue.exists_isRounded_sub (hx : HasValue x v) (hy : HasValue y w)
    (hrange : InRange |v - w|) : ∃ s, IsRounded (x - y).toModel.unpack s |v - w| := by
  obtain ⟨M, E, hmodel, hvalue⟩ := sub_eq_normalize hx hy
  have hsize : |v - w| = M.natAbs * 2 ^ E := by
    rw [← hvalue, abs_mul, abs_of_pos (two_zpow_pos E), Nat.cast_natAbs, Int.cast_abs]
  have hM : 0 < M.natAbs := by
    refine Nat.pos_of_ne_zero fun hzero => ?_
    have hpos := (two_zpow_pos (-1020)).trans_le hrange.1
    rw [hsize, hzero, Nat.cast_zero, zero_mul] at hpos
    exact lt_irrefl _ hpos
  have hlog : -1022 ≤ (M.natAbs.log2 : Int) + E := by
    have hless := hrange.1.trans_lt (hsize ▸ lt_zpow_log2 M.natAbs E)
    have := (zpow_lt_zpow_iff_right₀ (by norm_num : (1 : Rat) < 2)).1 hless
    omega
  have hround (s : Sign) : IsRounded (UnpackedFloat.round .binary64 s M.natAbs E) s |v - w| := by
    obtain ⟨m, e, hm, hround, hnearest⟩ := round_eq hM hlog s
    exact ⟨m, e, hm, hround, hsize ▸ hnearest⟩
  rw [hmodel]
  rcases lt_trichotomy M 0 with hneg | hzero | hpos
  · have hnormal : UnpackedFloat.normalize .binary64 M E .positive
        = UnpackedFloat.round .binary64 .negative M.natAbs E := by
      have hamount : (-M).toNat = M.natAbs := by omega
      rw [UnpackedFloat.normalize, Int.compare_eq_lt.2 hneg, ← hamount]
    exact ⟨.negative, (hnormal ▸ hround .negative).pack hrange⟩
  · omega
  · have hnormal : UnpackedFloat.normalize .binary64 M E .positive
        = UnpackedFloat.round .binary64 .positive M.natAbs E := by
      have hamount : M.toNat = M.natAbs := by omega
      rw [UnpackedFloat.normalize, Int.compare_eq_gt.2 hpos, ← hamount]
    exact ⟨.positive, (hnormal ▸ hround .positive).pack hrange⟩

/-! ## Sizes -/

/-- The lengths are the numbers above zero. -/
theorem isLength_iff_exists_hasValue : isLength x = true ↔ ∃ v, HasValue x v := by
  obtain ⟨s, hzero⟩ := isZero_zero
  rw [isLength_iff, float_lt_iff, hzero]
  constructor
  · rintro ⟨hfinite, p, q, hp, hq, hlt⟩
    obtain rfl := Option.some.inj hp
    have hfinite : x.toModel.unpack.isFinite = true := hfinite
    generalize hu : x.toModel.unpack = u at hq hfinite
    rcases u with (_ | _) | _ | _ | ⟨_ | _, m, e, hm⟩
    case finite.positive => exact ⟨_, m, e, hm, hu, rfl⟩
    case finite.negative =>
      obtain rfl := Option.some.inj hq
      exact absurd hlt (by simp [Prod.Lex.toLex_lt_toLex])
    case zero =>
      obtain rfl := Option.some.inj hq
      exact absurd hlt (lt_irrefl _)
    all_goals cases hfinite
  · rintro ⟨v, m, e, hm, hu, -⟩
    refine ⟨(congrArg UnpackedFloat.isFinite hu).trans rfl, _, _, rfl, congrArg rank? hu, ?_⟩
    exact Prod.Lex.toLex_lt_toLex.2 (Or.inl Int.zero_lt_one)

theorem isNegative_iff (hu : x.toModel.unpack = .finite s m e hm) :
    x.toBits.toNat / 2 ^ (63 : Nat) % 2 = 1 ↔ isNegative s = true := by
  have hdecode := decode_eq x
  rw [hu] at hdecode
  unfold decode at hdecode
  dsimp only at hdecode
  split at hdecode
  · split at hdecode <;> cases hdecode
  · split at hdecode
    · injection hdecode with hs
      rw [← hs, decide_eq_true_iff]
    · injection hdecode with hs
      rw [← hs, decide_eq_true_iff]

/-- A number nearest to a value is more than half of it. -/
theorem IsNearest.le_two_mul (h : IsNearest v m e) : v ≤ 2 * (m * 2 ^ e) := by
  have hone : (1 : Rat) ≤ m := by
    have hlow : 1 ≤ m := le_trans (by decide) h.low
    exact_mod_cast hlow
  have hhalf : ((m : Rat) + 1 / 2) * 2 ^ e ≤ 2 * m * 2 ^ e :=
    mul_le_mul_of_nonneg_right (by linarith) (two_zpow_pos e).le
  linarith [h.bounds.2]

theorem HasValue.magnitude_eq (h : HasValue x v) : Scalar.magnitude x = x := by
  obtain ⟨m, e, hm, hu, -⟩ := h
  exact if_neg fun hbit => absurd ((isNegative_iff hu).1 hbit) (by decide)

/-- Without its sign, what was rounded is above zero. -/
theorem exists_hasValue_magnitude (h : IsRounded x.toModel.unpack s v) :
    ∃ w, HasValue (Scalar.magnitude x) w ∧ v ≤ 2 * w := by
  obtain ⟨m, e, hm, hu, hnearest⟩ := h
  refine ⟨m * 2 ^ e, ?_, hnearest.le_two_mul⟩
  cases s with
  | positive =>
    have hx : HasValue x (m * 2 ^ e) := ⟨m, e, hm, hu, rfl⟩
    rwa [hx.magnitude_eq]
  | negative =>
    have hmagnitude : Scalar.magnitude x = -x := if_pos ((isNegative_iff hu).2 rfl)
    have hmodel : (-x).toModel = pack x.toModel.unpack.neg := rfl
    refine ⟨m, e, hm, ?_, rfl⟩
    rw [hmagnitude, hmodel, hu]
    exact unpack_pack_canonical (canonical_of_unpack hu) .positive

/-! ## A little -/

theorem unpack_little : ∃ h, (0.000000001 : Float).toModel.unpack
    = .finite .positive 4835703278458517 (-82) h :=
  ⟨_, unpack_of_decode (by decide) (by decide +kernel)⟩

theorem IsZero.lt_little (h : IsZero x) : x < (0.000000001 : Float) := by
  obtain ⟨s, hs⟩ := h
  obtain ⟨_, hlittle⟩ := unpack_little
  rw [float_lt_iff, hs, hlittle]
  refine ⟨_, _, rfl, rfl, ?_⟩
  exact Prod.Lex.toLex_lt_toLex.2 (Or.inl (by decide))

theorem HasValue.not_lt_little (h : HasValue x v) (hv : 1 / 1024 ≤ v) : ¬ x < (0.000000001 : Float) := by
  intro hlt
  obtain ⟨m, e, hm, hu, rfl⟩ := h
  obtain ⟨_, hlittle⟩ := unpack_little
  obtain ⟨p, q, hp, hq, hlt⟩ := float_lt_iff.1 hlt
  rw [hu] at hp
  rw [hlittle] at hq
  obtain rfl := Option.some.inj hp
  obtain rfl := Option.some.inj hq
  have he : e ≤ -82 := by
    rcases Prod.Lex.toLex_lt_toLex.1 hlt with hkind | ⟨-, hrest⟩
    · exact absurd hkind (lt_irrefl _)
    · rcases Prod.Lex.toLex_lt_toLex.1 hrest with hexponent | ⟨hexponent, -⟩
      · exact hexponent.le
      · exact hexponent.le
  have hsmall : (m : Rat) * 2 ^ e ≤ 2 ^ (53 : Int) * 2 ^ (-82 : Int) :=
    mul_le_mul (canonical_of_unpack hu).le_two_pow (zpow_le_zpow_right₀ (by norm_num) he) (two_zpow_pos e).le (by positivity)
  norm_num at hsmall hv
  linarith

/-! ## Whole numbers -/

theorem HasValue.pos (h : HasValue x v) : 0 < v := by
  obtain ⟨m, e, hm, -, rfl⟩ := h
  exact mul_pos (by exact_mod_cast hm) (two_zpow_pos e)

/-- The whole part of a whole number is the number. -/
theorem HasValue.wholePart_eq (h : HasValue x n) : wholePart x = n := by
  obtain ⟨m, e, hdecode, -, hvalue⟩ := h.exists_decode
  rw [wholePart, hdecode]
  simp only [Bool.false_eq_true, if_false]
  by_cases he : 0 ≤ e
  · obtain ⟨k, rfl⟩ := Int.eq_ofNat_of_zero_le he
    rw [zpow_natCast] at hvalue
    rw [if_pos he, Int.toNat_natCast]
    exact_mod_cast hvalue
  · obtain ⟨k, rfl⟩ : ∃ k : Nat, e = -k := ⟨(-e).toNat, by omega⟩
    rw [zpow_neg, zpow_natCast, ← div_eq_mul_inv, div_eq_iff (by positivity)] at hvalue
    have hm : m = n * 2 ^ k := by exact_mod_cast hvalue
    rw [if_neg he, neg_neg, Int.toNat_natCast, hm, Nat.mul_div_cancel _ (Nat.two_pow_pos k)]

/-- A number is rounded to the whole number next to it. -/
theorem HasValue.exists_round (h : HasValue x v) :
    ∃ n : Nat, |v - n| ≤ 1 / 2 ∧ wholePart (round x) = n ∧
      (n = 0 ∧ (round x).toModel.unpack = .zero .positive ∨ HasValue (round x) n) := by
  obtain ⟨m, e, hdecode, hm, rfl⟩ := h.exists_decode
  by_cases he : 0 ≤ e
  · have hround : round x = x := by
      rw [round, hdecode]
      exact if_pos he
    obtain ⟨k, rfl⟩ := Int.eq_ofNat_of_zero_le he
    have hvalue : (m : Rat) * 2 ^ (k : Int) = (m * 2 ^ k : Nat) := by
      rw [zpow_natCast]
      push_cast
      rfl
    rw [hvalue] at h ⊢
    rw [hround]
    exact ⟨m * 2 ^ k, by norm_num, h.wholePart_eq, Or.inr h⟩
  · obtain ⟨k, rfl⟩ : ∃ k : Nat, e = -(k + 1 : Nat) := ⟨(-e).toNat - 1, by omega⟩
    have hround : round x = ofWhole false ((m + 2 ^ k) / 2 ^ (k + 1)) := by
      rw [round, hdecode]
      simp only [if_neg he, neg_neg, Int.toNat_natCast, Nat.add_sub_cancel]
    have hless := rounded_lt (k := k) hm.high
    have hnear : |(m : Rat) * 2 ^ (-(k + 1 : Nat) : Int) - ((m + 2 ^ k) / 2 ^ (k + 1) : Nat)| ≤ 1 / 2 := by
      have hunit : (0 : Rat) < 2 ^ (k + 1) := by positivity
      have hlow := Nat.div_mul_le_self (m + 2 ^ k) (2 ^ (k + 1))
      have hhigh := Nat.lt_div_mul_add (Nat.two_pow_pos (k + 1)) (a := m + 2 ^ k)
      generalize (m + 2 ^ k) / 2 ^ (k + 1) = n at hlow hhigh
      have hlow : (n : Rat) * 2 ^ (k + 1) ≤ m + 2 ^ k := by exact_mod_cast hlow
      have hhigh : (m : Rat) + 2 ^ k < n * 2 ^ (k + 1) + 2 ^ (k + 1) := by exact_mod_cast hhigh
      rw [zpow_neg, zpow_natCast, ← div_eq_mul_inv, abs_le, neg_le_sub_iff_le_add, sub_le_iff_le_add,
        div_le_iff₀ hunit, ← sub_le_iff_le_add, le_div_iff₀ hunit]
      rw [pow_succ] at hlow hhigh ⊢
      constructor <;> linarith
    generalize (m + 2 ^ k) / 2 ^ (k + 1) = n at hround hless hnear
    refine ⟨n, hnear, ?_⟩
    rw [hround]
    rcases Nat.eq_zero_or_pos n with rfl | hpos
    · refine ⟨?_, Or.inl ⟨rfl, unpack_ofWhole_zero false⟩⟩
      have hdecode : decode (ofWhole false 0) = .finite false 0 leastExponent := by
        rw [decode_eq, unpack_ofWhole_zero]
        rfl
      rw [wholePart, hdecode]
      simp only [Bool.false_eq_true, if_false, Nat.zero_div, Nat.zero_mul, ite_self]
    · obtain ⟨m', e', hm', hu, -, -, hvalue⟩ := isWhole_ofWhole false hpos hless
      have hn : HasValue (ofWhole false n) n := ⟨m', e', hm', hu, hvalue⟩
      exact ⟨hn.wholePart_eq, Or.inr hn⟩

/-- A whole number is as far as nothing from the one it is rounded to. -/
theorem HasValue.round_of_whole (h : HasValue x n) :
    wholePart (round x) = n ∧ Scalar.magnitude (x - round x) < (0.000000001 : Float) := by
  obtain ⟨n', hnear, hpart, hround⟩ := h.exists_round
  have hn : n = n' := eq_of_abs_sub_lt_one (hnear.trans_lt (by norm_num))
  subst hn
  refine ⟨hpart, ?_⟩
  rcases hround with ⟨hzero, -⟩ | hround
  · have hpos := h.pos
    rw [hzero, Nat.cast_zero] at hpos
    exact absurd hpos (lt_irrefl _)
  · exact (isZero_magnitude (h.isZero_sub hround)).lt_little

/-- A number that is not nearly whole is farther from the one it is rounded to. -/
theorem HasValue.round_of_far (h : HasValue x v) (hfar : ∀ n : Nat, 1 / 512 ≤ |v - n|) :
    ¬ Scalar.magnitude (x - round x) < (0.000000001 : Float) := by
  obtain ⟨n, hnear, -, ⟨rfl, hround⟩ | hround⟩ := h.exists_round
  · have hsub : x - round x = x := by
      apply eq_of_toModel
      have hmodel : (x - round x).toModel
          = pack (UnpackedFloat.sub .binary64 x.toModel.unpack (round x).toModel.unpack) := rfl
      obtain ⟨m, e, hm, hu, -⟩ := h
      rw [hmodel, hround, toModel_eq_pack x, hu, unpack_pack_canonical (canonical_of_unpack hu)]
      rfl
    have hv := hfar 0
    rw [Nat.cast_zero, sub_zero, abs_of_pos h.pos] at hv
    rw [hsub, h.magnitude_eq]
    exact h.not_lt_little (by linarith)
  · have hrange : InRange |v - n| := by
      constructor
      · have hsmall : (2 : Rat) ^ (-1020 : Int) ≤ 2 ^ (-9 : Int) :=
          zpow_le_zpow_right₀ (by norm_num) (by norm_num)
        have hunit : (2 : Rat) ^ (-9 : Int) = 1 / 512 := by norm_num
        exact hsmall.trans (hunit ▸ hfar n)
      · have hhalf : (1 / 2 : Rat) ≤ 1 := by norm_num
        exact hnear.trans (hhalf.trans (one_le_zpow₀ (by norm_num) (by norm_num)))
    obtain ⟨s, hrounded⟩ := h.exists_isRounded_sub hround hrange
    obtain ⟨w, hw, hhalf⟩ := exists_hasValue_magnitude hrounded
    have hfar := hfar n
    exact hw.not_lt_little (by linarith)

end Binary64
end Number
end SpacerTurning
