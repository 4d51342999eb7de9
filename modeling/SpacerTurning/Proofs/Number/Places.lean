import SpacerTurning.Proofs.Number.Arithmetic
import SpacerTurning.Proofs.Number.Order

/-!
Machine numbers at four places.

A machine number that is rounded to four places is the machine number nearest to some ten-thousandths,
unless it is zero or no finite number, and it keeps its sign.
-/

namespace SpacerTurning
namespace Number
namespace Binary64

open Float.Model Float.Model.UnpackedFloat

/-! ## Signs -/

theorem mul_positive (s : Sign) : s * Sign.positive = s := by
  cases s <;> rfl

theorem div_positive (s : Sign) : s / Sign.positive = s := by
  cases s <;> rfl

theorem signOf_isNegative (s : Sign) : signOf (isNegative s) = s := by
  cases s <;> rfl

theorem signOf?_roundWithAccuracy (s : Sign) (m : Nat) (e : Int) (accuracy : Accuracy) :
    signOf? (roundWithAccuracy .binary64 s m e accuracy) = some s := by
  unfold roundWithAccuracy
  dsimp only
  split <;> rfl

theorem signOf?_mul_positive (u : UnpackedFloat) {m : Nat} {e : Int} (hm : 0 < m) :
    signOf? (UnpackedFloat.mul .binary64 u (.finite .positive m e hm)) = signOf? u := by
  cases u with
  | notANumber => rfl
  | infinity s => exact congrArg some (mul_positive s)
  | zero s => exact congrArg some (mul_positive s)
  | finite s m' e' =>
    rw [UnpackedFloat.mul, signOf?_roundWithAccuracy, mul_positive]
    rfl

theorem signOf?_div_positive (u : UnpackedFloat) {m : Nat} {e : Int} (hm : 0 < m) :
    signOf? (UnpackedFloat.div .binary64 u (.finite .positive m e hm)) = signOf? u := by
  cases u with
  | notANumber => rfl
  | infinity s => exact congrArg some (div_positive s)
  | zero s => exact congrArg some (div_positive s)
  | finite s m' e' =>
    rw [UnpackedFloat.div, signOf?_roundWithAccuracy, div_positive]
    rfl

/-! ## Whole numbers -/

theorem unpack_zero : (Float.ofNat 0).toModel.unpack = .zero .positive := by
  have hdecode : decode (Float.ofNat 0) = .finite false 0 leastExponent := by decide +kernel
  rw [decode_eq] at hdecode
  generalize (Float.ofNat 0).toModel.unpack = u at hdecode
  rcases u with _ | _ | (_ | _) | ⟨_, m, e, hm⟩
  · cases hdecode
  · cases hdecode
  · cases hdecode
  · rfl
  · injection hdecode with _ hzero
    omega

theorem unpack_ofWhole_zero (negative : Bool) :
    (ofWhole negative 0).toModel.unpack = .zero (signOf negative) := by
  cases negative with
  | false => exact unpack_zero
  | true =>
    have hmodel : (ofWhole true 0).toModel = pack (Float.ofNat 0).toModel.unpack.neg := rfl
    rw [hmodel, unpack_zero]
    exact unpack_pack_zero .negative

theorem isWhole_ofWhole (negative : Bool) {n : Nat} (hpos : 0 < n) (hn : n < 2 ^ 53) :
    IsWhole (ofWhole negative n).toModel.unpack (signOf negative) n := by
  obtain ⟨m, e, hm, -, hlow, hhigh, hvalue⟩ := isWhole_toFloat hpos hn
  have hrange : InRange n := by
    constructor
    · have hone : (1 : Rat) ≤ n := by exact_mod_cast hpos
      exact (zpow_le_one_of_nonpos₀ (by norm_num) (by norm_num)).trans hone
    · have hless : (n : Rat) ≤ (2 ^ 53 : Nat) := by exact_mod_cast hn.le
      rw [Nat.cast_pow] at hless
      exact hless.trans (zpow_le_zpow_right₀ (m := (53 : Nat)) (by norm_num) (by norm_num))
  have hself := IsNearest.self hlow hhigh e
  rw [hvalue] at hself
  have hexact {u : UnpackedFloat} {s : Sign} (h : IsRounded u s n) : IsWhole u s n := by
    obtain ⟨m', e', hm', hu, hnearest⟩ := h
    obtain ⟨rfl, rfl⟩ := hself.unique hnearest
    exact ⟨m, e, hm', hu, hlow, hhigh, hvalue⟩
  have hnat := ofScientific_false hpos hrange
  cases negative with
  | false => exact hexact hnat
  | true => exact hexact (hnat.neg hrange)

theorem rounded_lt {m k : Nat} (hm : m < 2 * leadingBit) : (m + 2 ^ k) / 2 ^ (k + 1) < 2 ^ 53 := by
  have hpow : 2 ^ (k + 1) = 2 * 2 ^ k := pow_succ' 2 k
  have hpos := Nat.two_pow_pos k
  rw [Nat.div_lt_iff_lt_mul (Nat.two_pow_pos _), hpow]
  generalize 2 ^ k = unit at hpos ⊢
  rw [leadingBit] at hm
  omega

theorem round_of_unpack {z : Float} {s : Sign} {m : Nat} {e : Int}
    (h : decode z = .finite (isNegative s) m e) (hm : m < 2 * leadingBit) (he : e < 0) :
    ∃ n, n < 2 ^ 53 ∧ round z = ofWhole (isNegative s) n := by
  obtain ⟨k, hk⟩ : ∃ k : Nat, (-e).toNat = k + 1 := ⟨(-e).toNat - 1, by omega⟩
  refine ⟨_, rounded_lt (k := k) hm, ?_⟩
  rw [round, h]
  simp only [if_neg (not_le.2 he), hk, Nat.add_sub_cancel]

theorem signOf?_round (z : Float) :
    signOf? (round z).toModel.unpack = signOf? z.toModel.unpack := by
  have hwhole (negative : Bool) {n : Nat} (hn : n < 2 ^ 53) :
      signOf? (ofWhole negative n).toModel.unpack = some (signOf negative) := by
    rcases Nat.eq_zero_or_pos n with rfl | hpos
    · rw [unpack_ofWhole_zero]
      rfl
    · obtain ⟨m, e, hm, hu, -⟩ := isWhole_ofWhole negative hpos hn
      rw [hu]
      rfl
  have hdecode := decode_eq z
  cases hu : z.toModel.unpack with
  | notANumber =>
    rw [hu] at hdecode
    rw [round, hdecode]
    exact congrArg signOf? hu
  | infinity s =>
    rw [hu] at hdecode
    rw [round, hdecode]
    exact congrArg signOf? hu
  | zero s =>
    rw [hu] at hdecode
    obtain ⟨n, hn, hround⟩ := round_of_unpack hdecode (by decide) (by decide)
    rw [hround, hwhole _ hn, signOf_isNegative]
    rfl
  | finite s m e hm =>
    rw [hu] at hdecode
    rcases le_or_gt 0 e with he | he
    · rw [round, hdecode]
      simp only [ofUnpacked, if_pos he]
      exact congrArg signOf? hu
    · obtain ⟨n, hn, hround⟩ := round_of_unpack hdecode (bounds_of_unpack hu).1 he
      rw [hround, hwhole _ hn, signOf_isNegative]
      rfl

/-- A rounded number is whole, unless it is zero or not finite. -/
theorem round_cases (z : Float) : (round z).toModel.unpack.isFinite = false ∨ IsZero (round z) ∨
    ∃ s n, 0 < n ∧ IsWhole (round z).toModel.unpack s n := by
  have hwhole (negative : Bool) {n : Nat} (hn : n < 2 ^ 53) : IsZero (ofWhole negative n) ∨
      ∃ s n', 0 < n' ∧ IsWhole (ofWhole negative n).toModel.unpack s n' := by
    rcases Nat.eq_zero_or_pos n with rfl | hpos
    · exact Or.inl ⟨_, unpack_ofWhole_zero negative⟩
    · exact Or.inr ⟨_, n, hpos, isWhole_ofWhole negative hpos hn⟩
  have hdecode := decode_eq z
  cases hu : z.toModel.unpack with
  | notANumber =>
    rw [hu] at hdecode
    rw [round, hdecode]
    exact Or.inl (congrArg UnpackedFloat.isFinite hu)
  | infinity s =>
    rw [hu] at hdecode
    rw [round, hdecode]
    exact Or.inl (congrArg UnpackedFloat.isFinite hu)
  | zero s =>
    rw [hu] at hdecode
    obtain ⟨n, hn, hround⟩ := round_of_unpack hdecode (by decide) (by decide)
    rw [hround]
    exact Or.inr (hwhole _ hn)
  | finite s m e hm =>
    rw [hu] at hdecode
    obtain ⟨hhigh, -, -, hsmall⟩ := bounds_of_unpack hu
    rcases le_or_gt 0 e with he | he
    · have hlow : leadingBit ≤ m := by
        by_contra hless
        have := hsmall (not_le.1 hless)
        omega
      have hround : round z = z := by
        rw [round, hdecode]
        simp only [ofUnpacked, if_pos he]
      rw [hround]
      refine Or.inr (Or.inr ⟨s, m * 2 ^ e.toNat, Nat.mul_pos hm (Nat.two_pow_pos _),
        m, e, hm, hu, hlow, hhigh, ?_⟩)
      have hexponent : e = (e.toNat : Int) := by omega
      conv => lhs; rw [hexponent]
      push_cast
      rw [zpow_natCast]
    · obtain ⟨n, hn, hround⟩ := round_of_unpack hdecode hhigh he
      rw [hround]
      exact Or.inr (hwhole _ hn)

/-! ## Four places -/

theorem inRange_tenThousandths {n : Nat} (hpos : 0 < n)
    (hhigh : (n : Rat) / 10 ^ 4 ≤ 2 ^ (1020 : Int)) : InRange (n / 10 ^ 4) := by
  have hone : (1 : Rat) ≤ n := by exact_mod_cast hpos
  have hsmall : (2 : Rat) ^ (-1020 : Int) ≤ 2 ^ (-14 : Int) :=
    zpow_le_zpow_right₀ (by norm_num) (by norm_num)
  have hten : (2 : Rat) ^ (-14 : Int) ≤ 1 / 10 ^ 4 := by norm_num
  exact ⟨(hsmall.trans hten).trans (div_le_div_of_nonneg_right hone (by norm_num)), hhigh⟩

theorem le_of_isWhole {x : Float} {s : Sign} {n : Nat} (h : IsWhole x.toModel.unpack s n) :
    (n : Rat) / 10 ^ 4 ≤ 2 ^ (1011 : Int) := by
  obtain ⟨m, e, hm, hu, -, hhigh, hvalue⟩ := h
  obtain ⟨-, -, he, -⟩ := bounds_of_unpack hu
  have hmantissa : (m : Rat) ≤ 2 ^ (53 : Int) := by
    have : m ≤ 2 ^ 53 := hhigh.le
    exact_mod_cast this
  have hten : (2 : Rat) ^ (13 : Int) ≤ 10 ^ 4 := by norm_num
  rw [div_le_iff₀ (by norm_num), ← hvalue]
  calc (m : Rat) * 2 ^ e ≤ 2 ^ (53 : Int) * 2 ^ (971 : Int) :=
        mul_le_mul hmantissa (zpow_le_zpow_right₀ (by norm_num) he) (two_zpow_pos e).le
          (by positivity)
    _ = 2 ^ (1011 : Int) * 2 ^ (13 : Int) := by
        rw [← zpow_add₀ (by norm_num), ← zpow_add₀ (by norm_num)]
        norm_num
    _ ≤ 2 ^ (1011 : Int) * 10 ^ 4 := mul_le_mul_of_nonneg_left hten (by positivity)

theorem isWhole_tenThousand :
    IsWhole (10000 : Float).toModel.unpack .positive 10000 :=
  isWhole_of_decode (m := 10000 * 2 ^ 39) (e := -39) (by decide +kernel) (by decide) (by decide)
    (by norm_num)

theorem round4_eq (x : Float) : Scalar.round4 x = round (x * 10000) / 10000 := rfl

theorem signOf?_round4 (x : Float) :
    signOf? (Scalar.round4 x : Float).toModel.unpack = signOf? x.toModel.unpack := by
  obtain ⟨m, e, hm, hten, -⟩ := isWhole_tenThousand
  have hmul : (x * 10000).toModel
      = pack (UnpackedFloat.mul .binary64 x.toModel.unpack (10000 : Float).toModel.unpack) := rfl
  have hdiv : (round (x * 10000) / 10000).toModel = pack (UnpackedFloat.div .binary64
      (round (x * 10000)).toModel.unpack (10000 : Float).toModel.unpack) := rfl
  rw [round4_eq, hdiv, signOf?_unpack_pack, hten, signOf?_div_positive, signOf?_round, hmul,
    signOf?_unpack_pack, hten, signOf?_mul_positive]

/-- A number at four places is nearest to some ten-thousandths, unless it is zero or not finite. -/
theorem round4_cases (x : Float) :
    (Scalar.round4 x : Float).toModel.unpack.isFinite = false ∨ IsZero (Scalar.round4 x) ∨
      ∃ s, ∃ n : Nat, 0 < n ∧ (n : Rat) / 10 ^ 4 ≤ 2 ^ (1011 : Int) ∧
        IsRounded (Scalar.round4 x : Float).toModel.unpack s (n / 10 ^ 4) := by
  obtain ⟨m, e, hm, hten, -, -, hvalue⟩ := isWhole_tenThousand
  rw [round4_eq]
  generalize hwhole : round (x * 10000) = whole
  have hdiv : (whole / 10000).toModel = pack (UnpackedFloat.div .binary64
      whole.toModel.unpack (10000 : Float).toModel.unpack) := rfl
  rcases hwhole ▸ round_cases (x * 10000) with hspecial | ⟨s, hzero⟩ | ⟨s, n, hpos, hn⟩
  · refine Or.inl ?_
    rw [hdiv, hten]
    generalize whole.toModel.unpack = u at hspecial
    rcases u with s | _ | _ | _
    · rw [UnpackedFloat.div, unpack_pack_infinity]
      rfl
    · rw [UnpackedFloat.div, unpack_pack_notANumber]
      rfl
    · cases hspecial
    · cases hspecial
  · refine Or.inr (Or.inl ⟨s, ?_⟩)
    rw [hdiv, hten, hzero, UnpackedFloat.div, unpack_pack_zero, div_positive]
  · have hhigh := le_of_isWhole hn
    have hrange := inRange_tenThousandths hpos
      (hhigh.trans (zpow_le_zpow_right₀ (by norm_num) (by norm_num)))
    obtain ⟨m', e', hm', hu, -, -, hvalue'⟩ := hn
    refine Or.inr (Or.inr ⟨s / .positive, n, hpos, hhigh, ?_⟩)
    exact isRounded_div hu hten (by rw [hvalue, hvalue']; norm_num) hrange

end Binary64
end Number
end SpacerTurning
