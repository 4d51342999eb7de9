import SpacerTurning.Part.Refusal
import SpacerTurning.Proofs.Number.Machine

/-!
Lengths as machine numbers.

A length is a finite number above zero.  In inches it is still finite, but it may have become zero; and
what is added to it or taken off it leaves a number unless that was none itself.
-/

namespace SpacerTurning
namespace Number
namespace Binary64

open Float.Model Float.Model.UnpackedFloat

/-! ## Numbers that stay finite -/

theorem mantissa_shiftRight (em : ExtendedMantissa) (n : Nat) :
    (em >>> n).mantissa = em.mantissa / 2 ^ n := by
  induction n with
  | zero => exact (Nat.div_one _).symm
  | succ n ih =>
    change (em >>> n).mantissa / 2 = _
    rw [ih, Nat.div_div_eq_div_mul, pow_succ]

theorem roundedMantissa_le (em : ExtendedMantissa) : em.roundedMantissa ≤ em.mantissa + 1 := by
  unfold ExtendedMantissa.roundedMantissa
  cases em.accuracy with
  | exact => exact Nat.le_succ _
  | inexact order =>
    cases order with
    | lt | gt => simp [Accuracy.roundToNearestEven]
    | eq =>
      simp only [Accuracy.roundToNearestEven]
      omega

/-- A shift leaves 53 bits at most, and ends at the exponent that this takes. -/
theorem shiftToTargetExponent_bounds (m : Nat) (e : Int) (accuracy : Accuracy) :
    (shiftToTargetExponent .binary64 m e accuracy).1.mantissa < 2 ^ 53 ∧
      (shiftToTargetExponent .binary64 m e accuracy).2 = max e (max (m.log2 + e - 52) (-1074)) := by
  have htarget : Format.binary64.targetExponent (totalExponent m e)
      = max (m.log2 + e - 52) (-1074) := by
    simp only [Format.targetExponent, totalExponent, Format.mantissaBits, Format.minExponent]
    norm_num
    omega
  simp only [shiftToTargetExponent, shiftToExponent, htarget, mantissa_shiftRight,
    mantissa_ofMantissaAndAccuracy]
  constructor
  · rw [Nat.div_lt_iff_lt_mul (by positivity), ← pow_add]
    exact lt_of_lt_of_le Nat.lt_log2_self (Nat.pow_le_pow_right (by decide) (by omega))
  · omega

theorem isFinite_unpack_pack {m : Nat} {e : Int} (s : Sign) (hm : 0 < m) (he : e ≤ 971) :
    (pack (.finite s m e hm)).unpack.isFinite = true := by
  have hparts (exponent : BitVec 11) (mantissa : BitVec 52) (h : exponent ≠ -1#11) :
      (ofParts s exponent mantissa).isFinite = true := by
    unfold ofParts
    rw [if_neg h]
    split
    · split <;> rfl
    · rfl
  obtain ⟨b, hexponent, hb⟩ : ∃ b : Nat, (e + ((2 : Nat) ^ 10 - 1 : Nat) + (52 : Nat)).toNat = b ∧
      b ≤ 2046 := by
    refine ⟨_, rfl, ?_⟩
    push_cast
    omega
  rw [unpack_pack, UnpackedFloat.pack]
  simp only [Format.exponentBias, Format.mantissaBits, hexponent]
  rw [if_neg (by omega)]
  split
  · rw [unpack_packComponents]
    refine hparts _ _ fun h => ?_
    have := congrArg BitVec.toNat h
    simp at this
    omega
  · rw [unpack_packComponents]
    exact hparts _ _ (by decide)

/-- Rounding raises the exponent by one at most, when the mantissa becomes a power of two. -/
theorem isFinite_roundWithAccuracy {m : Nat} {e : Int} (s : Sign) (accuracy : Accuracy)
    (he : e ≤ 970) (hm : m.log2 + e ≤ 1022) :
    (pack (roundWithAccuracy .binary64 s m e accuracy)).unpack.isFinite = true := by
  obtain ⟨hfirst, hexponent⟩ := shiftToTargetExponent_bounds m e accuracy
  unfold roundWithAccuracy
  dsimp only
  generalize shiftToTargetExponent .binary64 m e accuracy = shifted at hfirst hexponent
  have hrounded := roundedMantissa_le shifted.1
  have hlog : shifted.1.roundedMantissa.log2 ≤ 53 := by
    by_cases hzero : shifted.1.roundedMantissa = 0
    · rw [hzero]
      decide
    · exact Nat.lt_succ_iff.1 ((Nat.log2_lt hzero).2 (by omega))
  obtain ⟨-, hsecond⟩ := shiftToTargetExponent_bounds shifted.1.roundedMantissa shifted.2 .exact
  split
  · rw [unpack_pack_zero]
    rfl
  · exact isFinite_unpack_pack s _ (by omega)

/-- The quotient of two numbers, one of which is not too much larger, is finite. -/
theorem isFinite_div {s s' : Sign} {m m' : Nat} {e e' : Int} {hm : 0 < m} {hm' : 0 < m'}
    (h : (m.log2 : Int) + e ≤ m'.log2 + e' + 1022) :
    (pack (UnpackedFloat.div .binary64 (.finite s m e hm) (.finite s' m' e' hm'))).unpack.isFinite
      = true := by
  obtain ⟨d, hd⟩ : ∃ d : Int, d = min (e - e') (Format.binary64.targetExponent
      (totalExponent m e - totalExponent m' e')) := ⟨_, rfl⟩
  obtain ⟨j, hj⟩ : ∃ j : Nat, j = (e - e' - d).toNat := ⟨_, rfl⟩
  have hdiv : UnpackedFloat.div .binary64 (.finite s m e hm) (.finite s' m' e' hm')
      = roundWithAccuracy .binary64 (s / s') (m * 2 ^ j / m') d
        (accuracyOfFraction (m * 2 ^ j % m') m') := by
    simp only [UnpackedFloat.div, divCore, ← hd, ← hj, Nat.shiftLeft_eq]
  have hlow : d ≤ e - e' ∧ d ≤ 970 := by
    simp only [Format.targetExponent, totalExponent, Format.mantissaBits, Format.minExponent] at hd
    norm_num at hd
    omega
  have hlog : ((m * 2 ^ j / m').log2 : Int) + d ≤ 1022 := by
    by_cases hzero : m * 2 ^ j / m' = 0
    · rw [hzero, Nat.log2_zero]
      omega
    · -- The lengths of quotient and divisor add up to the length of the dividend at most.
      have hpow : 2 ^ ((m * 2 ^ j / m').log2 + m'.log2) < 2 ^ (m.log2 + 1 + j) := by
        calc 2 ^ ((m * 2 ^ j / m').log2 + m'.log2)
            = 2 ^ (m * 2 ^ j / m').log2 * 2 ^ m'.log2 := pow_add ..
          _ ≤ m * 2 ^ j / m' * m' :=
            Nat.mul_le_mul (Nat.log2_self_le hzero) (Nat.log2_self_le hm'.ne')
          _ ≤ m * 2 ^ j := Nat.div_mul_le_self _ _
          _ < 2 ^ (m.log2 + 1) * 2 ^ j := Nat.mul_lt_mul_of_pos_right Nat.lt_log2_self (by positivity)
          _ = 2 ^ (m.log2 + 1 + j) := (pow_add ..).symm
      have := (Nat.pow_lt_pow_iff_right (by decide)).1 hpow
      omega
  rw [hdiv]
  exact isFinite_roundWithAccuracy _ _ hlow.2 hlog

/-! ## Numbers in order -/

theorem isNaN_eq (x : Float) : x.isNaN = (rank? x.toModel.unpack).isNone := by
  change x.toModel.unpack.isNaN = _
  rcases x.toModel.unpack with (_ | _) | _ | _ | ⟨_ | _, m, e⟩ <;> rfl

theorem isNaN_eq_signOf? (x : Float) : x.isNaN = (signOf? x.toModel.unpack).isNone := by
  change x.toModel.unpack.isNaN = _
  rcases x.toModel.unpack with _ | _ | _ | _ <;> rfl

theorem isNaN_of_isFinite {x : Float} (h : x.isFinite = true) : x.isNaN = false := by
  obtain ⟨p, hp⟩ := exists_rank?_of_isFinite h
  rw [isNaN_eq, hp]
  rfl

/-- Of two numbers one is smaller or the other is not larger. -/
theorem float_lt_iff_not_le {x y : Float} (hx : x.isNaN = false) (hy : y.isNaN = false) :
    x < y ↔ ¬ y ≤ x := by
  rw [isNaN_eq, Option.isNone_eq_false_iff] at hx hy
  obtain ⟨p, hp⟩ := Option.isSome_iff_exists.1 hx
  obtain ⟨q, hq⟩ := Option.isSome_iff_exists.1 hy
  simp [float_lt_iff, float_le_iff, hp, hq]

theorem isNaN_of_lt {x y : Float} (h : x < y) : x.isNaN = false ∧ y.isNaN = false := by
  obtain ⟨p, q, hp, hq, -⟩ := float_lt_iff.1 h
  rw [isNaN_eq, isNaN_eq, hp, hq]
  exact ⟨rfl, rfl⟩

theorem isNaN_of_le {x y : Float} (h : x ≤ y) : x.isNaN = false ∧ y.isNaN = false := by
  obtain ⟨p, q, hp, hq, -⟩ := float_le_iff.1 h
  rw [isNaN_eq, isNaN_eq, hp, hq]
  exact ⟨rfl, rfl⟩

theorem lt_iff_isNaN {x y : Float} (hy : y.isNaN = false) (h : ¬ y ≤ x) : x < y ↔ x.isNaN = false :=
  ⟨fun hlt => (isNaN_of_lt hlt).1, fun hx => (float_lt_iff_not_le hx hy).2 h⟩

theorem isZero_zero : IsZero (0 : Float) := ⟨.positive, unpack_zero⟩

/-- What lies between zero and a finite number is finite. -/
theorem isFinite_of_lt {x y : Float} (hpos : 0 < x) (hlt : x < y) (hy : y.isFinite = true) :
    x.isFinite = true := by
  obtain ⟨o, p, ho, hp, hop⟩ := float_lt_iff.1 hpos
  obtain ⟨p', q, hp', hq, hpq⟩ := float_lt_iff.1 hlt
  obtain rfl : p = p' := Option.some.inj (hp.symm.trans hp')
  have hzero : rank? (0 : Float).toModel.unpack = some (toLex (0, toLex (0, 0))) := by
    obtain ⟨s, hs⟩ := isZero_zero
    rw [hs]
    rfl
  obtain rfl : toLex (0, toLex (0, 0)) = o := Option.some.inj (hzero.symm.trans ho)
  have hkind : (ofLex q).1.natAbs < 2 :=
    of_decide_eq_true ((isFinite_of_rank? hq).symm.trans hy)
  have hlow : 0 ≤ (ofLex p).1 := by
    rcases Prod.Lex.lt_iff.1 hop with h | h
    · exact h.le
    · exact h.1.le
  have hhigh : (ofLex p).1 ≤ (ofLex q).1 := by
    rcases Prod.Lex.lt_iff.1 hpq with h | h
    · exact h.le
    · exact h.1.le
  exact (isFinite_of_rank? hp).trans (decide_eq_true (by omega))

/-! ## Lengths -/

theorem zero_lt_iff {x : Float} (hx : x.isNaN = false) : 0 < x ↔ ¬ x ≤ (Scalar.ofNat 0 : Float) := by
  have hzero : (Scalar.ofNat 0 : Float).isNaN = false := by
    obtain ⟨s, hs⟩ := isZero_ofNat_zero
    rw [isNaN_eq, hs]
    rfl
  rw [float_lt_congr_left (beq_of_isZero isZero_zero isZero_ofNat_zero),
    float_lt_iff_not_le hzero hx]

theorem isLength_iff {x : Float} : isLength x = true ↔ x.isFinite = true ∧ 0 < x := by
  unfold isLength
  rw [Bool.and_eq_true, Bool.not_eq_true', decide_eq_false_iff_not]
  exact and_congr_right fun hfinite => (zero_lt_iff (isNaN_of_isFinite hfinite)).symm

/-- What is above zero and not at or above a length is a length itself. -/
theorem isLength_of_not_le {x y : Float} (hpos : 0 < x) (hle : ¬ y ≤ x) (hy : isLength y = true) :
    isLength x = true := by
  have hfinite := (isLength_iff.1 hy).1
  have hlt := (float_lt_iff_not_le (isNaN_of_lt hpos).2 (isNaN_of_isFinite hfinite)).2 hle
  exact isLength_iff.2 ⟨isFinite_of_lt hpos hlt hfinite, hpos⟩

theorem unpack_millimetresPerInch : ∃ h, (millimetresPerInch : Float).toModel.unpack
    = .finite .positive 7149464408450662 (-48) h :=
  ⟨_, unpack_of_decode (by decide) (by decide +kernel)⟩

theorem unpack_toInches (x : Float) : ∃ h, (toInches x).toModel = pack (UnpackedFloat.div .binary64
    x.toModel.unpack (.finite .positive 7149464408450662 (-48) h)) := by
  obtain ⟨h, hunit⟩ := unpack_millimetresPerInch
  refine ⟨h, ?_⟩
  rw [← hunit]
  rfl

theorem isNaN_toInches (x : Float) : (toInches x).isNaN = x.isNaN := by
  obtain ⟨h, hmodel⟩ := unpack_toInches x
  rw [isNaN_eq_signOf?, isNaN_eq_signOf?, hmodel, signOf?_unpack_pack, signOf?_div_positive]

theorem isFinite_toInches {x : Float} (hx : x.isFinite = true) : (toInches x).isFinite = true := by
  obtain ⟨h, hmodel⟩ := unpack_toInches x
  change (toInches x).toModel.unpack.isFinite = true
  rw [hmodel]
  have hx : x.toModel.unpack.isFinite = true := hx
  cases hu : x.toModel.unpack with
  | notANumber =>
    rw [hu] at hx
    cases hx
  | infinity s =>
    rw [hu] at hx
    cases hx
  | zero s =>
    rw [UnpackedFloat.div, unpack_pack_zero]
    rfl
  | finite s m e hm =>
    obtain ⟨hm', -, he, -⟩ := bounds_of_unpack hu
    have hlog : m.log2 < 53 := (Nat.log2_lt hm.ne').2 (by rw [leadingBit_eq] at hm'; omega)
    have hunit : (7149464408450662 : Nat).log2 = 52 := by decide
    exact isFinite_div (by omega)

/-! ## Fits -/

theorem signOf?_normalize (m e : Int) (s : Sign) :
    (signOf? (UnpackedFloat.normalize .binary64 m e s)).isNone = false := by
  unfold UnpackedFloat.normalize UnpackedFloat.round
  split
  · rw [signOf?_roundWithAccuracy]
    rfl
  · rfl
  · rw [signOf?_roundWithAccuracy]
    rfl

theorem signOf?_add {u : UnpackedFloat} (v : UnpackedFloat) (hu : u.isFinite = true) :
    (signOf? (UnpackedFloat.add .binary64 u v)).isNone = (signOf? v).isNone := by
  cases u with
  | notANumber => cases hu
  | infinity s => cases hu
  | zero s =>
    cases v with
    | notANumber => rfl
    | infinity t => rfl
    | zero t => cases s <;> cases t <;> rfl
    | finite t n f hn => rfl
  | finite s m e hm =>
    cases v with
    | notANumber => rfl
    | infinity t => rfl
    | zero t => rfl
    | finite t n f hn => exact signOf?_normalize _ _ _

theorem signOf?_neg (u : UnpackedFloat) : (signOf? u.neg).isNone = (signOf? u).isNone := by
  cases u <;> rfl

theorem sign_neg_apply (s : Sign) (n : Nat) : (-s).apply n = -s.apply n := by
  cases s with
  | positive => rfl
  | negative => exact (neg_neg (n : Int)).symm

/-- A difference is the sum with the opposite. -/
theorem sub_eq_add (u v : UnpackedFloat) :
    UnpackedFloat.sub .binary64 u v = UnpackedFloat.add .binary64 u v.neg := by
  cases u with
  | notANumber => rfl
  | infinity s => cases v <;> rfl
  | zero s => cases v <;> rfl
  | finite s m e hm =>
    cases v with
    | notANumber => rfl
    | infinity t => rfl
    | zero t => rfl
    | finite t n f hn =>
      simp only [UnpackedFloat.sub, UnpackedFloat.add, UnpackedFloat.neg, decreaseExponent,
        sign_neg_apply, Int.sub_eq_add_neg]

/-- A fit that is added to a finite number leaves a number, unless the fit is none. -/
theorem isNaN_add {x : Float} (y : Float) (hx : x.isFinite = true) : (x + y).isNaN = y.isNaN := by
  have hmodel : (x + y).toModel
      = pack (UnpackedFloat.add .binary64 x.toModel.unpack y.toModel.unpack) := rfl
  rw [isNaN_eq_signOf?, isNaN_eq_signOf?, hmodel, signOf?_unpack_pack]
  exact signOf?_add _ hx

/-- So does one that is taken off. -/
theorem isNaN_sub {x : Float} (y : Float) (hx : x.isFinite = true) : (x - y).isNaN = y.isNaN := by
  have hmodel : (x - y).toModel
      = pack (UnpackedFloat.sub .binary64 x.toModel.unpack y.toModel.unpack) := rfl
  rw [isNaN_eq_signOf?, isNaN_eq_signOf?, hmodel, signOf?_unpack_pack, sub_eq_add,
    ← signOf?_neg y.toModel.unpack]
  exact signOf?_add _ hx

end Binary64
end Number
end SpacerTurning
