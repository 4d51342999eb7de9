import SpacerTurning.Proofs.Number.Rounding

/-!
Machine numbers and their bits.

Packing a number into bits and unpacking it gives the number back if it has all its bits and is in
range, and keeps the sign in any case.  `decode` reads the same number off the bits.
-/

namespace SpacerTurning
namespace Number
namespace Binary64

open Float.Model Float.Model.UnpackedFloat

theorem toNat_one_append (mantissa : BitVec 52) :
    (1#1 ++ mantissa).toNat = leadingBit + mantissa.toNat := by
  rw [BitVec.toNat_append, ← Nat.shiftLeft_add_eq_or_of_lt mantissa.isLt, Nat.shiftLeft_eq]
  rfl

theorem toNat_ofNat_pos {mantissa : BitVec 52} (h : mantissa ≠ 0#52) : 0 < mantissa.toNat :=
  Nat.pos_of_ne_zero fun hzero => h (BitVec.eq_of_toNat_eq hzero)

/-- The number that a sign, an exponent and a mantissa of bits stand for. -/
def ofParts (s : Sign) (exponent : BitVec 11) (mantissa : BitVec 52) : UnpackedFloat :=
  if exponent = -1#11 then (if mantissa = 0#52 then .infinity s else .notANumber)
  else if exponent = 0#11 then
    if h : mantissa = 0#52 then .zero s else .finite s mantissa.toNat (-1074) (toNat_ofNat_pos h)
  else .finite s (leadingBit + mantissa.toNat) (exponent.toNat - 1075)
    (Nat.add_pos_left (by decide) _)

theorem unpack_eq_ofParts (b : BitVec 64) :
    UnpackedFloat.unpack .binary64 b = ofParts (Sign.ofBitVec (@unpackSign .binary64 b))
      (@unpackExponent .binary64 b) (@unpackMantissa .binary64 b) := by
  rw [UnpackedFloat.unpack, ofParts]
  simp only [toNat_one_append]
  by_cases hones : @unpackExponent .binary64 b = -1#11
  · simp [hones]
  · by_cases hzero : @unpackExponent .binary64 b = 0#11 <;>
      simp [hzero, Format.exponentBias]

theorem unpack_packComponents (s : Sign) (exponent : BitVec 11) (mantissa : BitVec 52) :
    UnpackedFloat.unpack .binary64 (packComponents .binary64 s exponent mantissa)
      = ofParts s exponent mantissa := by
  rw [unpack_eq_ofParts, unpackSign_packComponents, Sign.ofBitVec_toBitVec]
  congr 1
  · exact unpackExponent_packComponents
  · exact unpackMantissa_packComponents

/-- The sign of a number; there is none for no number. -/
def signOf? : UnpackedFloat → Option Sign
  | .infinity s => some s
  | .notANumber => none
  | .zero s => some s
  | .finite s _ _ _ => some s

theorem unpack_pack (u : UnpackedFloat) :
    (pack u).unpack = UnpackedFloat.unpack .binary64 (UnpackedFloat.pack .binary64 u) := rfl

@[simp] theorem unpack_pack_notANumber : (pack .notANumber).unpack = .notANumber := by
  rw [unpack_pack, UnpackedFloat.pack, unpack_packedNaN]

@[simp] theorem unpack_pack_infinity (s : Sign) :
    (pack (.infinity s)).unpack = .infinity s := by
  rw [unpack_pack, UnpackedFloat.pack, packedInfinity, unpack_packComponents]
  rfl

@[simp] theorem unpack_pack_zero (s : Sign) : (pack (.zero s)).unpack = .zero s := by
  rw [unpack_pack, UnpackedFloat.pack, unpack_packedZero]

/-- A number with all its bits comes back. -/
theorem unpack_pack_finite {m : Nat} {e : Int} (s : Sign) (hm : 0 < m) (hlow : leadingBit ≤ m)
    (hhigh : m < 2 * leadingBit) (he : -1074 ≤ e ∧ e ≤ 971) :
    (pack (.finite s m e hm)).unpack = .finite s m e hm := by
  have hlog := log2_eq hlow hhigh
  have hbiased : ∃ b : Nat, (b : Int) = e + 1075 ∧ 1 ≤ b ∧ b ≤ 2046 :=
    ⟨(e + 1075).toNat, by omega, by omega, by omega⟩
  obtain ⟨b, hb, hb1, hb2⟩ := hbiased
  have hexponent : (e + ((2 : Nat) ^ 10 - 1 : Nat) + (52 : Nat)).toNat = b := by
    push_cast
    omega
  rw [unpack_pack, UnpackedFloat.pack]
  simp only [Format.exponentBias, Format.mantissaBits, hlog, hexponent]
  rw [if_neg (by omega), if_pos (by decide), unpack_packComponents, ofParts]
  have hones : BitVec.ofNat 11 b ≠ -1#11 := fun h => by
    have := congrArg BitVec.toNat h
    simp at this
    omega
  have hzero : BitVec.ofNat 11 b ≠ 0#11 := fun h => by
    have := congrArg BitVec.toNat h
    simp at this
    omega
  rw [if_neg hones, if_neg hzero]
  have hmantissa : leadingBit + (BitVec.ofNat 52 m).toNat = m := by
    rw [leadingBit_eq] at hlow hhigh ⊢
    rw [BitVec.toNat_ofNat]
    omega
  have hplace : ((BitVec.ofNat 11 b).toNat : Int) - 1075 = e := by
    rw [BitVec.toNat_ofNat]
    omega
  simp only [hmantissa, hplace]

theorem signOf?_ofParts {s : Sign} {exponent : BitVec 11} {mantissa : BitVec 52}
    (h : ¬ (exponent = -1#11 ∧ mantissa ≠ 0#52)) :
    signOf? (ofParts s exponent mantissa) = some s := by
  unfold ofParts
  by_cases hones : exponent = -1#11
  · have hzero : mantissa = 0#52 := not_not.1 fun hne => h ⟨hones, hne⟩
    rw [if_pos hones, if_pos hzero]
    rfl
  · rw [if_neg hones]
    split
    · split <;> rfl
    · rfl

theorem signOf?_unpack_pack (u : UnpackedFloat) : signOf? (pack u).unpack = signOf? u := by
  cases u with
  | notANumber => rw [unpack_pack_notANumber]
  | infinity s => rw [unpack_pack_infinity]
  | zero s => rw [unpack_pack_zero]
  | finite s m e hm =>
    rw [unpack_pack, UnpackedFloat.pack]
    dsimp only
    split
    · rw [packedInfinity, unpack_packComponents]
      exact signOf?_ofParts (by simp)
    · next hrange =>
      split
      · rw [unpack_packComponents]
        refine signOf?_ofParts fun h => ?_
        have := congrArg BitVec.toNat h.1
        simp at this
        simp at hrange
        omega
      · rw [unpack_packComponents]
        exact signOf?_ofParts (by simp)

/-! ## Reading the bits -/

def isNegative : Sign → Bool
  | .negative => true
  | .positive => false

def ofUnpacked : UnpackedFloat → Binary64
  | .infinity s => .infinity (isNegative s)
  | .notANumber => .nan
  | .zero s => .finite (isNegative s) 0 leastExponent
  | .finite s m e _ => .finite (isNegative s) m e

theorem toNat_unpackMantissa (b : BitVec 64) :
    (@unpackMantissa .binary64 b).toNat = b.toNat % 2 ^ 52 := by
  simp [unpackMantissa, BitVec.extractLsb_toNat]

theorem toNat_unpackExponent (b : BitVec 64) :
    (@unpackExponent .binary64 b).toNat = b.toNat / 2 ^ 52 % 2048 := by
  simp [unpackExponent, BitVec.extractLsb_toNat, Nat.shiftRight_eq_div_pow]

theorem isNegative_unpackSign (b : BitVec 64) :
    isNegative (Sign.ofBitVec (@unpackSign .binary64 b))
      = decide (b.toNat / 2 ^ 63 % 2 = 1) := by
  have hbit : (@unpackSign .binary64 b).toNat = b.toNat / 2 ^ 63 % 2 := by
    simp [unpackSign, BitVec.extractLsb_toNat, Nat.shiftRight_eq_div_pow]
  rw [← hbit]
  generalize @unpackSign .binary64 b = sign
  revert sign
  decide

theorem decode_eq (x : Float) : decode x = ofUnpacked x.toModel.unpack := by
  have hbits : x.toBits.toNat = x.toModel.toBits.toBitVec.toNat := rfl
  rw [decode, hbits, Float.Model.unpack, unpack_eq_ofParts]
  generalize x.toModel.toBits.toBitVec = b
  have hsign := isNegative_unpackSign b
  rw [← hsign, ← toNat_unpackExponent b, ← toNat_unpackMantissa b]
  generalize Sign.ofBitVec (@unpackSign .binary64 b) = sign
  generalize @unpackExponent .binary64 b = exponent
  generalize @unpackMantissa .binary64 b = mantissa
  have hones : exponent.toNat = 2047 ↔ exponent = -1#11 := (BitVec.toNat_inj (y := -1#11))
  have hzero : exponent.toNat = 0 ↔ exponent = 0#11 := (BitVec.toNat_inj (y := 0#11))
  have hmantissa : mantissa.toNat = 0 ↔ mantissa = 0#52 := (BitVec.toNat_inj (y := 0#52))
  unfold ofParts
  by_cases hspecial : exponent = -1#11
  · rw [if_pos (hones.2 hspecial), if_pos hspecial]
    by_cases hnone : mantissa = 0#52
    · rw [if_pos (hmantissa.2 hnone), if_pos hnone]
      rfl
    · rw [if_neg (mt hmantissa.1 hnone), if_neg hnone]
      rfl
  · rw [if_neg (mt hones.1 hspecial), if_neg hspecial]
    by_cases hsmall : exponent = 0#11
    · rw [if_pos (hzero.2 hsmall), if_pos hsmall]
      by_cases hnone : mantissa = 0#52
      · rw [dif_pos hnone, hnone]
        rfl
      · rw [dif_neg hnone]
        rfl
    · rw [if_neg (mt hzero.1 hsmall), if_neg hsmall]
      rfl

theorem exists_unpack_of_decode {x : Float} {negative : Bool} {m : Nat} {e : Int} (hm : 0 < m)
    (h : decode x = .finite negative m e) :
    ∃ s, isNegative s = negative ∧ x.toModel.unpack = .finite s m e hm := by
  rw [decode_eq] at h
  cases hu : x.toModel.unpack with
  | notANumber =>
    rw [hu] at h
    cases h
  | infinity s =>
    rw [hu] at h
    cases h
  | zero s =>
    rw [hu] at h
    injection h with _ hzero
    omega
  | finite s m' e' hm' =>
    rw [hu] at h
    injection h with hs hm he
    subst hm he
    exact ⟨s, hs, rfl⟩

theorem unpack_of_decode {x : Float} {m : Nat} {e : Int} (hm : 0 < m)
    (h : decode x = .finite false m e) : x.toModel.unpack = .finite .positive m e hm := by
  obtain ⟨s, hs, hu⟩ := exists_unpack_of_decode hm h
  cases s with
  | negative => cases hs
  | positive => exact hu

/-- The significand and the exponent of a machine number are bounded. -/
theorem bounds_of_unpack {x : Float.Model} {s : Sign} {m : Nat} {e : Int} {hm : 0 < m}
    (h : x.unpack = .finite s m e hm) : m < 2 * leadingBit ∧ -1074 ≤ e ∧ e ≤ 971 ∧
      (m < leadingBit → e = -1074) := by
  rw [Float.Model.unpack, unpack_eq_ofParts] at h
  generalize @unpackExponent .binary64 x.toBits.toBitVec = exponent at h
  generalize @unpackMantissa .binary64 x.toBits.toBitVec = mantissa at h
  have hmantissa : mantissa.toNat < leadingBit := mantissa.isLt
  unfold ofParts at h
  split at h
  · split at h <;> cases h
  · next hspecial =>
    have hones : exponent.toNat ≠ 2047 := fun heq =>
      hspecial (BitVec.eq_of_toNat_eq (y := -1#11) heq)
    have hexponent : exponent.toNat < 2048 := exponent.isLt
    split at h
    · split at h
      · cases h
      · injection h with _ hm he
        omega
    · next hsmall =>
      have hzero : exponent.toNat ≠ 0 := fun heq =>
        hsmall (BitVec.eq_of_toNat_eq (y := 0#11) heq)
      injection h with _ hm he
      omega

end Binary64
end Number
end SpacerTurning
