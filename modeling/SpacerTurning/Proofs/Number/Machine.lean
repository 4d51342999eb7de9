import SpacerTurning.Number.Word
import SpacerTurning.Proofs.Number.Lawful
import SpacerTurning.Proofs.Number.Places

/-!
Machine numbers in program words.

A machine number at four places is written as the ten-thousandths nearest to it, and those are read as
the machine number that they came from.  So machine numbers are lawful.
-/

namespace SpacerTurning
namespace Number
namespace Binary64

open Float.Model Float.Model.UnpackedFloat

/-- The number of a program word for zero and for what is no finite number. -/
def zeroWord : WordNumber where
  negative := false
  whole := ['0']
  fraction := []
  whole_ne_nil := by decide
  whole_digits := by simp [AllDigits]
  fraction_digits := by simp [AllDigits]

theorem isZero_ofNat_zero : IsZero (Scalar.ofNat 0 : Float) := ⟨.positive, unpack_zero⟩

theorem exists_decode_of_isFinite {x : Float} (h : x.toModel.unpack.isFinite = true) :
    ∃ s m e, decode x = .finite (isNegative s) m e := by
  rw [decode_eq]
  generalize x.toModel.unpack = u at h
  rcases u with _ | _ | s | ⟨s, m, e⟩
  · cases h
  · cases h
  · exact ⟨s, 0, leastExponent, rfl⟩
  · exact ⟨s, m, e, rfl⟩

/-- The ten-thousandths that a finite number is written as. -/
def tenThousandths (m : Nat) (e : Int) : Nat :=
  roundHalfEven (m * (powerOfTwo e).1 * 10 ^ 4) (powerOfTwo e).2

theorem abs_sub_tenThousandths_le (m : Nat) (e : Int) :
    |(tenThousandths m e : Rat) - m * 2 ^ e * 10 ^ 4| ≤ 1 / 2 := by
  have h := abs_sub_roundHalfEven_le (m * (powerOfTwo e).1 * 10 ^ 4) (powerOfTwo_pos e)
  have hvalue : ((m * (powerOfTwo e).1 * 10 ^ 4 : Nat) : Rat) / (powerOfTwo e).2
      = m * 2 ^ e * 10 ^ 4 := by
    rw [← powerOfTwo_eq]
    push_cast
    ring
  rwa [hvalue] at h

/-! ## The text of a number -/

theorem format_of_special {x : Float}
    (h : IsZero (Scalar.round4 x : Float) ∨
      (Scalar.round4 x : Float).toModel.unpack.isFinite = false) : Word.format x = "0." := by
  rw [Word.format]
  refine if_pos ?_
  rw [Bool.or_eq_true]
  refine h.imp (fun hzero => beq_of_isZero hzero isZero_ofNat_zero) fun hspecial => ?_
  have hspecial : (Scalar.isFinite (Scalar.round4 x : Float)) = false := hspecial
  rw [hspecial]
  rfl

/-- Every other number is written as ten-thousandths. -/
theorem format_of_finite {x : Float} {s : Sign} {m : Nat} {e : Int}
    (hzero : ((Scalar.round4 x : Float) == 0) = false)
    (hfinite : (Scalar.round4 x : Float).toModel.unpack.isFinite = true)
    (hdecode : decode (Scalar.round4 x) = .finite (isNegative s) m e) :
    Word.format x
      = String.ofList (WordNumber.ofTenThousandths (isNegative s) (tenThousandths m e)).text := by
  have hfixed : Scalar.fixed 4 (Scalar.round4 x : Float)
      = fixedText (isNegative s) (m * (powerOfTwo e).1) (powerOfTwo e).2 4 := by
    change fixed 4 (Scalar.round4 x) = _
    rw [fixed, hdecode]
  have hfinite : Scalar.isFinite (Scalar.round4 x : Float) = true := hfinite
  have hneither : ¬ ((Scalar.round4 x : Float) == 0
      || !Scalar.isFinite (Scalar.round4 x : Float)) = true := by
    rw [hzero, hfinite]
    decide
  rw [Word.format]
  refine (if_neg hneither).trans ?_
  rw [hfixed, WordNumber.text_ofTenThousandths]
  rfl

theorem exists_text (x : Float) : ∃ w : WordNumber, Word.format x = String.ofList w.text := by
  cases hfinite : (Scalar.round4 x : Float).toModel.unpack.isFinite with
  | false => exact ⟨zeroWord, format_of_special (Or.inr hfinite)⟩
  | true =>
    cases hzero : (Scalar.round4 x : Float) == 0 with
    | true =>
      exact ⟨zeroWord, format_of_special (Or.inl (isZero_of_beq hzero isZero_ofNat_zero))⟩
    | false =>
      obtain ⟨s, m, e, hdecode⟩ := exists_decode_of_isFinite hfinite
      exact ⟨_, format_of_finite hzero hfinite hdecode⟩

/-! ## Reading the text -/

theorem read_zeroWord : ∃ v : Float, Word.read ['0', '.'] = some v ∧ IsZero v := by
  have hread : (Word.read ['0', '.'] : Option Float) = some (Scalar.ofNat 0) := by decide +kernel
  exact ⟨_, hread, isZero_ofNat_zero⟩

/-- The ten-thousandths of a number at four places are read as that number. -/
theorem exists_read_tenThousandths {s : Sign} {n m : Nat} {e : Int}
    (hhigh : (n : Rat) / 10 ^ 4 ≤ 2 ^ (1011 : Int)) (hnearest : IsNearest (n / 10 ^ 4) m e)
    (hm : 0 < m) :
    ∃ v : Float, Word.read (WordNumber.ofTenThousandths (isNegative s) (tenThousandths m e)).text
        = some v ∧ v.toModel.unpack = .finite s m e hm := by
  have hagain := hnearest.ofTenThousandths (abs_sub_tenThousandths_le m e)
  generalize tenThousandths m e = t at hagain
  have hlead : (leadingBit : Rat) ≤ m := by exact_mod_cast hnearest.low
  have htwo : (2 : Rat) ≤ leadingBit := by exact_mod_cast (by decide : 2 ≤ leadingBit)
  have hunit := two_zpow_pos e
  have htpos : 0 < t := by
    have hbelow := hagain.bounds.1
    have hmid : 0 < ((m : Rat) - 1 / 2) * 2 ^ e := mul_pos (by linarith) hunit
    have : (0 : Rat) < t := by
      have := hmid.trans_le hbelow
      linarith
    exact_mod_cast this
  have hthigh : (t : Rat) / 10 ^ 4 ≤ 2 ^ (1020 : Int) := by
    -- The ends of the interval are less than a factor of two apart.
    have hdouble : ((m : Rat) + 1 / 2) * 2 ^ e ≤ 2 * ((m - 1 / 2) * 2 ^ e) := by
      have := mul_le_mul_of_nonneg_right (by linarith : (m : Rat) + 1 / 2 ≤ 2 * (m - 1 / 2)) hunit.le
      linarith
    calc (t : Rat) / 10 ^ 4 ≤ 2 * (n / 10 ^ 4) :=
          (hagain.bounds.2.trans hdouble).trans
            (mul_le_mul_of_nonneg_left hnearest.bounds.1 (by norm_num))
      _ ≤ 2 * 2 ^ (1011 : Int) := mul_le_mul_of_nonneg_left hhigh (by norm_num)
      _ = 2 ^ (1012 : Int) := by rw [← zpow_one_add₀ (by norm_num)]; norm_num
      _ ≤ 2 ^ (1020 : Int) := zpow_le_zpow_right₀ (by norm_num) (by norm_num)
  have hrange := inRange_tenThousandths htpos hthigh
  have hdigits := WordNumber.digits_ofTenThousandths (isNegative s) t
  have hk := WordNumber.length_fraction_le (isNegative s) t
  have hread := Word.read_text (α := Float) (WordNumber.ofTenThousandths (isNegative s) t)
  generalize hw : WordNumber.ofTenThousandths (isNegative s) t = w at hdigits hk hread
  have hnegative : w.decimal.negative = isNegative s := by rw [← hw]; rfl
  have hvalue : (w.decimal.digits : Rat) / 10 ^ w.fraction.length = t / 10 ^ 4 := by
    rw [← hdigits, div_eq_div_iff (by positivity) (by positivity)]
    push_cast
    rw [mul_assoc, ← pow_add, Nat.sub_add_cancel hk]
  have hdpos : 0 < w.decimal.digits := by
    rw [← hdigits] at htpos
    exact Nat.pos_of_mul_pos_right htpos
  obtain ⟨m', e', hm', hu, hnearest'⟩ := isRounded_ofDecimal (d := w.decimal) rfl hk hdpos
    (hvalue ▸ hrange)
  rw [hvalue] at hnearest'
  obtain ⟨rfl, rfl⟩ := hagain.unique hnearest'
  rw [hnegative, signOf_isNegative] at hu
  have hfinite : Scalar.isFinite (Scalar.ofDecimal w.decimal : Float) = true := by
    change (ofDecimal w.decimal).toModel.unpack.isFinite = true
    rw [hu]
    rfl
  rw [if_pos hfinite] at hread
  exact ⟨_, hread, hu⟩

theorem read_format (x : Float) : ∃ v : Float, Word.read (Word.format x).toList = some v ∧
    (if Scalar.isFinite (Scalar.round4 x) then v == Scalar.round4 x else v == 0) = true ∧
    (¬ x ≤ 0 → 0 ≤ v) := by
  have hzero := isZero_ofNat_zero
  rcases round4_cases x with hspecial | hnone | ⟨s, n, hpos, hhigh, m, e, hm, hu, hnearest⟩
  · obtain ⟨v, hread, hv⟩ := read_zeroWord
    have hnot : Scalar.isFinite (Scalar.round4 x : Float) = false := hspecial
    rw [format_of_special (Or.inr hspecial), hnot]
    exact ⟨v, hread, beq_of_isZero hv hzero, fun _ => float_le_of_beq (beq_of_isZero hv hzero)⟩
  · obtain ⟨v, hread, hv⟩ := read_zeroWord
    have hfinite : Scalar.isFinite (Scalar.round4 x : Float) = true := by
      obtain ⟨s, hs⟩ := hnone
      change (Scalar.round4 x : Float).toModel.unpack.isFinite = true
      rw [hs]
      rfl
    rw [format_of_special (Or.inl hnone), hfinite]
    exact ⟨v, hread, beq_of_isZero hv hnone, fun _ => float_le_of_beq (beq_of_isZero hv hzero)⟩
  · have hfinite : (Scalar.round4 x : Float).toModel.unpack.isFinite = true := by
      rw [hu]
      rfl
    have hdecode : decode (Scalar.round4 x) = .finite (isNegative s) m e := by
      rw [decode_eq, hu]
      rfl
    have hne : ((Scalar.round4 x : Float) == 0) = false := by
      refine Bool.eq_false_iff.2 fun heq => ?_
      obtain ⟨t, ht⟩ := isZero_of_beq heq hzero
      rw [hu] at ht
      cases ht
    obtain ⟨v, hread, hv⟩ := exists_read_tenThousandths (s := s) hhigh hnearest hm
    rw [format_of_finite hne hfinite hdecode, String.toList_ofList]
    refine ⟨v, hread, ?_, fun hx => ?_⟩
    · have hisFinite : Scalar.isFinite (Scalar.round4 x : Float) = true := hfinite
      rw [hisFinite, if_pos rfl]
      exact float_beq_of_unpack (hv.trans hu.symm) (by rw [hv]; rfl)
    · have hsign := signOf?_round4 x
      rw [hu] at hsign
      cases s with
      | negative => exact absurd (le_zero_of_negative hsign.symm hzero) hx
      | positive => exact zero_le_of_positive (by rw [hv]; rfl) hzero

end Binary64
end Number

open Number

instance : LawfulScalar Float where
  le_trans := Binary64.float_le_trans
  nonneg_of_zero := Binary64.float_le_of_beq
  beq_symm := BEq.symm
  beq_trans := BEq.trans
  isFinite_of_beq := Binary64.float_isFinite_of_beq
  exists_text := Binary64.exists_text
  read_format := Binary64.read_format
  read_zero := by
    obtain ⟨v, hread, hv⟩ := Binary64.read_zeroWord
    exact ⟨v, hread, Binary64.beq_of_isZero hv Binary64.isZero_ofNat_zero⟩
  read_one := ⟨Float.ofNat 1, by decide +kernel, by decide +kernel⟩

end SpacerTurning
