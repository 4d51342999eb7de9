import Mathlib
import SpacerTurning.Number.Binary64

/-!
The machine number nearest to a value.

A machine number with all its bits is nearest to every value in an interval around it, and to no value
that another one is nearest to.  A number of ten-thousandths that is rounded to a machine number, and
then to ten-thousandths again, may come out as another number, but that one rounds to the same machine
number: it is no farther away than the first one was.
-/

namespace SpacerTurning
namespace Number

/-- A fraction is within half of the whole number that it is rounded to. -/
theorem abs_sub_roundHalfEven_le (num : Nat) {den : Nat} (h : 0 < den) :
    |(roundHalfEven num den : Rat) - num / den| ≤ 1 / 2 := by
  have hden : (0 : Rat) < den := by exact_mod_cast h
  have hdivide : (den : Rat) * (num / den : Nat) + (num % den : Nat) = num := by
    exact_mod_cast Nat.div_add_mod num den
  have hvalue : (num : Rat) / den = (num / den : Nat) + (num % den : Nat) / den := by
    rw [← hdivide, add_div, mul_div_cancel_left₀ _ hden.ne']
  have hrest : ((num % den : Nat) : Rat) / den < 1 := by
    rw [div_lt_one hden]
    exact_mod_cast Nat.mod_lt num h
  have hzero : (0 : Rat) ≤ ((num % den : Nat) : Rat) / den := by positivity
  rw [hvalue, abs_le]
  unfold roundHalfEven
  dsimp only
  split
  · next hdown =>
    have hhalf : ((num % den : Nat) : Rat) / den ≤ 1 / 2 := by
      rw [div_le_iff₀ hden]
      have : 2 * (num % den) ≤ den := by omega
      have : (2 : Rat) * (num % den : Nat) ≤ den := by exact_mod_cast this
      linarith
    constructor <;> linarith
  · next hup =>
    have hhalf : 1 / 2 ≤ ((num % den : Nat) : Rat) / den := by
      rw [le_div_iff₀ hden]
      have : den ≤ 2 * (num % den) := by omega
      have : (den : Rat) ≤ 2 * (num % den : Nat) := by exact_mod_cast this
      linarith
    push_cast
    constructor <;> linarith

/-- Whole numbers that are less than one apart are the same. -/
theorem eq_of_abs_sub_lt_one {j k : Nat} (h : |(j : Rat) - k| < 1) : j = k := by
  have hint : |((j : Int) - k : Int)| < 1 := by exact_mod_cast h
  rw [Int.abs_lt_one_iff] at hint
  omega

namespace Binary64

/-- The machine number `m * 2 ^ e`, which has all its bits, is nearest to a value, a half going to the
even one. -/
structure IsNearest (v : Rat) (m : Nat) (e : Int) : Prop where
  low : leadingBit ≤ m
  high : m < 2 * leadingBit
  near : |v - m * 2 ^ e| ≤ 2 ^ e / 2
  even : |v - m * 2 ^ e| = 2 ^ e / 2 → m % 2 = 0
  /-- The numbers below a power of two lie twice as close. -/
  narrow : m = leadingBit → m * 2 ^ e - v ≤ 2 ^ e / 4

/-- A power with its sign in the exponent, as a fraction. -/
theorem power_eq (base m : Nat) (e : Int) :
    let power : Nat × Nat := if 0 ≤ e then (base ^ e.toNat, 1) else (1, base ^ (-e).toNat)
    ((m * power.1 : Nat) : Rat) / power.2 = m * (base : Rat) ^ e := by
  dsimp only
  split
  · next he =>
    obtain ⟨k, rfl⟩ := Int.eq_ofNat_of_zero_le he
    simp
  · next he =>
    obtain ⟨k, rfl⟩ : ∃ k : Nat, e = -(k : Int) := ⟨(-e).toNat, by omega⟩
    simp [zpow_neg, div_eq_mul_inv]

theorem powerOfTwo_eq (m : Nat) (e : Int) :
    ((m * (powerOfTwo e).1 : Nat) : Rat) / (powerOfTwo e).2 = m * 2 ^ e :=
  power_eq 2 m e

theorem powerOfTwo_pos (e : Int) : 0 < (powerOfTwo e).2 := by
  unfold powerOfTwo
  split
  · exact Nat.one_pos
  · exact Nat.two_pow_pos _

theorem two_zpow_pos (e : Int) : (0 : Rat) < 2 ^ e := zpow_pos (by norm_num) e

theorem two_mul_zpow_le {e e' : Int} (h : e < e') : 2 * (2 : Rat) ^ e ≤ 2 ^ e' := by
  have hstep : (2 : Rat) ^ (e + 1) ≤ 2 ^ e' := zpow_le_zpow_right₀ (by norm_num) h
  rwa [zpow_add_one₀ (by norm_num), mul_comm] at hstep

namespace IsNearest

variable {v : Rat} {m m' : Nat} {e e' : Int}

/-- A machine number is nearest to itself. -/
theorem self (hlow : leadingBit ≤ m) (hhigh : m < 2 * leadingBit) (e : Int) :
    IsNearest (m * 2 ^ e) m e := by
  have hpos := two_zpow_pos e
  refine ⟨hlow, hhigh, ?_, fun h => ?_, fun _ => ?_⟩
  · rw [sub_self, abs_zero]
    linarith
  · rw [sub_self, abs_zero] at h
    linarith
  · rw [sub_self]
    linarith

theorem bounds (h : IsNearest v m e) : (m - 1 / 2) * 2 ^ e ≤ v ∧ v ≤ (m + 1 / 2) * 2 ^ e := by
  have hnear := abs_le.1 h.near
  constructor <;> linarith

theorem low_le (h : IsNearest v m e) : (leadingBit - 1 / 4) * (2 : Rat) ^ e ≤ v := by
  rcases Nat.eq_or_lt_of_le h.low with heq | hmore
  · have hnarrow := h.narrow heq.symm
    rw [← heq] at hnarrow
    linarith
  · have : ((leadingBit + 1 : Nat) : Rat) ≤ m := by exact_mod_cast hmore
    push_cast at this
    exact (mul_le_mul_of_nonneg_right (by linarith) (two_zpow_pos e).le).trans h.bounds.1

/-- The numbers of one exponent are nearest to values below those of the next. -/
theorem exponent_not_lt (h : IsNearest v m e) (h' : IsNearest v m' e') : ¬ e < e' := by
  intro hless
  have hpos := two_zpow_pos e
  have hdouble := two_mul_zpow_le hless
  have hm : (m : Rat) ≤ 2 * leadingBit - 1 := by
    have hhigh : m + 1 ≤ 2 * leadingBit := h.high
    have : ((m + 1 : Nat) : Rat) ≤ (2 * leadingBit : Nat) := by exact_mod_cast hhigh
    push_cast at this
    linarith
  have hbound := h.bounds.2
  have habove : v < (2 * leadingBit - 1 / 2) * 2 ^ e := by
    refine lt_of_le_of_ne (hbound.trans ?_) fun heq => ?_
    · exact mul_le_mul_of_nonneg_right (by linarith) hpos.le
    · -- The end of the interval belongs to an even number, and the last one is odd.
      have hlast : m = 2 * leadingBit - 1 := by
        have hge : (2 * leadingBit - 1 : Rat) ≤ m := by
          have := le_of_mul_le_mul_right (heq ▸ hbound) hpos
          linarith
        have : 2 * leadingBit ≤ m + 1 := by
          have : ((2 * leadingBit : Nat) : Rat) ≤ (m + 1 : Nat) := by
            push_cast
            linarith
          exact_mod_cast this
        have := h.high
        omega
      have hvalue : (m : Rat) = 2 * leadingBit - 1 := by
        rw [hlast, Nat.cast_sub (by decide)]
        push_cast
        ring
      have htie := h.even (by
        rw [heq, hvalue, ← sub_mul, abs_of_nonneg] <;> ring_nf
        linarith)
      rw [hlast] at htie
      exact absurd htie (by decide)
  have hbelow := h'.low_le
  have hlead : (leadingBit : Rat) = 4503599627370496 := by norm_num [leadingBit]
  rw [hlead] at habove hbelow
  linarith

theorem unique (h : IsNearest v m e) (h' : IsNearest v m' e') : m = m' ∧ e = e' := by
  have he : e = e' := le_antisymm (not_lt.1 (h'.exponent_not_lt h)) (not_lt.1 (h.exponent_not_lt h'))
  subst he
  refine ⟨?_, rfl⟩
  have hpos := two_zpow_pos e
  have hless {a b : Nat} (ha : IsNearest v a e) (hb : IsNearest v b e) : ¬ a < b := by
    intro hlt
    have hstep : ((a + 1 : Nat) : Rat) ≤ b := by exact_mod_cast hlt
    push_cast at hstep
    have hgap := mul_le_mul_of_nonneg_right hstep hpos.le
    have hlow := hb.bounds.1
    have hhigh := ha.bounds.2
    -- Only a value half way between two neighbours is near both, and one of them is odd.
    have hmid : v = (a + 1 / 2) * 2 ^ e := by linarith
    have hnext : (b : Rat) = a + 1 := by
      have : (b : Rat) * 2 ^ e ≤ (a + 1) * 2 ^ e := by linarith
      exact le_antisymm (le_of_mul_le_mul_right this hpos) hstep
    have ha' := ha.even (by
      rw [hmid, ← sub_mul, abs_of_nonneg] <;> ring_nf
      linarith)
    have hb' := hb.even (by
      rw [hmid, hnext, ← sub_mul, abs_of_nonpos] <;> ring_nf
      linarith)
    have hsucc : b = a + 1 := by exact_mod_cast hnext
    omega
  exact le_antisymm (not_lt.1 (hless h' h)) (not_lt.1 (hless h h'))

/-- Rounding does not go past a machine number. -/
theorem le_of_le (h : IsNearest v m e) (hlow : leadingBit ≤ m') (hhigh : m' < 2 * leadingBit)
    (hv : v ≤ m' * 2 ^ e') : (m : Rat) * 2 ^ e ≤ m' * 2 ^ e' := by
  have hpos := two_zpow_pos e
  have hpos' := two_zpow_pos e'
  have hstep {a b : Nat} (hab : a < b) : (a : Rat) + 1 ≤ b := by exact_mod_cast hab
  have hlow : (leadingBit : Rat) ≤ m' := by exact_mod_cast hlow
  rcases lt_trichotomy e e' with hless | rfl | hmore
  · have hm : (m : Rat) ≤ 2 * leadingBit := by exact_mod_cast h.high.le
    calc (m : Rat) * 2 ^ e ≤ 2 * leadingBit * 2 ^ e := mul_le_mul_of_nonneg_right hm hpos.le
      _ = leadingBit * (2 * 2 ^ e) := by ring
      _ ≤ leadingBit * 2 ^ e' := mul_le_mul_of_nonneg_left (two_mul_zpow_le hless) (by positivity)
      _ ≤ m' * 2 ^ e' := mul_le_mul_of_nonneg_right hlow hpos'.le
  · refine mul_le_mul_of_nonneg_right ?_ hpos.le
    by_contra hgt
    have hgap := hstep (Nat.cast_lt.1 (not_le.1 hgt))
    have := le_of_mul_le_mul_right (h.bounds.1.trans hv) hpos
    linarith
  · -- The numbers of a larger exponent are nearest to larger values only.
    have hm' : (m' : Rat) + 1 ≤ 2 * leadingBit := by
      have := hstep hhigh
      push_cast at this
      exact this
    have hbelow := h.low_le.trans (hv.trans
      (mul_le_mul_of_nonneg_right (le_sub_iff_add_le.2 hm') hpos'.le))
    have hscaled := mul_le_mul_of_nonneg_left (two_mul_zpow_le hmore)
      (by norm_num [leadingBit] : (0 : Rat) ≤ leadingBit - 1 / 4)
    linarith

/-- The exponent follows from the size of the value. -/
theorem exponent_bounds (h : IsNearest v m e) {low high : Int} (hlow : 2 ^ low ≤ v)
    (hhigh : v ≤ 2 ^ high) : low ≤ e + 53 ∧ e + 51 ≤ high := by
  have hpos := two_zpow_pos e
  have hm : (m : Rat) + 1 / 2 ≤ 2 ^ (53 : Int) := by
    have : ((m + 1 : Nat) : Rat) ≤ (2 * leadingBit : Nat) := by exact_mod_cast h.high
    norm_num [leadingBit] at this ⊢
    linarith
  have hm' : (2 : Rat) ^ (51 : Int) ≤ m - 1 / 2 := by
    have hlead : (leadingBit : Rat) = 4503599627370496 := by norm_num [leadingBit]
    have : (leadingBit : Rat) ≤ m := by exact_mod_cast h.low
    rw [hlead] at this
    norm_num
    linarith
  have hone : (1 : Rat) < 2 := by norm_num
  have htwo : (2 : Rat) ≠ 0 := by norm_num
  constructor
  · rw [← zpow_le_zpow_iff_right₀ hone, zpow_add₀ htwo, mul_comm]
    exact (hlow.trans h.bounds.2).trans (mul_le_mul_of_nonneg_right hm hpos.le)
  · rw [← zpow_le_zpow_iff_right₀ hone, zpow_add₀ htwo, mul_comm]
    exact (mul_le_mul_of_nonneg_right hm' hpos.le).trans (h.bounds.1.trans hhigh)

/-- A value between two neighbouring powers of two, rounded to a whole number of units. -/
theorem of_rounded {w : Rat} {k : Nat} (hw : leadingBit ≤ w ∧ w < 2 * leadingBit)
    (hnear : |w - k| ≤ 1 / 2) (heven : |w - k| = 1 / 2 → k % 2 = 0) (e : Int) :
    IsNearest (w * 2 ^ e) k e ∨
      (k = 2 * leadingBit ∧ IsNearest (w * 2 ^ e) leadingBit (e + 1)) := by
  have hpos := two_zpow_pos e
  have hnear' := abs_le.1 hnear
  have hlow : leadingBit ≤ k := by
    have : (leadingBit : Rat) < (k + 1 : Nat) := by
      push_cast
      linarith
    have : leadingBit < k + 1 := by exact_mod_cast this
    omega
  have hhigh : k ≤ 2 * leadingBit := by
    have : (k : Rat) < (2 * leadingBit + 1 : Nat) := by
      push_cast
      linarith
    have : k < 2 * leadingBit + 1 := by exact_mod_cast this
    omega
  have hscale : |w * 2 ^ e - k * 2 ^ e| = |w - k| * 2 ^ e := by
    rw [← sub_mul, abs_mul, abs_of_pos hpos]
  have hdistance := mul_le_mul_of_nonneg_right hnear hpos.le
  rcases Nat.eq_or_lt_of_le hhigh with htop | hbelow
  · have hnext : (leadingBit : Rat) * 2 ^ (e + 1) = k * 2 ^ e := by
      rw [zpow_add_one₀ (by norm_num), htop]
      push_cast
      ring
    refine Or.inr ⟨htop, le_rfl, by decide, ?_, fun _ => by decide, fun _ => ?_⟩
    · rw [hnext, hscale, zpow_add_one₀ (by norm_num)]
      linarith
    · have hgap : (k : Rat) - w ≤ 1 / 2 := by linarith
      have := mul_le_mul_of_nonneg_right hgap hpos.le
      rw [hnext, ← sub_mul, zpow_add_one₀ (by norm_num)]
      linarith
  · refine Or.inl ⟨hlow, hbelow, ?_, fun htie => ?_, fun hlead => ?_⟩
    · rw [hscale]
      linarith
    · rw [hscale] at htie
      refine heven (mul_right_cancel₀ hpos.ne' ?_)
      rw [htie]
      ring
    · have hgap : (leadingBit : Rat) - w ≤ 0 := by linarith
      have := mul_le_mul_of_nonneg_right hgap hpos.le
      rw [hlead, ← sub_mul]
      linarith

/-- Another value that is no farther from the machine number. -/
theorem of_near {w : Rat} (h : IsNearest v m e) (hnear : |w - m * 2 ^ e| ≤ |v - m * 2 ^ e|)
    (hnarrow : m = leadingBit → m * 2 ^ e - w ≤ 2 ^ e / 4) : IsNearest w m e where
  low := h.low
  high := h.high
  near := hnear.trans h.near
  even htie := h.even (le_antisymm h.near (htie ▸ hnear))
  narrow := hnarrow

/-- The ten-thousandths nearest to a machine number that was nearest to some ten-thousandths. -/
theorem ofTenThousandths {w n : Nat} (h : IsNearest (w / 10 ^ 4) m e)
    (hn : |(n : Rat) - m * 2 ^ e * 10 ^ 4| ≤ 1 / 2) : IsNearest (n / 10 ^ 4) m e := by
  have hscale (k : Nat) : (k : Rat) / 10 ^ 4 - m * 2 ^ e = (k - m * 2 ^ e * 10 ^ 4) / 10 ^ 4 := by
    field_simp
  rcases eq_or_ne n w with rfl | hne
  · exact h
  have hnear : |(n : Rat) - m * 2 ^ e * 10 ^ 4| ≤ |(w : Rat) - m * 2 ^ e * 10 ^ 4| := by
    refine hn.trans ?_
    by_contra hless
    have hgap : |(n : Rat) - w| < 1 := by
      rw [abs_le] at hn
      rw [not_le, abs_lt] at hless
      rw [abs_lt]
      constructor <;> linarith
    exact hne (eq_of_abs_sub_lt_one hgap)
  refine h.of_near ?_ fun hlead => ?_
  · rw [hscale, hscale, abs_div, abs_div]
    exact div_le_div_of_nonneg_right hnear (abs_nonneg _)
  · have hpos := two_zpow_pos e
    rcases le_or_gt e (-14) with hsmall | hlarge
    · -- There is only one number of ten-thousandths so near.
      refine absurd ?_ hne
      have hunit : (2 : Rat) ^ e ≤ 2 ^ (-14 : Int) := zpow_le_zpow_right₀ (by norm_num) hsmall
      have hw := h.near
      rw [hscale, abs_div, abs_of_pos (by norm_num : (0 : Rat) < 10 ^ 4), div_le_iff₀ (by norm_num)]
        at hw
      have hgap : |(n : Rat) - w| < 1 := by
        norm_num at hunit
        rw [abs_le] at hn hw
        rw [abs_lt]
        constructor <;> linarith
      exact eq_of_abs_sub_lt_one hgap
    · -- A power of two that is not small is whole.
      obtain ⟨k, hk⟩ : ∃ k : Nat, (m : Rat) * 2 ^ e = k := by
        refine ⟨2 ^ (e + 52).toNat, ?_⟩
        have hsplit : e = ((e + 52).toNat : Int) - 52 := by omega
        generalize (e + 52).toNat = k at hsplit ⊢
        rw [hlead, hsplit, zpow_sub₀ (by norm_num), zpow_natCast]
        norm_num [leadingBit]
        ring
      have hwhole : (n : Rat) = k * 10 ^ 4 := by
        rw [hk] at hn
        have hgap : |(n : Rat) - (k * 10 ^ 4 : Nat)| < 1 := by
          push_cast
          exact hn.trans_lt (by norm_num)
        exact_mod_cast eq_of_abs_sub_lt_one hgap
      rw [hk, hwhole, mul_div_assoc, div_self (by norm_num), mul_one, sub_self]
      linarith

end IsNearest
end Binary64
end Number
end SpacerTurning
