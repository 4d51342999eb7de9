import SpacerTurning.Proofs.Number.Decimal

/-!
The fewest digits of a machine number.

They are looked for in its interval, so what they stand for is rounded to it again.  The grid of
seventeen digits always has a number there: it is finer than the interval is wide.
-/

namespace SpacerTurning
namespace Number

theorem powerOfTen_eq (n : Nat) (k : Int) :
    ((n * (powerOfTen k).1 : Nat) : Rat) / (powerOfTen k).2 = n * 10 ^ k :=
  Binary64.power_eq 10 n k

theorem powerOfTen_pos (k : Int) : 0 < (powerOfTen k).2 := by
  unfold powerOfTen
  split
  · exact Nat.one_pos
  · exact Nat.pow_pos (by decide)

/-- Fractions are compared over the product of their denominators. -/
theorem fraction_le_iff {x y : Nat × Nat} (hx : 0 < x.2) (hy : 0 < y.2) (a c : Nat) :
    ((a * x.1 : Nat) : Rat) / x.2 ≤ ((c * y.1 : Nat) : Rat) / y.2 ↔
      a * (x.1 * y.2) ≤ c * (y.1 * x.2) := by
  rw [div_le_div_iff₀ (by exact_mod_cast hx) (by exact_mod_cast hy), ← mul_assoc, ← mul_assoc]
  exact_mod_cast Iff.rfl

namespace Interval

/-- A value lies in the interval, whose unit is `2 ^ q`. -/
def Holds (i : Interval) (q : Int) (v : Rat) : Prop :=
  if i.closed then i.below * 2 ^ q ≤ v ∧ v ≤ i.above * 2 ^ q
  else i.below * 2 ^ q < v ∧ v < i.above * 2 ^ q

/-- A number of steps of a grid lies in the interval. -/
def inside (i : Interval) (q k : Int) (c : Nat) : Bool :=
  let unit := (powerOfTwo q).1 * (powerOfTen k).2
  let step := (powerOfTen k).1 * (powerOfTwo q).2
  if i.closed then i.below * unit ≤ c * step && c * step ≤ i.above * unit
  else i.below * unit < c * step && c * step < i.above * unit

/-- Steps of a grid that end at the value or before it. -/
def lower (i : Interval) (q k : Int) : Nat :=
  i.value * ((powerOfTwo q).1 * (powerOfTen k).2) / ((powerOfTen k).1 * (powerOfTwo q).2)

variable {i : Interval} {tie : Tie} {q k : Int} {c : Nat}

theorem binary_le_iff (a c : Nat) : (a : Rat) * 2 ^ q ≤ c * 10 ^ k ↔
    a * ((powerOfTwo q).1 * (powerOfTen k).2) ≤ c * ((powerOfTen k).1 * (powerOfTwo q).2) := by
  rw [← Binary64.powerOfTwo_eq, ← powerOfTen_eq]
  exact fraction_le_iff (Binary64.powerOfTwo_pos q) (powerOfTen_pos k) a c

theorem decimal_le_iff (a c : Nat) : (c : Rat) * 10 ^ k ≤ a * 2 ^ q ↔
    c * ((powerOfTen k).1 * (powerOfTwo q).2) ≤ a * ((powerOfTwo q).1 * (powerOfTen k).2) := by
  rw [← Binary64.powerOfTwo_eq, ← powerOfTen_eq]
  exact fraction_le_iff (powerOfTen_pos k) (Binary64.powerOfTwo_pos q) c a

theorem inside_iff : i.inside q k c = true ↔ i.Holds q (c * 10 ^ k) := by
  unfold inside Holds
  dsimp only
  split
  · rw [Bool.and_eq_true, decide_eq_true_eq, decide_eq_true_eq, binary_le_iff, decimal_le_iff]
  · rw [Bool.and_eq_true, decide_eq_true_eq, decide_eq_true_eq, ← not_le, ← not_le, ← not_le, ← not_le,
      binary_le_iff, decimal_le_iff]

theorem onGrid_eq : i.onGrid tie q k =
    let unit := (powerOfTwo q).1 * (powerOfTen k).2
    let step := (powerOfTen k).1 * (powerOfTwo q).2
    match i.inside q k (i.lower q k), i.inside q k (i.lower q k + 1) with
    | false, false => none
    | true, false => some (i.lower q k)
    | false, true => some (i.lower q k + 1)
    | true, true =>
      if i.value * unit - i.lower q k * step < (i.lower q k + 1) * step - i.value * unit then
        some (i.lower q k)
      else if (i.lower q k + 1) * step - i.value * unit < i.value * unit - i.lower q k * step then
        some (i.lower q k + 1)
      else match tie with
        | .up => some (i.lower q k + 1)
        | .even => some (if i.lower q k % 2 = 0 then i.lower q k else i.lower q k + 1) := rfl

theorem holds_of_onGrid (h : i.onGrid tie q k = some c) : i.Holds q (c * 10 ^ k) := by
  rw [← inside_iff]
  rw [onGrid_eq] at h
  dsimp only at h
  split at h
  · cases h
  · next hlower _ => exact Option.some.inj h ▸ hlower
  · next _ hupper => exact Option.some.inj h ▸ hupper
  · next hlower hupper =>
    split at h
    · exact Option.some.inj h ▸ hlower
    · split at h
      · exact Option.some.inj h ▸ hupper
      · split at h
        · exact Option.some.inj h ▸ hupper
        · split at h
          · exact Option.some.inj h ▸ hlower
          · exact Option.some.inj h ▸ hupper

theorem inside_of_onGrid (h : i.onGrid tie q k = none) :
    i.inside q k (i.lower q k) = false ∧ i.inside q k (i.lower q k + 1) = false := by
  rw [onGrid_eq] at h
  dsimp only at h
  split at h
  · next hlower hupper => exact ⟨hlower, hupper⟩
  · cases h
  · cases h
  · split at h
    · cases h
    · split at h
      · cases h
      · split at h <;> cases h

theorem lower_le : (i.lower q k : Rat) * 10 ^ k ≤ i.value * 2 ^ q := by
  rw [decimal_le_iff]
  exact Nat.div_mul_le_self _ _

theorem le_lower_succ : (i.value : Rat) * 2 ^ q ≤ (i.lower q k + 1 : Nat) * 10 ^ k := by
  rw [binary_le_iff, Nat.add_mul, Nat.one_mul]
  have hpos : 0 < (powerOfTen k).1 * (powerOfTwo q).2 := by
    refine Nat.mul_pos ?_ (Binary64.powerOfTwo_pos q)
    unfold powerOfTen
    split
    · exact Nat.pow_pos (by decide)
    · exact Nat.one_pos
  exact (Nat.lt_div_mul_add hpos).le

/-- A grid has a number in the interval if its steps are smaller than the interval. -/
theorem width_le_of_onGrid (hvalue : i.below < i.value ∧ i.value < i.above)
    (h : i.onGrid tie q k = none) : (i.above - i.below : Rat) * 2 ^ q ≤ 10 ^ k := by
  obtain ⟨hlower, hupper⟩ := inside_of_onGrid h
  have hunit := Binary64.two_zpow_pos q
  have hscaled {a b : Nat} (hab : a < b) : (a : Rat) * 2 ^ q < b * 2 ^ q :=
    mul_lt_mul_of_pos_right (by exact_mod_cast hab) hunit
  have hbelow := hscaled hvalue.1
  have habove := hscaled hvalue.2
  have hlow := lower_le (i := i) (q := q) (k := k)
  have hhigh := le_lower_succ (i := i) (q := q) (k := k)
  rw [Bool.eq_false_iff, Ne, inside_iff, Holds] at hlower hupper
  have hstep : ((i.lower q k + 1 : Nat) : Rat) * 10 ^ k = i.lower q k * 10 ^ k + 10 ^ k := by
    push_cast
    ring
  have hend : (i.lower q k : Rat) * 10 ^ k ≤ i.below * 2 ^ q ∧
      i.above * 2 ^ q ≤ (i.lower q k + 1 : Nat) * (10 : Rat) ^ k := by
    split at hlower <;> split at hupper
    · simp only [not_and, not_le] at hlower hupper
      exact ⟨le_of_not_ge fun hle => absurd (hlower hle) (not_lt.2 (hlow.trans habove.le)),
        (hupper (hbelow.le.trans hhigh)).le⟩
    · contradiction
    · contradiction
    · simp only [not_and, not_lt] at hlower hupper
      exact ⟨le_of_not_gt fun hlt => absurd (hlower hlt) (not_le.2 (hlow.trans_lt habove)),
        hupper (hbelow.trans_le hhigh)⟩
  rw [hstep] at hend
  linarith [hend.1, hend.2]

/-- Zeros at the end may go into the exponent. -/
theorem dropZeros_value (fuel n : Nat) (k : Int) :
    ((dropZeros fuel n k).1 : Rat) * 10 ^ (dropZeros fuel n k).2 = n * 10 ^ k := by
  induction fuel generalizing n k with
  | zero => rfl
  | succ fuel ih =>
    unfold dropZeros
    split
    · next h =>
      have hn : n = n / 10 * 10 := by omega
      rw [ih, zpow_add_one₀ (by norm_num)]
      nth_rewrite 2 [hn]
      push_cast
      ring
    · rfl

/-- A number is found on one of the grids if the finest of them has smaller steps than the interval. -/
theorem holds_firstGrid (hvalue : i.below < i.value ∧ i.value < i.above) (fuel : Nat)
    (hwidth : (10 : Rat) ^ (k - fuel) < (i.above - i.below) * 2 ^ q) :
    i.Holds q ((firstGrid i tie q (fuel + 1) k).1 * 10 ^ (firstGrid i tie q (fuel + 1) k).2) := by
  induction fuel generalizing k with
  | zero =>
    cases hgrid : i.onGrid tie q k with
    | some c =>
      simp only [firstGrid, hgrid, dropZeros_value]
      exact holds_of_onGrid hgrid
    | none =>
      have := width_le_of_onGrid hvalue hgrid
      rw [Nat.cast_zero, sub_zero] at hwidth
      linarith
  | succ fuel ih =>
    cases hgrid : i.onGrid tie q k with
    | some c =>
      rw [firstGrid, hgrid]
      simp only [dropZeros_value]
      exact holds_of_onGrid hgrid
    | none =>
      have hfuel : k - 1 - fuel = k - (fuel + 1 : Nat) := by
        push_cast
        ring
      rw [firstGrid, hgrid]
      exact ih (hfuel ▸ hwidth)

end Interval

/-! ## The first grid -/

/-- The guess at a logarithm is too large by one at most. -/
theorem ten_zpow_guess (b : Int) (hlow : -1100 < b) (hhigh : b < 1100) :
    (10 : Rat) ^ (b * 30103 / 100000 - 1) ≤ 2 ^ b := by
  have hpositive : ∀ n < 1100, 10 ^ (n * 30103 / 100000) ≤ 10 * 2 ^ n := by decide +kernel
  have hnegative : ∀ n < 1100, 2 ^ n ≤ 10 ^ ((n * 30103 + 99999) / 100000 + 1) := by decide +kernel
  by_cases hb : 0 ≤ b
  · obtain ⟨n, rfl⟩ := Int.eq_ofNat_of_zero_le hb
    have h : (10 : Rat) ^ (n * 30103 / 100000) ≤ 10 * 2 ^ n := by
      exact_mod_cast hpositive n (by omega)
    have hguess : (n * 30103 / 100000 : Int) = (n * 30103 / 100000 : Nat) := by push_cast; rfl
    rw [hguess, zpow_sub_one₀ (by norm_num), zpow_natCast, zpow_natCast]
    linarith
  · obtain ⟨n, rfl⟩ : ∃ n : Nat, b = -(n : Int) := ⟨(-b).toNat, by omega⟩
    have h : (2 : Rat) ^ n ≤ 10 ^ ((n * 30103 + 99999) / 100000 + 1) := by
      exact_mod_cast hnegative n (by omega)
    have hguess : (-(n : Int) * 30103 / 100000 - 1)
        = -(((n * 30103 + 99999) / 100000 + 1 : Nat) : Int) := by
      push_cast
      omega
    rw [hguess, zpow_neg, zpow_neg, zpow_natCast, zpow_natCast]
    exact inv_anti₀ (by positivity) h

theorem ten_zpow_decimalMagnitude {m : Nat} {q : Int} (hpos : 0 < m)
    (hlow : -1100 < m.log2 + q) (hhigh : m.log2 + q < 1100) :
    (10 : Rat) ^ decimalMagnitude m q ≤ m * 2 ^ q := by
  have hreaches {k : Int} (h : (powerOfTen k).1 * (powerOfTwo q).2
      ≤ m * (powerOfTwo q).1 * (powerOfTen k).2) : (10 : Rat) ^ k ≤ m * 2 ^ q := by
    have := (Interval.decimal_le_iff (q := q) (k := k) m 1).2
      (by rwa [Nat.one_mul, ← Nat.mul_assoc])
    rwa [Nat.cast_one, one_mul] at this
  unfold decimalMagnitude
  dsimp only
  split
  · exact (ten_zpow_guess _ hlow hhigh).trans (Binary64.zpow_log2_le hpos q)
  · next hguess =>
    split
    · next hnext => exact hreaches (of_decide_eq_true hnext)
    · rw [not_not] at hguess
      exact hreaches (of_decide_eq_true hguess)

/-! ## Digits of a machine number -/

namespace Binary64

variable {m : Nat} {e : Int} {v : Rat}

/-- The numbers below a power of two lie closer together. -/
def isNarrow (m : Nat) (e : Int) : Bool := decide (m = leadingBit ∧ leastExponent < e)

theorem below_around (hpos : 0 < m) (narrow : Bool) :
    ((Interval.around m narrow).below : Rat) = 4 * m - if narrow then 1 else 2 := by
  cases narrow
  · exact (Nat.cast_sub (by omega : 2 ≤ 4 * m)).trans (by push_cast; rfl)
  · exact (Nat.cast_sub (by omega : 1 ≤ 4 * m)).trans (by push_cast; rfl)

theorem above_around (narrow : Bool) :
    ((Interval.around m narrow).above : Rat) = 4 * m + 2 := by
  simp [Interval.around]

theorem quarter_zpow (e : Int) : (2 : Rat) ^ (e - 2) = 2 ^ e / 4 := by
  rw [zpow_sub₀ (by norm_num)]
  norm_num

/-- The interval in which digits are looked for is that of the machine number. -/
theorem roundsTo_of_holds (hm : Canonical m e)
    (h : (Interval.around m (isNarrow m e)).Holds (e - 2) v) : RoundsTo v m e := by
  have hpos := two_zpow_pos e
  have hless : (if isNarrow m e then 1 else 2 : Rat) * 2 ^ e ≤ 2 * 2 ^ e :=
    mul_le_mul_of_nonneg_right (by split <;> norm_num) hpos.le
  rw [Interval.Holds, below_around hm.pos, above_around, quarter_zpow] at h
  have hwithin : (4 * m - if isNarrow m e then 1 else 2) * (2 ^ e / 4) ≤ v ∧
      v ≤ (4 * m + 2) * (2 ^ e / 4) := by
    split at h
    · exact h
    · exact ⟨h.1.le, h.2.le⟩
  refine ⟨?_, fun htie => ?_, fun hlead he => ?_⟩
  · rw [abs_le]
    constructor <;> linarith [hwithin.1, hwithin.2]
  · by_contra hodd
    rw [if_neg (by simpa [Interval.around] using hodd)] at h
    refine htie.not_lt ?_
    rw [abs_lt]
    constructor <;> linarith [h.1, h.2]
  · have hnarrow : isNarrow m e = true := decide_eq_true ⟨hlead, he⟩
    rw [hnarrow, if_pos rfl] at hwithin
    linarith [hwithin.1]

/-- Seventeen digits tell a machine number from its neighbours. -/
theorem zpow_sub_lt_width (hm : Canonical m e) {k : Int} (hk : (10 : Rat) ^ k ≤ m * 2 ^ e) :
    (10 : Rat) ^ (k - 16) < ((Interval.around m (isNarrow m e)).above
      - (Interval.around m (isNarrow m e)).below) * 2 ^ (e - 2) := by
  have hpos := two_zpow_pos e
  have hsteps : (10 : Rat) ^ (k - 16) * 10 ^ 16 = 10 ^ k := by
    rw [← zpow_natCast, ← zpow_add₀ (by norm_num)]
    norm_num
  have hhigh : (m : Rat) ≤ 2 ^ 53 := by exact_mod_cast hm.high.le
  rw [below_around hm.pos, above_around, quarter_zpow]
  cases hnarrow : isNarrow m e with
  | true =>
    have hlead : (m : Rat) = 2 ^ 52 := by exact_mod_cast (of_decide_eq_true hnarrow).1
    rw [hlead] at hk ⊢
    rw [if_pos rfl]
    linarith
  | false =>
    have := mul_le_mul_of_nonneg_right hhigh hpos.le
    rw [if_neg (by decide)]
    linarith

/-- The digits of a machine number are rounded to it. -/
theorem roundsTo_shortestDigits (hm : Canonical m e) (tie : Tie) :
    RoundsTo ((shortestDigits tie m e (isNarrow m e)).1
      * 10 ^ (shortestDigits tie m e (isNarrow m e)).2) m e := by
  have hlog : m.log2 ≤ 52 := by
    have := (Nat.log2_lt hm.pos.ne').2 (show m < 2 ^ 53 from hm.high)
    omega
  have hleast := hm.least
  have hmost := hm.most
  simp only [leastExponent] at hleast
  refine roundsTo_of_holds hm (Interval.holds_firstGrid ?_ 16 ?_)
  · have := hm.pos
    constructor
    · simp only [Interval.around]
      split <;> omega
    · simp only [Interval.around]
      omega
  · exact zpow_sub_lt_width hm (ten_zpow_decimalMagnitude hm.pos (by omega) (by omega))

end Binary64

end Number
end SpacerTurning
