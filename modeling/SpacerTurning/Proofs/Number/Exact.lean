import SpacerTurning.Number.Exact
import SpacerTurning.Proofs.Number.Word

/-!
Exact numbers at the precision of a program word.

Rounding an exact number to four places gives a whole number of ten-thousandths, at most half a
ten-thousandth away, and keeps the order.  Its word reads back as exactly that number.
-/

namespace SpacerTurning

open Number

theorem Scalar.ofNat_rat (n : Nat) : (Scalar.ofNat n : Rat) = n := by
  change Rat.ofScientific n false 0 = n
  rw [Rat.ofScientific_false_def, Nat.pow_zero, Nat.mul_one]

theorem Scalar.zero_rat : (Scalar.ofNat 0 : Rat) = 0 := by
  rw [ofNat_rat, Nat.cast_zero]

theorem Scalar.not_le_zero_rat {x : Rat} : ¬ x ≤ (Scalar.ofNat 0 : Rat) ↔ 0 < x := by
  rw [zero_rat, not_le]

theorem Scalar.magnitude_rat (x : Rat) : Scalar.magnitude x = |x| := by
  change Rat.abs x = |x|
  rcases le_total 0 x with h | h
  · rw [Rat.abs_of_nonneg h, abs_of_nonneg h]
  · rw [Rat.abs_of_nonpos h, abs_of_nonpos h]

/-! ## Largest and least values -/

namespace Scalar

/-- Choosing one of two values that is at least as good as both chooses the best one of a list. -/
theorem foldl_choice {f : Rat → Rat → Rat} {r : Rat → Rat → Prop} [IsPreorder Rat r]
    (hchoice : ∀ a b, f a b = a ∨ f a b = b) (hfirst : ∀ a b, r a (f a b))
    (hsecond : ∀ a b, r b (f a b)) (l : List Rat) (first : Rat) :
    l.foldl f first ∈ first :: l ∧ ∀ b ∈ first :: l, r b (l.foldl f first) := by
  induction l generalizing first with
  | nil => simpa using refl_of r first
  | cons c l ih =>
    obtain ⟨hmem, hbest⟩ := ih (f first c)
    have hmost := hbest _ List.mem_cons_self
    rw [List.foldl_cons]
    refine ⟨?_, fun b hb => ?_⟩
    · rcases List.mem_cons.1 hmem with heq | hmem
      · rw [heq]
        rcases hchoice first c with h | h
        · rw [h]
          exact List.mem_cons_self
        · rw [h]
          exact List.mem_cons_of_mem _ List.mem_cons_self
      · exact List.mem_cons_of_mem _ (List.mem_cons_of_mem _ hmem)
    · rcases List.mem_cons.1 hb with rfl | hb
      · exact trans_of r (hfirst b c) hmost
      · rcases List.mem_cons.1 hb with rfl | hb
        · exact trans_of r (hsecond first b) hmost
        · exact hbest b (List.mem_cons_of_mem _ hb)

theorem larger_rat (a b : Rat) : Scalar.larger a b = max a b := by
  unfold Scalar.larger
  by_cases h : a < b
  · rw [if_pos h, max_eq_right h.le]
  · rw [if_neg h, max_eq_left (not_lt.1 h), if_pos (beq_self_eq_true a)]

theorem smaller_rat (a b : Rat) : Scalar.smaller a b = min a b := by
  unfold Scalar.smaller
  by_cases h : b < a
  · rw [if_pos h, min_eq_right h.le]
  · rw [if_neg h, min_eq_left (not_lt.1 h), if_pos (beq_self_eq_true a)]

theorem of_greatest? {l : List Rat} {a : Rat} (h : Scalar.greatest? l = some a) :
    a ∈ l ∧ ∀ b ∈ l, b ≤ a := by
  have hlarger : (Scalar.larger : Rat → Rat → Rat) = max := by
    funext a b
    exact larger_rat a b
  cases l with
  | nil => cases h
  | cons first l =>
    cases h
    rw [hlarger]
    exact foldl_choice (r := (· ≤ ·)) max_choice le_max_left le_max_right l first

theorem of_least? {l : List Rat} {a : Rat} (h : Scalar.least? l = some a) :
    a ∈ l ∧ ∀ b ∈ l, a ≤ b := by
  have hsmaller : (Scalar.smaller : Rat → Rat → Rat) = min := by
    funext a b
    exact smaller_rat a b
  cases l with
  | nil => cases h
  | cons first l =>
    cases h
    rw [hsmaller]
    exact foldl_choice (r := (· ≥ ·)) min_choice min_le_left min_le_right l first

theorem least?_eq_of_mem {l : List Rat} {a : Rat} (hmem : a ∈ l) (hle : ∀ b ∈ l, a ≤ b) :
    Scalar.least? l = some a := by
  obtain ⟨b, hb⟩ : ∃ b, Scalar.least? l = some b := by
    cases l with
    | nil => cases hmem
    | cons first l => exact ⟨_, rfl⟩
  obtain ⟨hbmem, hble⟩ := of_least? hb
  rw [hb, le_antisymm (hble a hmem) (hle b hbmem)]

end Scalar

namespace Number
namespace Exact

/-! ## Rounding to whole numbers -/

theorem exists_round_eq (x : Rat) : ∃ n : Int, round x = n := by
  unfold round
  split
  · exact ⟨_, rfl⟩
  · exact ⟨_, rfl⟩

theorem abs_round_sub_le (x : Rat) : |round x - x| ≤ 1 / 2 := by
  unfold round
  split
  · have hle := Rat.le_ceil (x := x - 1 / 2)
    have hlt := Rat.ceil_lt (x := x - 1 / 2)
    rw [abs_le]
    constructor <;> linarith
  · have hle := Rat.floor_le (x + 1 / 2)
    have hlt := Rat.lt_floor (x := x + 1 / 2)
    rw [abs_le]
    constructor <;> linarith

theorem round_intCast (n : Int) : round (n : Rat) = n := by
  obtain ⟨m, hm⟩ := exists_round_eq (n : Rat)
  have h := abs_round_sub_le (n : Rat)
  rw [hm, abs_le] at h
  have hlow : (n : Rat) < m + 1 := by linarith
  have hhigh : (m : Rat) < n + 1 := by linarith
  have hlow : n < m + 1 := by exact_mod_cast hlow
  have hhigh : m < n + 1 := by exact_mod_cast hhigh
  rw [hm]
  congr 1
  omega

theorem round_mono {x y : Rat} (h : x ≤ y) : round x ≤ round y := by
  unfold round
  split
  · next hx =>
    split
    · have hle := Rat.le_ceil (x := y - 1 / 2)
      have : (x - 1 / 2).ceil ≤ (y - 1 / 2).ceil := Rat.ceil_le_iff.2 (by linarith)
      exact_mod_cast this
    · next hy =>
      have hlow : (x - 1 / 2).ceil ≤ 0 := Rat.ceil_le_iff.2 (by push_cast; linarith)
      have hhigh : 0 ≤ (y + 1 / 2).floor := Rat.le_floor_iff.2 (by push_cast; linarith)
      exact_mod_cast hlow.trans hhigh
  · next hx =>
    have hy : ¬ y < 0 := fun hy => hx (lt_of_le_of_lt h hy)
    rw [if_neg hy]
    have := Rat.floor_monotone (add_le_add_left h (1 / 2))
    exact_mod_cast this

/-- A half goes away from zero, so a shift across zero moves the rounded number at least as far. -/
theorem round_add_le (x : Rat) (n : Nat) : round x + n ≤ round (x + n) := by
  have hn : (0 : Rat) ≤ n := n.cast_nonneg
  unfold round
  split
  · next hx =>
    split
    · have hceil : (x - 1 / 2).ceil + (n : Int) ≤ (x + n - 1 / 2).ceil := by
        have hshift : x + n - 1 / 2 = x - 1 / 2 + ((n : Int) : Rat) := by
          push_cast
          ring
        rw [hshift, Rat.ceil_add_intCast]
      exact_mod_cast hceil
    · have hceil : (x - 1 / 2).ceil + (n : Int) ≤ (x + n + 1 / 2).floor := by
        rw [Rat.le_floor_iff]
        have hlt := Rat.ceil_lt (x := x - 1 / 2)
        push_cast
        linarith
      exact_mod_cast hceil
  · next hx =>
    rw [if_neg (by linarith)]
    have hfloor : (x + 1 / 2).floor + (n : Int) ≤ (x + n + 1 / 2).floor := by
      rw [Rat.le_floor_iff]
      have hle := Rat.floor_le (x + 1 / 2)
      push_cast
      linarith
    exact_mod_cast hfloor

/-! ## Rounding to four places -/

theorem round4_eq (x : Rat) : Scalar.round4 x = round (x * 10000) / 10000 := by
  change round (x * (Scalar.ofNat 10000 : Rat)) / (Scalar.ofNat 10000 : Rat) = _
  rw [Scalar.ofNat_rat]
  rfl

/-- A number of ten-thousandths. -/
def IsPlaced (x : Rat) : Prop := ∃ n : Int, x = n / 10000

theorem isPlaced_round4 (x : Rat) : IsPlaced (Scalar.round4 x) := by
  obtain ⟨n, hn⟩ := exists_round_eq (x * 10000)
  exact ⟨n, by rw [round4_eq, hn]⟩

theorem IsPlaced.round4 {x : Rat} (h : IsPlaced x) : Scalar.round4 x = x := by
  obtain ⟨n, rfl⟩ := h
  rw [round4_eq, div_mul_cancel₀ _ (by norm_num), round_intCast]

theorem round4_zero : (Scalar.round4 (0.0 : Rat) : Rat) = 0 := by
  have hplaced : IsPlaced 0.0 := ⟨0, by norm_num⟩
  rw [hplaced.round4]
  norm_num

theorem abs_round4_sub_le (x : Rat) : |Scalar.round4 x - x| ≤ 1 / 20000 := by
  have h := abs_round_sub_le (x * 10000)
  rw [round4_eq]
  rw [abs_le] at h ⊢
  constructor <;> linarith

theorem round4_mono {x y : Rat} (h : x ≤ y) :
    (Scalar.round4 x : Rat) ≤ Scalar.round4 y := by
  have hround : round (x * 10000) ≤ round (y * 10000) := round_mono (by linarith)
  rw [round4_eq, round4_eq]
  linarith

/-- Rounding both ends changes a gap by a ten-thousandth at most. -/
theorem round4_sub_le (x y : Rat) :
    (Scalar.round4 x - Scalar.round4 y : Rat) ≤ x - y + 1 / 10000 := by
  have hx := abs_le.1 (abs_round4_sub_le x)
  have hy := abs_le.1 (abs_round4_sub_le y)
  linarith

theorem IsPlaced.add {x y : Rat} (hx : IsPlaced x) (hy : IsPlaced y) : IsPlaced (x + y) := by
  obtain ⟨m, rfl⟩ := hx
  obtain ⟨n, rfl⟩ := hy
  exact ⟨m + n, by push_cast; ring⟩

theorem IsPlaced.neg {x : Rat} (hx : IsPlaced x) : IsPlaced (-x) := by
  obtain ⟨n, rfl⟩ := hx
  exact ⟨-n, by push_cast; ring⟩

theorem round4_add_le {d : Rat} (hd : IsPlaced d) (hzero : 0 ≤ d) (x : Rat) :
    Scalar.round4 x + d ≤ Scalar.round4 (x + d) := by
  obtain ⟨m, rfl⟩ := hd
  have hm : (0 : Rat) ≤ m := by linarith
  obtain ⟨n, rfl⟩ := Int.eq_ofNat_of_zero_le (by exact_mod_cast hm : 0 ≤ m)
  have hround := round_add_le (x * 10000) n
  have hshift : (x + ((n : Int) : Rat) / 10000) * 10000 = x * 10000 + n := by
    push_cast
    ring
  rw [round4_eq, round4_eq, hshift]
  push_cast
  linarith

/-- Two numbers of ten-thousandths that differ do so by at least one. -/
theorem IsPlaced.le_sub {x y : Rat} (hx : IsPlaced x) (hy : IsPlaced y) (h : x < y) :
    x + 1 / 10000 ≤ y := by
  obtain ⟨m, rfl⟩ := hx
  obtain ⟨n, rfl⟩ := hy
  have hlt : (m : Rat) < n := by linarith
  have hlt : m < n := by exact_mod_cast hlt
  have hle : (m : Rat) + 1 ≤ n := by exact_mod_cast hlt
  linarith

/-- What rounds to a number of ten-thousandths or less: what stays under the next half. -/
theorem round4_le_iff {x y : Rat} (hy : IsPlaced y) (hzero : 0 ≤ y) :
    Scalar.round4 x ≤ y ↔ x < y + 1 / 20000 := by
  obtain ⟨n, rfl⟩ := hy
  have hn : (0 : Rat) ≤ n := by linarith
  have hn : 0 ≤ n := by exact_mod_cast hn
  have hround : round (x * 10000) ≤ n ↔ x * 10000 < n + 1 / 2 := by
    unfold round
    split
    · next hx =>
      have hceil : (x * 10000 - 1 / 2).ceil ≤ 0 := Rat.ceil_le_iff.2 (by push_cast; linarith)
      have hbelow : ((x * 10000 - 1 / 2).ceil : Rat) ≤ n := by exact_mod_cast hceil.trans hn
      have hn : (0 : Rat) ≤ n := by exact_mod_cast hn
      exact iff_of_true hbelow (by linarith)
    · have hfloor : (x * 10000 + 1 / 2).floor < n + 1 ↔ x * 10000 + 1 / 2 < ((n + 1 : Int) : Rat) :=
        Rat.floor_lt_iff
      rw [Int.lt_add_one_iff] at hfloor
      push_cast at hfloor
      rw [Int.cast_le, hfloor]
      constructor <;> intro h <;> linarith
  rw [round4_eq]
  constructor
  · intro h
    have := hround.1 (by linarith)
    linarith
  · intro h
    have := hround.2 (by linarith)
    linarith

/-! ## Words -/

theorem ofDecimal_ofTenThousandths (negative : Bool) (n : Nat) :
    ofDecimal (WordNumber.ofTenThousandths negative n).decimal
      = (if negative then -(n : Rat) else n) / 10000 := by
  have hdigits := WordNumber.digits_ofTenThousandths negative n
  have hlen := WordNumber.length_fraction_le negative n
  set w := WordNumber.ofTenThousandths negative n with hw
  have hsize : (w.decimal.digits : Rat) * (10 : Rat) ^ w.decimal.exponent = n / 10000 := by
    have hpow : (10 : Rat) ^ (4 - w.fraction.length) * 10 ^ w.fraction.length = 10000 := by
      rw [← pow_add, Nat.sub_add_cancel hlen]
      norm_num
    have hexp : w.decimal.exponent = -(w.fraction.length : Int) := rfl
    have hn : (n : Rat) = w.decimal.digits * 10 ^ (4 - w.fraction.length) := by
      exact_mod_cast hdigits.symm
    rw [hexp, zpow_neg, zpow_natCast, hn, ← hpow]
    field_simp
  have hsign : w.decimal.negative = negative := rfl
  simp only [ofDecimal, hsize, hsign]
  split
  · ring
  · rfl

/-- A number of ten-thousandths is written with exactly that many. -/
theorem dropTrailingZeros_fixed (n : Int) :
    Word.dropTrailingZeros (Scalar.fixed 4 ((n : Rat) / 10000)).toList
      = (WordNumber.ofTenThousandths (n < 0) n.natAbs).text := by
  set r := (n : Rat) / 10000 with hr
  have hfixed : Scalar.fixed 4 r = fixedText (r.num < 0) r.num.natAbs r.den 4 := rfl
  have hsign : decide (r.num < 0) = decide (n < 0) := by
    have hiff : r < 0 ↔ (n : Rat) < 0 := by
      rw [hr, div_neg_iff]
      norm_num
    exact decide_eq_decide.2 (Rat.num_neg.trans (hiff.trans Int.cast_lt_zero))
  have hcross : r.num * 10000 = n * r.den := by
    have hden : (r.den : Rat) ≠ 0 := by exact_mod_cast r.den_ne_zero
    have heq : (r.num : Rat) / r.den = n / 10000 := by rw [Rat.num_div_den]
    rw [div_eq_div_iff hden (by norm_num)] at heq
    exact_mod_cast heq
  have hsize : r.num.natAbs * 10 ^ 4 = n.natAbs * r.den := by
    have := congrArg Int.natAbs hcross
    rwa [Int.natAbs_mul, Int.natAbs_mul, Int.natAbs_natCast] at this
  rw [hfixed, WordNumber.text_ofTenThousandths, hsize, roundHalfEven_mul _ _ r.den_pos, hsign]

/-- The word of a number holds the number of ten-thousandths nearest to it. -/
theorem exists_format_eq (x : Rat) : ∃ n : Int, Scalar.round4 x = (n : Rat) / 10000 ∧
    Word.format x = String.ofList (WordNumber.ofTenThousandths (n < 0) n.natAbs).text := by
  obtain ⟨n, hn⟩ := isPlaced_round4 x
  refine ⟨n, hn, ?_⟩
  have hzero : ((n : Rat) / 10000 == (Scalar.ofNat 0 : Rat)) = decide (n = 0) := by
    rw [Scalar.zero_rat, Bool.eq_iff_iff, decide_eq_true_iff]
    simp
  have hformat : Word.format x = if decide (n = 0) = true then "0." else
      String.ofList (Word.dropTrailingZeros (Scalar.fixed 4 ((n : Rat) / 10000)).toList) := by
    rw [← hzero, ← hn]
    simp only [Word.format]
    congr 1
    simp [Scalar.isFinite]
    rfl
  rw [hformat, dropTrailingZeros_fixed]
  by_cases h : n = 0
  · subst h
    decide
  · simp [h]

/-- Reading the word of a number gives the number at four places. -/
theorem read_format (x : Rat) :
    (Word.read (Word.format x).toList : Option Rat) = some (Scalar.round4 x) := by
  obtain ⟨n, hn, hformat⟩ := exists_format_eq x
  have hread := Word.read_text (α := Rat) (WordNumber.ofTenThousandths (n < 0) n.natAbs)
  have hvalue : Scalar.ofDecimal (WordNumber.ofTenThousandths (n < 0) n.natAbs).decimal
      = (Scalar.round4 x : Rat) := by
    have hsize : (n.natAbs : Rat) = |(n : Rat)| := by
      rw [Nat.cast_natAbs]
      simp
    have h := ofDecimal_ofTenThousandths (decide (n < 0)) n.natAbs
    refine h.trans ?_
    rw [hn, hsize]
    by_cases hneg : n < 0
    · have : (n : Rat) < 0 := by exact_mod_cast hneg
      simp [hneg, abs_of_neg this]
    · have : (0 : Rat) ≤ n := by exact_mod_cast not_lt.1 hneg
      simp [hneg, abs_of_nonneg this]
  rw [hformat, String.toList_ofList, hread, hvalue]
  rfl

theorem read_digits {ds : List Char} (hds : AllDigits ds) (hne : ds ≠ []) :
    (Word.read ds : Option Rat) = some (ofDigits ds : Rat) := by
  have hvalue : (Scalar.ofDecimal { negative := false, digits := ofDigits ds, exponent := 0 } : Rat)
      = ofDigits ds := by
    change Exact.ofDecimal _ = _
    simp [ofDecimal]
  rw [Word.read_digits hds hne, hvalue]
  rfl

theorem toNatWithin_natCast (limit n : Nat) :
    Scalar.toNatWithin limit (n : Rat) = min n limit := by
  have hwhole : Scalar.wholePart (n : Rat) = (n : Int) := by
    change (n : Rat).num.tdiv (n : Rat).den = n
    simp
  simp only [Scalar.toNatWithin, Scalar.wholeWithin, hwhole]
  omega

/-- A count of steps, as many as a number asks for and one at least. -/
theorem exists_count (limit : Nat) (x : Rat) : ∃ n : Nat, 0 < n ∧ x ≤ n ∧
    Scalar.toNatWithin limit (Scalar.larger (Scalar.ceiling x) 1.0) = min n limit := by
  obtain ⟨n, hn⟩ := Int.eq_ofNat_of_zero_le (a := max x.ceil 1) (by omega)
  have hvalue : Scalar.larger (Scalar.ceiling x) 1.0 = (n : Rat) := by
    have hone : (1.0 : Rat) = ((1 : Int) : Rat) := by norm_num
    show Scalar.larger (x.ceil : Rat) 1.0 = _
    rw [Scalar.larger_rat, hone, ← Int.cast_max, hn, Int.cast_natCast]
  have hle : x.ceil ≤ (n : Int) := by omega
  have hle : (x.ceil : Rat) ≤ n := by exact_mod_cast hle
  exact ⟨n, by omega, Rat.le_ceil.trans hle, by rw [hvalue, toNatWithin_natCast]⟩

/-! ## Text -/

theorem mem_positionalText {c : Char} {digits : Nat} {exponent : Int}
    (h : c ∈ positionalText "" digits exponent) : c.isDigit = true ∨ c = '.' := by
  have hdigits : ∀ c ∈ Nat.toDigits 10 digits, c.isDigit = true := allDigits_toDigits digits
  have hzeros : ∀ n, ∀ c ∈ List.replicate n '0', c.isDigit = true := by
    intro n c hc
    rw [List.eq_of_mem_replicate hc]
    decide
  simp only [positionalText] at h
  split at h
  · simp only [String.toList_empty, List.append_nil, List.mem_append] at h
    exact .inl (h.elim (hdigits c) (hzeros _ c))
  · split at h
    · rcases List.mem_append.1 h with h | h
      · exact .inl (hdigits c (List.mem_of_mem_take h))
      · rcases List.mem_cons.1 h with h | h
        · exact .inr h
        · exact .inl (hdigits c (List.mem_of_mem_drop h))
    · simp only [List.mem_cons, List.mem_append] at h
      rcases h with rfl | rfl | h | h
      · exact .inl (by decide)
      · exact .inr rfl
      · exact .inl (hzeros _ c h)
      · exact .inl (hdigits c h)

theorem feed_not_mem_signed {negative : Prop} [Decidable negative] {body : List Char}
    (h : '\n' ∉ body) : '\n' ∉ if negative then '-' :: body else body := by
  split
  · exact List.not_mem_cons_of_ne_of_not_mem (by decide) h
  · exact h

/-- The text of a number is one line. -/
theorem feed_not_mem_shortest (x : Rat) : '\n' ∉ (Scalar.shortest x).toList := by
  have hdigits (n : Nat) : '\n' ∉ Nat.toDigits 10 n := fun h =>
    absurd (allDigits_toDigits n _ h) (by decide)
  have hpositional (digits : Nat) (exponent : Int) :
      '\n' ∉ positionalText "" digits exponent := fun h => by
    rcases mem_positionalText h with h | h
    · exact absurd h (by decide)
    · exact absurd h (by decide)
  change '\n' ∉ (text x).toList
  simp only [text, String.toList_ofList]
  refine feed_not_mem_signed ?_
  split
  · split
    · decide
    · exact hpositional _ _
  · simp [hdigits]

end Exact
end Number
end SpacerTurning
