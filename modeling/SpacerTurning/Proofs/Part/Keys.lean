import SpacerTurning.Proofs.Number.Difference
import SpacerTurning.Proofs.Number.Fixed
import SpacerTurning.Proofs.Part.Thickness
import SpacerTurning.Shop.Depths

/-!
Keys that are read again.

A key holds a number of hundredths of an inch, of whole millimetres or of tenths of a millimetre.  What is
read of it is the machine number closest to it, and that is written with the same digits.  Only the
form may be another: tenths are written where a length is not whole, before it is known whether a digit is
left behind the point.
-/

namespace SpacerTurning

open Number Number.Binary64

/-- The number that a key holds. -/
inductive KeyNumber where
  | hundredths (n : Nat)
  | millimetres (n : Nat)
  | tenths (n : Nat)
deriving DecidableEq

namespace KeyNumber

def units : KeyNumber → Nat
  | hundredths n | millimetres n | tenths n => n

def digits : KeyNumber → List Char
  | hundredths n => placed 2 n
  | millimetres n => Nat.toDigits 10 n
  | tenths n => placed 1 n

def isMetric : KeyNumber → Bool
  | hundredths _ => false
  | millimetres _ | tenths _ => true

def text (k : KeyNumber) : List Char := Thickness.withUnit k.digits k.isMetric

def decimal : KeyNumber → Decimal
  | hundredths n => { negative := false, digits := n, exponent := -2 }
  | millimetres n => { negative := false, digits := n, exponent := 0 }
  | tenths n => { negative := false, digits := n, exponent := -1 }

/-- The number of the key that a key is read as. -/
def normal : KeyNumber → KeyNumber
  | hundredths n => hundredths n
  | millimetres n => millimetres n
  | tenths n => if n % 10 = 0 then millimetres (n / 10) else tenths n

theorem plain_placed {places n : Nat} (hplaces : places ≠ 0) :
    ∀ c ∈ placed places n, c.isDigit = true ∨ c = '.' := by
  intro c hc
  rw [placed, if_neg hplaces, List.mem_append, List.mem_cons] at hc
  rcases hc with hc | rfl | hc
  · exact .inl (allDigits_toDigits _ c hc)
  · exact .inr rfl
  · exact .inl (allDigits_paddedDigits _ _ c hc)

theorem plain (k : KeyNumber) : ∀ c ∈ k.digits, c.isDigit = true ∨ c = '.' := by
  cases k with
  | hundredths n => exact plain_placed (by decide)
  | millimetres n => exact fun c hc => .inl (allDigits_toDigits n c hc)
  | tenths n => exact plain_placed (by decide)

theorem read_placed {places : Nat} (hplaces : 0 < places) (n : Nat) : Numeral.read (placed places n)
    = some (.decimal { negative := false, digits := n, exponent := -places }) := by
  have htext : placed places n = (WordNumber.ofPlaced false places n).text := if_neg hplaces.ne'
  rw [htext, WordNumber.read_text, WordNumber.decimal_ofPlaced hplaces]

theorem read_digits (k : KeyNumber) : Numeral.read k.digits = some (.decimal k.decimal) := by
  cases k with
  | hundredths n => exact read_placed (by decide) n
  | millimetres n =>
    show Numeral.read (Nat.toDigits 10 n) = _
    rw [Numeral.read_digits (allDigits_toDigits n) Nat.toDigits_ne_nil, ofDigits_toDigits]
    rfl
  | tenths n => exact read_placed (by decide) n

/-! ## The digits of a key -/

theorem ofDigits_eq_zero {ds : List Char} (h : ∀ c ∈ ds, c = '0') : ofDigits ds = 0 := by
  rw [List.eq_replicate_of_mem h, ofDigits_replicate_zero]

theorem toDigits_zero {n : Nat} (h : ∀ c ∈ Nat.toDigits 10 n, c = '0') : n = 0 := by
  rw [← ofDigits_toDigits n]
  exact ofDigits_eq_zero h

theorem placed_zero {places n : Nat} (hplaces : places ≠ 0)
    (h : ∀ c ∈ placed places n, c.isDigit = true → c = '0') : n = 0 := by
  rw [placed, if_neg hplaces] at h
  have hwhole : n / 10 ^ places = 0 := toDigits_zero fun c hc =>
    h c (List.mem_append_left _ hc) (allDigits_toDigits _ c hc)
  have hrest : n % 10 ^ places = 0 := by
    rw [← ofDigits_paddedDigits places (n % 10 ^ places)]
    exact ofDigits_eq_zero fun c hc =>
      h c (List.mem_append_right _ (List.mem_cons_of_mem _ hc)) (allDigits_paddedDigits _ _ c hc)
  rw [← Nat.div_add_mod n (10 ^ places), hwhole, hrest, Nat.mul_zero]

theorem units_eq_zero {k : KeyNumber} (h : ∀ c ∈ k.digits, c.isDigit = true → c = '0') :
    k.units = 0 := by
  cases k with
  | hundredths n => exact placed_zero (by decide) h
  | millimetres n => exact toDigits_zero fun c hc => h c hc (allDigits_toDigits n c hc)
  | tenths n => exact placed_zero (by decide) h

theorem units_eq_zero_iff (k : KeyNumber) :
    k.units = 0 ↔ ∀ c ∈ k.digits, c.isDigit = true → c = '0' := by
  refine ⟨fun h => ?_, units_eq_zero⟩
  have hzero : k.digits = ['0', '.', '0', '0'] ∨ k.digits = ['0'] ∨ k.digits = ['0', '.', '0'] := by
    cases k <;> cases h
    · exact .inl rfl
    · exact .inr (.inl rfl)
    · exact .inr (.inr rfl)
  rcases hzero with hzero | hzero | hzero <;> rw [hzero] <;> simp

theorem tenths_digits (n : Nat) :
    (tenths n).digits = Nat.toDigits 10 (n / 10) ++ ['.', (n % 10).digitChar] := by
  have hlast : ∀ d < 10, paddedDigits 1 d = [d.digitChar] := by decide
  show Nat.toDigits 10 (n / 10) ++ '.' :: paddedDigits 1 (n % 10) = _
  rw [hlast _ (Nat.mod_lt n (by decide))]

/-- Only tenths of a millimetre have a point before the unit. -/
theorem point_not_mem (n : Nat) : '.' ∉ (millimetres n).text := by
  intro h
  rcases List.mem_append.1 h with h | h
  · exact absurd (allDigits_toDigits n _ h) (by decide)
  · exact absurd (show '.' ∈ ['M', 'M'] from h) (by decide)

theorem normal_tenths (n : Nat) :
    (tenths n).normal = if n % 10 = 0 then millimetres (n / 10) else tenths n := rfl

theorem text_normal_eq_iff (k : KeyNumber) : k.normal.text = k.text ↔ k.normal = k := by
  refine ⟨fun h => ?_, fun h => by rw [h]⟩
  cases k with
  | hundredths n => rfl
  | millimetres n => rfl
  | tenths n =>
    by_cases hwhole : n % 10 = 0
    · rw [normal_tenths, if_pos hwhole] at h
      refine absurd ?_ (point_not_mem (n / 10))
      rw [h, text, tenths_digits]
      exact List.mem_append_left _ (List.mem_append_right _ List.mem_cons_self)
    · rw [normal_tenths, if_neg hwhole]

theorem normal_normal (k : KeyNumber) : k.normal.normal = k.normal := by
  cases k with
  | hundredths n => rfl
  | millimetres n => rfl
  | tenths n =>
    by_cases h : n % 10 = 0
    · rw [normal_tenths, if_pos h]
      rfl
    · rw [normal_tenths, if_neg h, normal_tenths, if_neg h]

theorem units_normal {k : KeyNumber} (h : k.units ≠ 0) : k.normal.units ≠ 0 := by
  cases k with
  | hundredths n => exact h
  | millimetres n => exact h
  | tenths n =>
    have hn : n ≠ 0 := h
    by_cases hwhole : n % 10 = 0
    · rw [normal_tenths, if_pos hwhole]
      show n / 10 ≠ 0
      omega
    · rwa [normal_tenths, if_neg hwhole]

end KeyNumber

namespace Thickness

/-- The key has a digit that is not zero, and does not end with a zero of the tenths of a millimetre. -/
def isSettled (key : String) : Bool :=
  key.toList.any (fun c => c.isDigit && c != '0') && !(['.', '0', 'M', 'M'].isSuffixOf key.toList)

theorem any_digit_iff {key : String} {k : KeyNumber} (hkey : key.toList = k.text) :
    key.toList.any (fun c => c.isDigit && c != '0') = true ↔ k.units ≠ 0 := by
  have hunit : (if k.isMetric then ['M', 'M'] else []).any (fun c => c.isDigit && c != '0') = false := by
    cases k.isMetric <;> decide
  rw [ne_eq, k.units_eq_zero_iff, hkey, KeyNumber.text, withUnit, List.any_append, hunit, Bool.or_false,
    List.any_eq_true]
  simp

theorem isSuffixOf_iff {key : String} {k : KeyNumber} (hkey : key.toList = k.text) :
    ['.', '0', 'M', 'M'].isSuffixOf key.toList = true ↔ k.normal ≠ k := by
  rw [List.isSuffixOf_iff_suffix, hkey]
  cases k with
  | hundredths n =>
    refine iff_of_false (fun h => ?_) (fun h => h rfl)
    have hM : 'M' ∈ (KeyNumber.hundredths n).text := h.subset (by decide)
    rcases List.mem_append.1 hM with hM | hM
    · exact absurd (KeyNumber.plain _ _ hM) (by decide)
    · exact List.not_mem_nil hM
  | millimetres n =>
    refine iff_of_false (fun h => ?_) (fun h => h rfl)
    exact KeyNumber.point_not_mem n (h.subset (by decide))
  | tenths n =>
    have htext : (KeyNumber.tenths n).text
        = Nat.toDigits 10 (n / 10) ++ ['.', (n % 10).digitChar, 'M', 'M'] := by
      rw [KeyNumber.text, KeyNumber.tenths_digits]
      exact List.append_assoc _ _ _
    have hlast : ['.', '0', 'M', 'M'] <:+ (KeyNumber.tenths n).text ↔ n % 10 = 0 := by
      rw [htext]
      refine ⟨fun h => ?_, fun h => ?_⟩
      · have hsame := (List.suffix_of_suffix_length_le h (List.suffix_append _ _) le_rfl).eq_of_length rfl
        have hdigit : (n % 10).digitChar = '0' := by simpa using hsame.symm
        exact Nat.digitChar_eq_zero.1 hdigit
      · rw [h]
        exact List.suffix_append _ _
    rw [hlast, KeyNumber.normal_tenths]
    split
    · next hwhole => exact iff_of_true hwhole (fun h => by cases h)
    · next hwhole => exact iff_of_false hwhole (fun h => h rfl)

/-! ## Keys of lengths -/

/-- Some length has this number in its key. -/
def IsHeld : KeyNumber → Prop
  | .hundredths n => ∃ (x : Float) (v : Rat), HasValue x v ∧ HasPlaces v 2 n
  | .millimetres n =>
    n = 0 ∨ n = wholeLimit.toNat ∨ n ≤ wholeLimit.toNat ∧ ∃ x : Float, HasValue x n
  | .tenths n => ∃ (x : Float) (v : Rat), HasValue x v ∧ (∀ N : Nat, v ≠ N) ∧ HasPlaces v 1 n

variable {x : Float} {v : Rat} {n : Nat}

theorem key_of_hundredths (hfixed : (Scalar.fixed 2 x).toList = placed 2 n) :
    (ofInches x).key.toList = (KeyNumber.hundredths n).text := by
  rw [ofInches, hfixed]
  exact (List.append_nil _).symm

theorem key_of_round (hpart : wholePart (round x) = n)
    (hwhole : Scalar.magnitude (x - round x) < (0.000000001 : Float)) :
    (ofMillimetres x).key.toList = (KeyNumber.millimetres (min n wholeLimit.toNat)).text := by
  have hwithin : Scalar.wholeWithin (-wholeLimit - 1) wholeLimit (Scalar.round x)
      = ((min n wholeLimit.toNat : Nat) : Int) := by
    have hpart : Scalar.wholePart (Scalar.round x) = (n : Int) := hpart
    rw [Scalar.wholeWithin, hpart, wholeLimit]
    omega
  rw [key_of_whole hwhole, hwithin, String.toList_append]
  exact congrArg (· ++ ['M', 'M']) Nat.toList_repr

theorem key_of_tenths (hwhole : ¬ Scalar.magnitude (x - round x) < (0.000000001 : Float))
    (hfixed : (Scalar.fixed 1 x).toList = placed 1 n) :
    (ofMillimetres x).key.toList = (KeyNumber.tenths n).text := by
  rw [key_of_not_whole hwhole, String.toList_append, hfixed]
  rfl

theorem key_of_hasValue (h : HasValue x n) :
    (ofMillimetres x).key.toList = (KeyNumber.millimetres (min n wholeLimit.toNat)).text :=
  key_of_round h.round_of_whole.1 h.round_of_whole.2

/-- The key of a thickness that was read is the text of a number that some length has in its key. -/
theorem exists_key {text : String} {t : Thickness Float} (h : read text = .ok t) :
    ∃ k, IsHeld k ∧ t.key.toList = k.text := by
  obtain ⟨x, hx, rfl | rfl⟩ := exists_of_read h
  · obtain ⟨v, hv⟩ := isLength_iff_exists_hasValue.1 hx
    obtain ⟨n, hplaces, hfixed⟩ := hv.exists_fixed 2
    exact ⟨.hundredths n, ⟨x, v, hv, hplaces⟩, key_of_hundredths hfixed⟩
  · obtain ⟨v, hv⟩ := isLength_iff_exists_hasValue.1 hx
    by_cases hwhole : Scalar.magnitude (x - round x) < (0.000000001 : Float)
    · obtain ⟨n, -, hpart, hround⟩ := hv.exists_round
      refine ⟨_, ?_, key_of_round hpart hwhole⟩
      rcases le_total n wholeLimit.toNat with hle | hle
      · rw [min_eq_left hle]
        rcases hround with ⟨hzero, -⟩ | hround
        · exact .inl hzero
        · exact .inr (.inr ⟨hle, round x, hround⟩)
      · rw [min_eq_right hle]
        exact .inr (.inl rfl)
    · obtain ⟨n, hplaces, hfixed⟩ := hv.exists_fixed 1
      refine ⟨.tenths n, ⟨x, v, hv, fun N hN => hwhole ?_, hplaces⟩, key_of_tenths hwhole hfixed⟩
      exact (show HasValue x N from hN ▸ hv).round_of_whole.2

/-! ## Keys that are read -/

theorem read_text {text : String} {k : KeyNumber} (htext : text.toList = k.text) :
    (read text : Except ThicknessFault (Thickness Float)) =
      if isLength (ofDecimal k.decimal) then
        .ok (if k.isMetric then ofMillimetres (ofDecimal k.decimal) else ofInches (ofDecimal k.decimal))
      else .error (.notPositive text) :=
  read_withUnit k.plain k.read_digits htext

/-- A key that stands for nothing is refused. -/
theorem read_of_units_eq_zero {text : String} {k : KeyNumber} (htext : text.toList = k.text)
    (hzero : k.units = 0) :
    (read text : Except ThicknessFault (Thickness Float)) = .error (.notPositive text) := by
  have hvalue : ofDecimal k.decimal = 0 := by
    cases k <;> cases hzero <;> rfl
  rw [read_text htext, hvalue, if_neg]
  intro hlength
  obtain ⟨v, m, e, hm, hu, -⟩ := isLength_iff_exists_hasValue.1 hlength
  obtain ⟨s, hs⟩ := isZero_zero
  rw [hs] at hu
  cases hu

/-- What is read of a number above zero is a length. -/
theorem read_eq_ok {text : String} {k : KeyNumber} (htext : text.toList = k.text)
    (h : HasValue (ofDecimal k.decimal) v) :
    read text = .ok (if k.isMetric then ofMillimetres (ofDecimal k.decimal)
      else ofInches (ofDecimal k.decimal)) := by
  rw [read_text htext, if_pos (isLength_iff_exists_hasValue.2 ⟨v, h⟩)]

/-- The number closest to some places is written with these places if some number is. -/
theorem exists_ofDecimal_fixed {k : Nat} (hk : k ≤ 4) (h : HasValue x v) (hn : n ≠ 0)
    (hplaces : HasPlaces v k n) :
    ∃ w, HasValue (ofDecimal ⟨false, n, -k⟩) w ∧ HasPlaces w k n ∧
      (Scalar.fixed k (ofDecimal ⟨false, n, -k⟩)).toList = placed k n := by
  obtain ⟨w, hw, hcloser⟩ := h.exists_ofDecimal hk (Nat.pos_of_ne_zero hn) hplaces.near
  have hplaces' : HasPlaces w k n := by
    refine ⟨hcloser.trans hplaces.near, fun htie => hplaces.even ?_⟩
    exact le_antisymm hplaces.near (htie ▸ hcloser)
  exact ⟨w, hw, hplaces', hw.fixed_eq hplaces'⟩

/-- A number that is not whole is small, so the whole number next to it is a machine number. -/
theorem hasValue_of_near (h : HasValue x v) (hwhole : ∀ N : Nat, v ≠ N) (hn : 0 < n)
    (hnear : |v - n| ≤ 1 / 2) : n < 2 ^ 53 ∧ ∃ y : Float, HasValue y n := by
  obtain ⟨m, e, -, hm, rfl⟩ := h.exists_decode
  have he : e < 0 := by
    by_contra hpos
    obtain ⟨j, rfl⟩ := Int.eq_ofNat_of_zero_le (not_lt.1 hpos)
    exact hwhole (m * 2 ^ j) (by rw [zpow_natCast]; push_cast; rfl)
  have hhalf : (2 : Rat) ^ e ≤ 1 / 2 := by
    have := zpow_le_zpow_right₀ (show (1 : Rat) ≤ 2 by norm_num) (show e ≤ -1 by omega)
    norm_num at this ⊢
    exact this
  have hbound : (m : Rat) * 2 ^ e ≤ 2 ^ (53 : Int) * (1 / 2) :=
    mul_le_mul hm.le_two_pow hhalf (two_zpow_pos e).le (by positivity)
  have hless : (n : Rat) < 2 ^ 53 := by
    have hbelow := (abs_le.1 hnear).1
    linarith
  have hless : n < 2 ^ 53 := by exact_mod_cast hless
  obtain ⟨m', e', hm', hu, -, -, hvalue⟩ := isWhole_ofWhole false hn hless
  exact ⟨hless, ofWhole false n, m', e', hm', hu, hvalue⟩

theorem hasValue_wholeLimit : HasValue (ofDecimal ⟨false, wholeLimit.toNat, 0⟩) (2 ^ 63 : Nat) := by
  have hread := HasValue.of_decode (x := ofDecimal ⟨false, wholeLimit.toNat, 0⟩)
    (m := leadingBit) (e := 11) (by decide) (by decide +kernel)
  norm_num [leadingBit] at hread ⊢
  exact hread

/-- Tenths that make up a whole number are read as that number. -/
theorem exists_read_whole_tenths {text : String} {N : Nat} (hk : IsHeld (.tenths (10 * N)))
    (htext : text.toList = (KeyNumber.tenths (10 * N)).text) (hN : 0 < N) :
    ∃ t : Thickness Float, read text = .ok t ∧ t.key.toList = (KeyNumber.millimetres N).text := by
  obtain ⟨x, v, hv, hwhole, hplaces⟩ := hk
  have hnear : |v - N| ≤ 1 / 2 := by
    have hnear := hplaces.near
    push_cast at hnear
    rw [abs_le] at hnear ⊢
    constructor <;> linarith
  obtain ⟨hless, y, hy⟩ := hasValue_of_near hv hwhole hN hnear
  have hread : ofDecimal (KeyNumber.tenths (10 * N)).decimal = y := hy.ofDecimal_eq rfl (by
    simp [KeyNumber.decimal, valueOf]
    field_simp)
  have hvalue : HasValue (ofDecimal (KeyNumber.tenths (10 * N)).decimal) N := hread ▸ hy
  refine ⟨_, read_eq_ok htext hvalue, (key_of_hasValue hvalue).trans ?_⟩
  rw [min_eq_left]
  rw [wholeLimit]
  omega

/-- Other tenths stay: what is read of them is too far from a whole number to be written as one. -/
theorem exists_read_tenths {text : String} {n : Nat} (hk : IsHeld (.tenths n))
    (htext : text.toList = (KeyNumber.tenths n).text) (hten : n % 10 ≠ 0) :
    ∃ t : Thickness Float, read text = .ok t ∧ t.key.toList = (KeyNumber.tenths n).text := by
  obtain ⟨x, v, hv, -, hplaces⟩ := hk
  have hunits : n ≠ 0 := by
    rintro rfl
    exact hten rfl
  obtain ⟨w, hw, hplaces, hfixed⟩ := exists_ofDecimal_fixed (n := n) (by decide) hv hunits hplaces
  refine ⟨_, read_eq_ok htext hw, key_of_tenths (hw.round_of_far fun N => ?_) hfixed⟩
  -- The tenth is a tenth away at least, and what was read is at most half of one from it.
  have htenth : (1 : Rat) ≤ |(n : Rat) - 10 * N| := by
    exact_mod_cast Int.one_le_abs (show (n : Int) - 10 * N ≠ 0 by omega)
  have hway := abs_sub_le (n : Rat) (w * 10) (10 * N)
  rw [abs_sub_comm _ (w * 10), mul_comm w 10, ← mul_sub, abs_mul,
    abs_of_pos (by norm_num : (0 : Rat) < 10), mul_comm 10 w] at hway
  have hnear := hplaces.near
  rw [pow_one] at hnear
  linarith

/-- What is read of a key is written with the same digits. -/
theorem exists_read_key {text : String} {k : KeyNumber} (hk : IsHeld k) (htext : text.toList = k.text)
    (hunits : k.units ≠ 0) :
    ∃ t : Thickness Float, read text = .ok t ∧ t.key.toList = k.normal.text := by
  cases k with
  | hundredths n =>
    obtain ⟨x, v, hv, hplaces⟩ := hk
    obtain ⟨w, hw, -, hfixed⟩ := exists_ofDecimal_fixed (n := n) (by decide) hv hunits hplaces
    exact ⟨_, read_eq_ok htext hw, key_of_hundredths hfixed⟩
  | millimetres n =>
    rcases hk with rfl | rfl | ⟨hle, x, hx⟩
    · exact absurd rfl hunits
    · refine ⟨_, read_eq_ok htext hasValue_wholeLimit, (key_of_hasValue hasValue_wholeLimit).trans ?_⟩
      rw [min_eq_right (by decide)]
      rfl
    · have hread : ofDecimal (KeyNumber.millimetres n).decimal = x := hx.ofDecimal_eq rfl (by
        simp [KeyNumber.decimal, valueOf])
      have hvalue : HasValue (ofDecimal (KeyNumber.millimetres n).decimal) n := hread ▸ hx
      refine ⟨_, read_eq_ok htext hvalue, (key_of_hasValue hvalue).trans ?_⟩
      rw [min_eq_left hle]
      rfl
  | tenths n =>
    by_cases hten : n % 10 = 0
    · obtain ⟨N, rfl⟩ := Nat.dvd_of_mod_eq_zero hten
      rw [KeyNumber.normal_tenths, if_pos hten, Nat.mul_div_cancel_left N (by decide)]
      refine exists_read_whole_tenths hk htext ?_
      have : 10 * N ≠ 0 := hunits
      omega
    · rw [KeyNumber.normal_tenths, if_neg hten]
      exact exists_read_tenths hk htext hten

theorem isSettled_iff {key : String} {k : KeyNumber} (hkey : key.toList = k.text) :
    isSettled key = true ↔ k.units ≠ 0 ∧ k.normal = k := by
  rw [isSettled, Bool.and_eq_true, any_digit_iff hkey, Bool.not_eq_true', ← Bool.not_eq_true,
    isSuffixOf_iff hkey, not_not]

/-- What is read of a key has the key's normal form, unless that stands for nothing. -/
theorem key_of_read_key {text : String} {again : Thickness Float} {k : KeyNumber} (hk : IsHeld k)
    (htext : text.toList = k.text) (h : read text = .ok again) :
    k.units ≠ 0 ∧ again.key.toList = k.normal.text := by
  have hunits : k.units ≠ 0 := fun hzero => by
    rw [read_of_units_eq_zero htext hzero] at h
    cases h
  obtain ⟨t, ht, hkey⟩ := exists_read_key hk htext hunits
  obtain rfl := Except.ok.inj (ht.symm.trans h)
  exact ⟨hunits, hkey⟩

/-- What is read of a key has that key exactly if it is settled. -/
theorem exists_read_key_eq_iff {text : String} {t : Thickness Float} (h : read text = .ok t) :
    (∃ again : Thickness Float, read t.key = .ok again ∧ again.key = t.key) ↔
      isSettled t.key = true := by
  obtain ⟨k, hk, hkey⟩ := exists_key h
  rw [isSettled_iff hkey]
  constructor
  · rintro ⟨again, hread, hsame⟩
    obtain ⟨hunits, hagain⟩ := key_of_read_key hk hkey hread
    rw [hsame, hkey] at hagain
    exact ⟨hunits, k.text_normal_eq_iff.1 hagain.symm⟩
  · rintro ⟨hunits, hnormal⟩
    obtain ⟨again, hread, hagain⟩ := exists_read_key hk hkey hunits
    rw [hnormal, ← hkey] at hagain
    exact ⟨again, hread, String.toList_inj.1 hagain⟩

/-- A key that was read is settled. -/
theorem isSettled_of_read_key {text : String} {t again : Thickness Float} (h : read text = .ok t)
    (hagain : read t.key = .ok again) : isSettled again.key = true := by
  obtain ⟨k, hk, hkey⟩ := exists_key h
  obtain ⟨hunits, hnormal⟩ := key_of_read_key hk hkey hagain
  exact (isSettled_iff hnormal).2 ⟨KeyNumber.units_normal hunits, k.normal_normal⟩

/-- A key that was written for a length is read as that key again if it stands for something and shows
no tenth that is zero; and what is read of a key keeps its own key from then on. -/
theorem read_key_iff {text : String} {t : Thickness Float} (h : read text = .ok t) :
    ((∃ again : Thickness Float, read t.key = .ok again ∧ again.key = t.key) ↔
        isSettled t.key = true) ∧
      ∀ again : Thickness Float, read t.key = .ok again →
        ∃ third : Thickness Float, read again.key = .ok third ∧ third.key = again.key :=
  ⟨exists_read_key_eq_iff h, fun _ hagain =>
    (exists_read_key_eq_iff hagain).2 (isSettled_of_read_key h hagain)⟩

theorem read_key_iff_of_hundredths : ∃ t : Thickness Float, read "1.496" = .ok t ∧ t.key = "1.50" ∧
    ∃ again : Thickness Float, read t.key = .ok again ∧ again.key = t.key :=
  have h : read "1.496" = .ok (ofInches (ofDecimal ⟨false, 1496, -3⟩)) := by decide +kernel
  ⟨_, h, by decide +kernel, (read_key_iff h).1.2 (by decide +kernel)⟩

/-- Not a whole number of millimetres, so written with a tenth; but the tenth is zero.  The row for that
many millimetres is found only from what is read of the key. -/
theorem not_read_key_of_tenth : ∃ t again : Thickness Float,
    read "14.96mm" = .ok t ∧ t.key = "15.0MM" ∧ read t.key = .ok again ∧ again.key = "15MM" ∧
      (Depths.row? t.key : Option (Depths Float)) = none ∧
      (Depths.row? again.key : Option (Depths Float)).isSome = true :=
  ⟨ofMillimetres (ofDecimal ⟨false, 1496, -2⟩), ofMillimetres (ofDecimal ⟨false, 150, -1⟩),
    by decide +kernel⟩

end Thickness
end SpacerTurning
