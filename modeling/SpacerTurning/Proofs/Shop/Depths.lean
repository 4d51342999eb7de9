import SpacerTurning.Proofs.Number.Fixed
import SpacerTurning.Proofs.Part.Refusal
import SpacerTurning.Proofs.Part.Thickness
import SpacerTurning.Shop.Depths

/-!
Depths by thickness.

Rows of the depth table are looked up by a text, and what is computed with beside them is the
thickness in inches.  A key that a thickness was given holds its digits: hundredths of an inch, or
whole millimetres.  Keys in inches are rounded and their rows are not, and with millimetres it is the
other way round.  So the drill of a row goes through the thickness by the breakthrough, give or take
half a hundredth.
-/

namespace SpacerTurning

open Number

/-- What the digits of a key stand for, in inches. -/
def Thickness.keyInches (key : String) : Rat :=
  let digits := ofDigits (key.toList.filter Char.isDigit)
  if ['M', 'M'].isSuffixOf key.toList then digits / 25.4 else digits / 100

theorem Depths.mem_of_row? {key : String} {depths : Depths Rat} (h : row? key = some depths) :
    (key, depths) ∈ (table : List (String × Depths Rat)) := by
  rw [row?, List.lookup_eq_findSome?] at h
  obtain ⟨row, hrow, hkey⟩ := List.exists_of_findSome?_eq_some h
  obtain ⟨rfl, rfl⟩ : key = row.1 ∧ row.2 = depths := by simpa using hkey
  exact hrow

/-- The drill of a row goes through what its key stands for: by exactly the breakthrough in inches, and
nearly in millimetres, which are a small whole number. -/
theorem Depths.of_row? {key : String} {depths : Depths Rat} (h : row? key = some depths) :
    (['M', 'M'].isSuffixOf key.toList = false →
        depths.drill + (Thickness.keyInches key + 0.15) = 0) ∧
      (['M', 'M'].isSuffixOf key.toList = true →
        |depths.drill + (Thickness.keyInches key + 0.15)| ≤ 0.005 ∧
          '.' ∉ key.toList ∧ ofDigits (key.toList.filter Char.isDigit) ≤ 30) := by
  have hall : ∀ row ∈ (table : List (String × Depths Rat)),
      (['M', 'M'].isSuffixOf row.1.toList = false →
          row.2.drill + (Thickness.keyInches row.1 + 0.15) = 0) ∧
        (['M', 'M'].isSuffixOf row.1.toList = true →
          |row.2.drill + (Thickness.keyInches row.1 + 0.15)| ≤ 0.005 ∧
            '.' ∉ row.1.toList ∧ ofDigits (row.1.toList.filter Char.isDigit) ≤ 30) := by
    decide +kernel
  exact hall (key, depths) (mem_of_row? h)

/-- The profile of a row stays well above its drill, and below the face. -/
theorem Depths.profile_of_row? {key : String} {depths : Depths Rat} (h : row? key = some depths) :
    depths.drill + 0.4 ≤ depths.profile ∧ depths.profile < 0 := by
  have hall : ∀ row ∈ (table : List (String × Depths Rat)),
      row.2.drill + 0.4 ≤ row.2.profile ∧ row.2.profile < 0 := by
    decide +kernel
  exact hall (key, depths) (mem_of_row? h)

namespace Thickness

theorem filter_isDigit {ds : List Char} (h : AllDigits ds) : ds.filter Char.isDigit = ds :=
  List.filter_eq_self.2 h

/-- A number above zero with two places is written as its hundredths. -/
theorem exists_fixed_two {x : Rat} (hpos : 0 < x) :
    ∃ n : Nat, |(n : Rat) - x * 100| ≤ 1 / 2 ∧
      (Scalar.fixed 2 x).toList = Nat.toDigits 10 (n / 100) ++ '.' :: paddedDigits 2 (n % 100) := by
  obtain ⟨n, hnear, htext⟩ := Exact.exists_fixed (show 0 < 2 by decide) x
  have hsign : decide (x < 0) = false := decide_eq_false (not_lt.2 hpos.le)
  refine ⟨n, ?_, ?_⟩
  · rw [abs_of_pos hpos] at hnear
    norm_num at hnear ⊢
    exact hnear
  · rw [htext, hsign]
    rfl

/-- A key in inches holds no unit. -/
theorem isSuffixOf_key_ofInches {inches : Rat} (hpos : 0 < inches) :
    ['M', 'M'].isSuffixOf (ofInches inches).key.toList = false := by
  obtain ⟨n, -, hkey⟩ := exists_fixed_two hpos
  have hdigit {ds : List Char} (hds : AllDigits ds) : 'M' ∉ ds := fun h =>
    absurd (hds _ h) (by decide)
  have hplain : 'M' ∉ (ofInches inches).key.toList := by
    rw [ofInches, hkey]
    simp [hdigit (allDigits_toDigits _), hdigit (allDigits_paddedDigits 2 _)]
  rw [Bool.eq_false_iff]
  exact fun hmetric => hplain ((List.isSuffixOf_iff_suffix.1 hmetric).subset List.mem_cons_self)

/-- A key in inches holds the hundredths nearest to the thickness. -/
theorem abs_keyInches_ofInches {inches : Rat} (hpos : 0 < inches) :
    |keyInches (ofInches inches).key - inches| ≤ 0.005 := by
  obtain ⟨n, hnear, hkey⟩ := exists_fixed_two hpos
  have hdigits : ofDigits ((ofInches inches).key.toList.filter Char.isDigit) = n := by
    have hlen : (paddedDigits 2 (n % 100)).length = 2 :=
      length_paddedDigits (by decide) (Nat.mod_lt n (by decide))
    rw [ofInches, hkey, List.filter_append, List.filter_cons_of_neg (by decide),
      filter_isDigit (allDigits_toDigits _), filter_isDigit (allDigits_paddedDigits 2 _),
      ofDigits_append, ofDigits_toDigits, ofDigits_paddedDigits, hlen]
    omega
  simp only [keyInches, isSuffixOf_key_ofInches hpos, hdigits]
  rw [abs_le] at hnear ⊢
  norm_num
  constructor <;> linarith

/-- A number above zero is rounded to a natural number. -/
theorem exists_round_eq_natCast {x : Rat} (hpos : 0 < x) : ∃ n : Nat, Exact.round x = n := by
  obtain ⟨m, hm⟩ := Exact.exists_round_eq x
  have hnear := Exact.abs_round_sub_le x
  rw [hm, abs_le] at hnear
  have hbelow : (-1 : Rat) < m := by linarith
  have hbelow : -1 < m := by exact_mod_cast hbelow
  obtain ⟨n, rfl⟩ := Int.eq_ofNat_of_zero_le (a := m) (by omega)
  exact ⟨n, by rw [hm]; norm_cast⟩

/-- A key in millimetres has a point, or is the whole number next to the thickness, as far as it holds
that. -/
theorem key_ofMillimetres {mm : Rat} (hpos : 0 < mm) :
    '.' ∈ (ofMillimetres mm).key.toList ∨
      ∃ n : Nat, |mm - n| < 0.000000001 ∧ (ofMillimetres mm).key.toList
        = Nat.toDigits 10 (min n wholeLimit.toNat) ++ ['M', 'M'] := by
  obtain ⟨n, hn⟩ := exists_round_eq_natCast hpos
  by_cases hwhole : Scalar.magnitude (mm - Scalar.round mm) < 0.000000001
  · have hclose : |mm - n| < 0.000000001 := by
      have habs : Scalar.magnitude (mm - Scalar.round mm) = |mm - n| := by
        rw [Scalar.magnitude_rat, ← hn]
        rfl
      rwa [← habs]
    have hwithin : Scalar.wholeWithin (-wholeLimit - 1) wholeLimit (Scalar.round mm)
        = ((min n wholeLimit.toNat : Nat) : Int) := by
      have hpart : Scalar.wholePart (Scalar.round mm) = (n : Int) := by
        change (Exact.round mm).num.tdiv (Exact.round mm).den = n
        rw [hn]
        simp
      rw [Scalar.wholeWithin, hpart, wholeLimit]
      omega
    refine .inr ⟨n, hclose, ?_⟩
    simp only [ofMillimetres, if_pos hwhole, hwithin, String.toList_append]
    exact congrArg (· ++ ['M', 'M']) Nat.toList_repr
  · refine .inl ?_
    have hpoint : '.' ∈ (Scalar.fixed 1 mm).toList := by
      change '.' ∈ (fixedText (mm.num < 0) mm.num.natAbs mm.den 1).toList
      unfold fixedText
      split <;> simp [placed]
    simp only [ofMillimetres, if_neg hwhole, String.toList_append]
    exact List.mem_append_left _ hpoint

/-- A key in millimetres that the depth table has holds the whole number nearest to the thickness. -/
theorem abs_keyInches_ofMillimetres {mm : Rat} (hpos : 0 < mm) {depths : Depths Rat}
    (hrow : Depths.row? (ofMillimetres mm).key = some depths) :
    ['M', 'M'].isSuffixOf (ofMillimetres mm).key.toList = true ∧
      |keyInches (ofMillimetres mm).key - (ofMillimetres mm).inches| ≤ 0.0001 := by
  have hinches : (ofMillimetres mm).inches = mm / 25.4 := rfl
  have hmetric : ['M', 'M'].isSuffixOf (ofMillimetres mm).key.toList = true := by
    rw [List.isSuffixOf_iff_suffix, ofMillimetres, String.toList_append]
    exact List.suffix_append _ _
  obtain ⟨-, hpoint, hsmall⟩ := (Depths.of_row? hrow).2 hmetric
  refine ⟨hmetric, ?_⟩
  rcases key_ofMillimetres hpos with h | ⟨n, hnear, hkey⟩
  · exact absurd h hpoint
  · have hdigits : ofDigits ((ofMillimetres mm).key.toList.filter Char.isDigit)
        = min n wholeLimit.toNat := by
      rw [hkey, List.filter_append, filter_isDigit (allDigits_toDigits _)]
      simpa using ofDigits_toDigits (min n wholeLimit.toNat)
    have hn : min n wholeLimit.toNat = n := by
      rw [hdigits] at hsmall
      rw [wholeLimit] at hsmall ⊢
      omega
    rw [abs_lt] at hnear
    simp only [keyInches, hmetric, hdigits, hn, hinches, if_true]
    rw [abs_le]
    norm_num at hnear ⊢
    constructor <;> linarith

/-- A thickness that was read has the key of its inches, or of its millimetres. -/
theorem of_read {text : String} {t : Thickness Rat} (h : read text = .ok t) :
    ∃ value : Rat, 0 < value ∧ (t = ofInches value ∨ t = ofMillimetres value) := by
  obtain ⟨value, hlength, h⟩ := exists_of_read h
  exact ⟨value, isLength_rat.1 hlength, h⟩

end Thickness

/-- Where the depth table has a row for a thickness that was read, its drill goes through the body by
the breakthrough, give or take half a hundredth. -/
theorem Depths.abs_drill_add_le {text : String} {t : Thickness Rat} (h : Thickness.read text = .ok t)
    {depths : Depths Rat} (hrow : row? t.key = some depths) :
    |depths.drill + (t.inches + 0.15)| ≤ 0.0051 := by
  obtain ⟨value, hpos, rfl | rfl⟩ := Thickness.of_read h
  · have hkey := Thickness.abs_keyInches_ofInches hpos
    have hdrill := (of_row? hrow).1 (Thickness.isSuffixOf_key_ofInches hpos)
    have hinches : (Thickness.ofInches value).inches = value := rfl
    rw [abs_le] at hkey ⊢
    rw [hinches]
    norm_num at hkey hdrill ⊢
    constructor <;> linarith
  · obtain ⟨hmetric, hkey⟩ := Thickness.abs_keyInches_ofMillimetres hpos hrow
    obtain ⟨hdrill, -⟩ := (of_row? hrow).2 hmetric
    rw [abs_le] at hkey hdrill ⊢
    norm_num at hkey hdrill ⊢
    constructor <;> linarith

end SpacerTurning
