import SpacerTurning.Number.Places
import SpacerTurning.Number.Word
import SpacerTurning.Proofs.Text.Digits

/-!
Numbers as text.

The number of a program word is a sign, digits, a point and more digits.  Reading such a text gives
the digits back as one whole number, over the power of ten that the digits behind the point make.
Taking zeros off the end changes the digits and the power together, so that the value stays.
-/

namespace SpacerTurning
namespace Number

def AllDigits (ds : List Char) : Prop := ∀ c ∈ ds, c.isDigit = true

theorem allDigits_toDigits (n : Nat) : AllDigits (Nat.toDigits 10 n) := fun _ hc =>
  Nat.isDigit_of_mem_toDigits (by decide) (by decide) hc

theorem allDigits_paddedDigits (width n : Nat) : AllDigits (paddedDigits width n) := by
  intro c hc
  rcases List.mem_append.1 hc with hc | hc
  · rw [List.eq_of_mem_replicate hc]
    decide
  · exact allDigits_toDigits n c hc

theorem AllDigits.append {a b : List Char} (ha : AllDigits a) (hb : AllDigits b) :
    AllDigits (a ++ b) := fun c hc => (List.mem_append.1 hc).elim (ha c) (hb c)

/-! ## Digits as a number -/

theorem ofDigits_append (a b : List Char) :
    ofDigits (a ++ b) = ofDigits a * 10 ^ b.length + ofDigits b := by
  simp only [ofDigits]
  rw [Nat.ofDigitChars_append, Nat.ofDigitChars_eq_ofDigitChars_zero, Nat.mul_comm]

theorem ofDigits_replicate_zero (n : Nat) : ofDigits (List.replicate n '0') = 0 := by
  simp [ofDigits]

theorem ofDigits_paddedDigits (width n : Nat) : ofDigits (paddedDigits width n) = n := by
  simp only [paddedDigits]
  rw [ofDigits_append, ofDigits_replicate_zero, ofDigits_toDigits, Nat.zero_mul, Nat.zero_add]

theorem length_paddedDigits {width n : Nat} (hwidth : 0 < width) (h : n < 10 ^ width) :
    (paddedDigits width n).length = width := by
  have hlen := (Nat.length_toDigits_le_iff (by decide : 1 < 10) hwidth).2 h
  simp only [paddedDigits, List.length_append, List.length_replicate]
  omega

/-- Only zeros behind the point are taken off. -/
theorem dropTrailingZeros_point (a b : List Char) :
    Word.dropTrailingZeros (a ++ '.' :: b) = a ++ '.' :: Word.dropTrailingZeros b := by
  simp only [Word.dropTrailingZeros, List.reverse_append, List.reverse_cons, List.append_assoc,
    List.dropWhile_append]
  split
  · next hnil =>
    have hnil : b.reverse.dropWhile (· == '0') = [] := by simpa using hnil
    simp [hnil]
  · simp

/-- The zeros at the end of some digits are a power of ten. -/
theorem ofDigits_dropTrailingZeros (a ds : List Char) :
    ofDigits (a ++ Word.dropTrailingZeros ds)
      * 10 ^ (ds.length - (Word.dropTrailingZeros ds).length) = ofDigits (a ++ ds) := by
  have hzeros : ds.reverse.takeWhile (· == '0')
      = List.replicate (ds.reverse.takeWhile (· == '0')).length '0' := by
    refine List.eq_replicate_iff.2 ⟨rfl, fun c hc => ?_⟩
    simpa using List.all_eq_true.1 List.all_takeWhile c hc
  obtain ⟨zeros, hds⟩ : ∃ zeros, ds = Word.dropTrailingZeros ds ++ List.replicate zeros '0' := by
    refine ⟨(ds.reverse.takeWhile (· == '0')).length, ?_⟩
    have hsplit := List.takeWhile_append_dropWhile (p := (· == '0')) (l := ds.reverse)
    rw [hzeros] at hsplit
    have hback := congrArg List.reverse hsplit
    rw [List.reverse_append, List.reverse_replicate, List.reverse_reverse] at hback
    exact hback.symm
  have hlen : ds.length - (Word.dropTrailingZeros ds).length = zeros := by
    have := congrArg List.length hds
    simp only [List.length_append, List.length_replicate] at this
    omega
  rw [hlen]
  conv => rhs; rw [hds, ← List.append_assoc, ofDigits_append, ofDigits_replicate_zero]
  simp

/-! ## The number of a program word -/

/-- The number of a program word: a sign, digits, a point and more digits. -/
structure WordNumber where
  negative : Bool
  whole : List Char
  fraction : List Char
  whole_ne_nil : whole ≠ []
  whole_digits : AllDigits whole
  fraction_digits : AllDigits fraction

namespace WordNumber

def text (w : WordNumber) : List Char :=
  (if w.negative then ['-'] else []) ++ (w.whole ++ '.' :: w.fraction)

def decimal (w : WordNumber) : Decimal where
  negative := w.negative
  digits := ofDigits (w.whole ++ w.fraction)
  exponent := -w.fraction.length

/-- A number of ten-thousandths, without zeros at its end. -/
def ofTenThousandths (negative : Bool) (n : Nat) : WordNumber where
  negative
  whole := Nat.toDigits 10 (n / 10 ^ 4)
  fraction := Word.dropTrailingZeros (paddedDigits 4 (n % 10 ^ 4))
  whole_ne_nil := Nat.toDigits_ne_nil
  whole_digits := allDigits_toDigits _
  fraction_digits := fun c hc => allDigits_paddedDigits 4 _ c (by
    rw [Word.dropTrailingZeros, List.mem_reverse] at hc
    exact List.mem_reverse.1 ((List.dropWhile_sublist _).mem hc))

theorem text_ofTenThousandths (negative : Bool) (num den : Nat) :
    Word.dropTrailingZeros (fixedText negative num den 4).toList
      = (ofTenThousandths negative (roundHalfEven (num * 10 ^ 4) den)).text := by
  have hplaced (n : Nat) : placed 4 n
      = Nat.toDigits 10 (n / 10 ^ 4) ++ '.' :: paddedDigits 4 (n % 10 ^ 4) := rfl
  simp only [fixedText, String.toList_ofList, hplaced]
  cases negative with
  | false => exact dropTrailingZeros_point _ _
  | true =>
    rw [if_pos rfl, ← List.cons_append, dropTrailingZeros_point]
    rfl

theorem digits_ofTenThousandths (negative : Bool) (n : Nat) :
    (ofTenThousandths negative n).decimal.digits
      * 10 ^ (4 - (ofTenThousandths negative n).fraction.length) = n := by
  have hlen : (paddedDigits 4 (n % 10 ^ 4)).length = 4 :=
    length_paddedDigits (by decide) (Nat.mod_lt _ (by decide))
  have h := ofDigits_dropTrailingZeros (Nat.toDigits 10 (n / 10 ^ 4)) (paddedDigits 4 (n % 10 ^ 4))
  have hboth : ofDigits (Nat.toDigits 10 (n / 10 ^ 4) ++ paddedDigits 4 (n % 10 ^ 4)) = n := by
    rw [ofDigits_append, ofDigits_toDigits, ofDigits_paddedDigits, hlen]
    exact Nat.div_add_mod' n (10 ^ 4)
  rw [hlen, hboth] at h
  exact h

theorem length_fraction_le (negative : Bool) (n : Nat) :
    (ofTenThousandths negative n).fraction.length ≤ 4 := by
  have hlen : (paddedDigits 4 (n % 10 ^ 4)).length = 4 :=
    length_paddedDigits (by decide) (Nat.mod_lt _ (by decide))
  have h := (List.dropWhile_sublist (· == '0') (l := (paddedDigits 4 (n % 10 ^ 4)).reverse)).length_le
  simp only [List.length_reverse, hlen] at h
  simpa [ofTenThousandths, Word.dropTrailingZeros] using h

theorem readUnsigned_of_digits (negative : Bool) {whole fraction : List Char} (hne : whole ≠ [])
    (hwhole : AllDigits whole) (hfraction : AllDigits fraction) :
    readUnsigned negative (whole ++ '.' :: fraction) =
      some { negative, digits := ofDigits (whole ++ fraction), exponent := -fraction.length } := by
  have htake : (whole ++ '.' :: fraction).takeWhile Char.isDigit = whole := by
    simp [List.takeWhile_append_of_pos hwhole]
  have hdrop : (whole ++ '.' :: fraction).dropWhile Char.isDigit = '.' :: fraction := by
    simp [List.dropWhile_append_of_pos hwhole]
  have htakeAll : fraction.takeWhile Char.isDigit = fraction :=
    List.takeWhile_eq_self_iff.2 hfraction
  have hdropAll : fraction.dropWhile Char.isDigit = [] := List.dropWhile_eq_nil_iff.2 hfraction
  simp [readUnsigned, htake, hdrop, htakeAll, hdropAll, hne, readExponent]

theorem read_text (w : WordNumber) : Numeral.read w.text = some (.decimal w.decimal) := by
  obtain ⟨negative, whole, fraction, hne, hwhole, hfraction⟩ := w
  have hunsigned := readUnsigned_of_digits negative hne hwhole hfraction
  obtain ⟨d, ds, rfl⟩ := List.exists_cons_of_ne_nil hne
  obtain ⟨-, hminus, hplus, hi, hn⟩ := Text.digit_ne (hwhole d List.mem_cons_self)
  have hsign : takeSign (text ⟨negative, d :: ds, fraction, hne, hwhole, hfraction⟩)
      = (negative, d :: ds ++ '.' :: fraction) := by
    cases negative with
    | true => rfl
    | false => simp [text, takeSign, hminus, hplus]
  simp only [List.cons_append] at hsign hunsigned
  simp [Numeral.read, hsign, hunsigned, hi, hn, decimal]

theorem isBlank_of_mem_text (w : WordNumber) {c : Char} (h : c ∈ w.text) :
    Text.isBlank c = false := by
  rw [text, List.mem_append, List.mem_append, List.mem_cons] at h
  rcases h with h | h | rfl | h
  · split at h
    · obtain rfl := List.mem_singleton.1 h
      decide
    · cases h
  · exact (Text.digit_ne (w.whole_digits c h)).1
  · decide
  · exact (Text.digit_ne (w.fraction_digits c h)).1

end WordNumber

theorem trim_of_no_blank {cs : List Char} (h : ∀ c ∈ cs, Text.isBlank c = false) :
    Text.trim cs = cs := by
  have hnot (cs : List Char) (h : ∀ c ∈ cs, Text.isBlank c = false) :
      cs.dropWhile Text.isBlank = cs := by
    cases cs with
    | nil => rfl
    | cons c cs => simp [h c List.mem_cons_self]
  rw [Text.trim, Text.trimStart, Text.trimEnd, hnot cs h,
    hnot _ fun c hc => h c (List.mem_reverse.1 hc), List.reverse_reverse]

variable {α : Type} [Scalar α]

theorem Word.read_text (w : WordNumber) :
    (Word.read w.text : Option α) =
      if Scalar.isFinite (Scalar.ofDecimal w.decimal : α) then some (Scalar.ofDecimal w.decimal)
      else none := by
  rw [Word.read, trim_of_no_blank fun c hc => w.isBlank_of_mem_text hc, w.read_text]

theorem Numeral.read_digits {ds : List Char} (hds : AllDigits ds) (hne : ds ≠ []) :
    Numeral.read ds = some (.decimal { negative := false, digits := ofDigits ds, exponent := 0 }) := by
  obtain ⟨d, ds, rfl⟩ := List.exists_cons_of_ne_nil hne
  obtain ⟨-, hminus, hplus, hi, hn⟩ := Text.digit_ne (hds d List.mem_cons_self)
  have hsign : takeSign (d :: ds) = (false, d :: ds) := by simp [takeSign, hminus, hplus]
  have htake : (d :: ds).takeWhile Char.isDigit = d :: ds := List.takeWhile_eq_self_iff.2 hds
  have hdrop : (d :: ds).dropWhile Char.isDigit = [] := List.dropWhile_eq_nil_iff.2 hds
  have hunsigned : readUnsigned false (d :: ds)
      = some { negative := false, digits := ofDigits (d :: ds), exponent := 0 } := by
    simp [readUnsigned, htake, hdrop, readExponent]
  simp [Numeral.read, hsign, hunsigned, hi, hn]

theorem Word.read_digits {ds : List Char} (hds : AllDigits ds) (hne : ds ≠ []) :
    (Word.read ds : Option α) =
      let value := Scalar.ofDecimal { negative := false, digits := ofDigits ds, exponent := 0 }
      if Scalar.isFinite (value : α) then some value else none := by
  rw [Word.read, trim_of_no_blank fun c hc => (Text.digit_ne (hds c hc)).1,
    Numeral.read_digits hds hne]

end Number
end SpacerTurning
