import SpacerTurning.Proofs.Number.Exact

/-!
The grammar of numbers in program words.

A number is written as digits, a point and at most four digits more, with a sign in front of them when
it is below zero.  No zero stands at the end, and zero itself has no sign.  What is read of it is the
number at four places: near the number that was written, written in the same way again, and in the same
order as the numbers that were written.
-/

namespace SpacerTurning
namespace Number

/-- A number as a control wants it: four digits behind the point at most, the last of them no zero, and
no sign in front of zero. -/
structure WordNumber.IsTrimmed (w : WordNumber) : Prop where
  short : w.fraction.length ≤ 4
  ends : w.fraction.getLast? ≠ some '0'
  signed : w.negative = true → w.decimal.digits ≠ 0

theorem Word.getLast?_dropTrailingZeros (cs : List Char) :
    (dropTrailingZeros cs).getLast? ≠ some '0' := by
  intro h
  rw [dropTrailingZeros, List.getLast?_reverse] at h
  have hkept := List.head?_dropWhile_not (· == '0') cs.reverse
  rw [h] at hkept
  exact absurd hkept (by decide)

namespace WordNumber

/-- Ten-thousandths without zeros at their end are trimmed, if there is no sign in front of none of them. -/
theorem isTrimmed_ofTenThousandths {negative : Bool} {n : Nat} (h : negative = true → n ≠ 0) :
    (ofTenThousandths negative n).IsTrimmed where
  short := length_fraction_le negative n
  ends := Word.getLast?_dropTrailingZeros _
  signed := by
    intro hnegative hzero
    have hdigits := digits_ofTenThousandths negative n
    rw [hzero, Nat.zero_mul] at hdigits
    exact h hnegative hdigits.symm

/-- A trimmed number is not written as zero with a sign, since it would be read as that. -/
theorem IsTrimmed.text_ne {w : WordNumber} (h : w.IsTrimmed) : w.text ≠ ['-', '0', '.'] := by
  intro htext
  have hread := w.read_text
  have hzero : Numeral.read ['-', '0', '.'] = some (.decimal ⟨true, 0, 0⟩) := by decide
  rw [htext, hzero] at hread
  have hdecimal : w.decimal = ⟨true, 0, 0⟩ := (Numeral.decimal.inj (Option.some.inj hread)).symm
  have hnegative : w.decimal.negative = true := by rw [hdecimal]
  exact h.signed hnegative (by rw [hdecimal])

end WordNumber

namespace Exact

/-- The word of a number is trimmed. -/
theorem exists_trimmed (x : Rat) :
    ∃ w : WordNumber, w.IsTrimmed ∧ (Word.format x).toList = w.text := by
  obtain ⟨n, -, hformat⟩ := exists_format_eq x
  refine ⟨WordNumber.ofTenThousandths (n < 0) n.natAbs, ?_, ?_⟩
  · apply WordNumber.isTrimmed_ofTenThousandths
    intro hneg
    have hlt : n < 0 := of_decide_eq_true hneg
    omega
  · rw [hformat, String.toList_ofList]

/-- A number at four places has the word of the number itself. -/
theorem format_round4 (x : Rat) : Word.format (Scalar.round4 x : Rat) = Word.format x := by
  simp only [Word.format, (isPlaced_round4 x).round4]

/-- Numbers are written in the grammar of program words, and what is read of the word of a number stands
at most half a ten-thousandth away from it, has the same word, and grows with the number. -/
theorem format_reads_back : ∃ value : Rat → Rat, Monotone value ∧ ∀ x : Rat,
    (∃ w : WordNumber, w.IsTrimmed ∧ (Word.format x).toList = w.text) ∧
      (Word.format x).toList ≠ ['-', '0', '.'] ∧
      Word.read (Word.format x).toList = some (value x) ∧
      |value x - x| ≤ 0.00005 ∧
      Word.format (value x) = Word.format x := by
  refine ⟨Scalar.round4, fun x y h => round4_mono h, fun x => ?_⟩
  obtain ⟨w, hw, htext⟩ := exists_trimmed x
  refine ⟨⟨w, hw, htext⟩, ?_, read_format x, ?_, format_round4 x⟩
  · rw [htext]
    exact hw.text_ne
  · have hnear := abs_round4_sub_le x
    norm_num at hnear ⊢
    exact hnear

-- A number that would round to a negative zero, and one that carries to the next whole number.
example : Word.format (-0.00004 : Rat) = "0." ∧ Word.format (1.99996 : Rat) = "2." := by
  decide +kernel

end Exact
end Number
end SpacerTurning
