import Mathlib
import SpacerTurning.Text.Blank
import SpacerTurning.Text.Digit

/-!
What a digit is not, and where a run of characters of one kind ends.

A digit of any script is no blank.  A digit of ASCII is no sign either, and starts no name.
-/

namespace SpacerTurning
namespace Text

@[simp] theorem isBlank_space : isBlank ' ' = true := by decide

theorem isBlank_of_zeros : ∀ z ∈ zeros, ∀ i < 10, isBlank (Char.ofNat (z + i)) = false := by
  decide +kernel

theorem digit_ascii : ∀ n < 128, (Char.ofNat n).isDigit = true →
    isBlank (Char.ofNat n) = false ∧ Char.ofNat n ≠ '-' ∧ Char.ofNat n ≠ '+' ∧
      (Char.ofNat n).toLower ≠ 'i' ∧ (Char.ofNat n).toLower ≠ 'n' := by
  decide +kernel

theorem toNat_lt_of_isDigit {c : Char} (h : c.isDigit = true) : c.toNat < 128 := by
  simp only [Char.isDigit, Bool.and_eq_true, decide_eq_true_eq] at h
  have : c.val.toNat ≤ 57 := h.2
  show c.val.toNat < 128
  omega

theorem digit_ne {c : Char} (h : c.isDigit = true) :
    isBlank c = false ∧ c ≠ '-' ∧ c ≠ '+' ∧ c.toLower ≠ 'i' ∧ c.toLower ≠ 'n' := by
  have hascii := digit_ascii c.toNat (toNat_lt_of_isDigit h)
  rw [Char.ofNat_toNat] at hascii
  exact hascii h

theorem isBlank_of_isDecimalDigit {c : Char} (h : isDecimalDigit c = true) : isBlank c = false := by
  rw [isDecimalDigit, Bool.or_eq_true] at h
  rcases h with h | h
  · exact (digit_ne h).1
  · obtain ⟨z, hz, hrange⟩ := List.any_eq_true.1 h
    simp only [Bool.and_eq_true, decide_eq_true_eq] at hrange
    have hzero := isBlank_of_zeros z hz (c.toNat - z) (by omega)
    rw [Nat.add_sub_cancel' hrange.1, Char.ofNat_toNat] at hzero
    exact hzero

/-! ## Kinds of characters -/

section

variable {p : Char → Bool}

theorem ne_of_kind {c k : Char} (hc : p c = true) (hk : p k = false) : c ≠ k := by
  rintro rfl
  rw [hk] at hc
  cases hc

variable {run rest : List Char}

theorem takeWhile_append_stop (hrun : ∀ c ∈ run, p c = true) (hrest : ∀ c ∈ rest.head?, p c = false) :
    (run ++ rest).takeWhile p = run := by
  rw [List.takeWhile_append_of_pos hrun]
  cases rest with
  | nil => rw [List.takeWhile_nil, List.append_nil]
  | cons c cs => rw [List.takeWhile_cons_of_neg (by simp [hrest c rfl]), List.append_nil]

theorem dropWhile_append_stop (hrun : ∀ c ∈ run, p c = true) (hrest : ∀ c ∈ rest.head?, p c = false) :
    (run ++ rest).dropWhile p = rest := by
  rw [List.dropWhile_append_of_pos hrun]
  cases rest with
  | nil => rfl
  | cons c cs => rw [List.dropWhile_cons_of_neg (by simp [hrest c rfl])]

end

end Text
end SpacerTurning
