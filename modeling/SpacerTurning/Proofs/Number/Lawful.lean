import SpacerTurning.Check.Line
import SpacerTurning.Proofs.Number.Exact

/-!
What the checks rely on of their numbers.

A check compares the numbers that it reads, and writes numbers that are read again.  `LawfulScalar`
says what both have to do with each other.  Exact numbers are lawful, and so are machine numbers,
although a number may be too large for its four places and is then written as zero.
-/

namespace SpacerTurning

open Number

/-- Numbers that are compared in order, and that read as they are written. -/
class LawfulScalar (α : Type) [Scalar α] : Prop where
  le_trans {a b c : α} : a ≤ b → b ≤ c → a ≤ c
  nonneg_of_zero {a : α} : (a == 0) = true → 0 ≤ a
  beq_symm {a b : α} : (a == b) = true → (b == a) = true
  beq_trans {a b c : α} : (a == b) = true → (b == c) = true → (a == c) = true
  isFinite_of_beq {a b : α} : (a == b) = true → Scalar.isFinite a = true → Scalar.isFinite b = true
  exists_text (x : α) : ∃ w : WordNumber, Word.format x = String.ofList w.text
  /-- A number reads as it is at four places, or as zero if it is too large for them. -/
  read_format (x : α) : ∃ v : α, Word.read (Word.format x).toList = some v ∧
    (if Scalar.isFinite (Scalar.round4 x) then v == Scalar.round4 x else v == 0) = true ∧
    (¬ x ≤ 0 → 0 ≤ v)
  read_zero : ∃ v : α, Word.read ['0', '.'] = some v ∧ (v == 0) = true
  /-- The number of the code for a cut. -/
  read_one : ∃ v : α, Word.read ['0', '1'] = some v ∧ AddressWord.code? ⟨'G', v⟩ = some 1

namespace Number.Exact

instance : LawfulScalar Rat where
  le_trans := le_trans
  nonneg_of_zero := by
    intro a h
    have ha : a = (Scalar.ofNat 0 : Rat) := eq_of_beq h
    rw [ha]
    exact le_rfl
  beq_symm h := by rwa [BEq.comm]
  beq_trans h₁ h₂ := by rwa [eq_of_beq h₁]
  isFinite_of_beq _ _ := rfl
  exists_text x := by
    obtain ⟨n, -, hformat⟩ := exists_format_eq x
    exact ⟨_, hformat⟩
  read_format x := by
    refine ⟨Scalar.round4 x, read_format x, ?_, fun hx => ?_⟩
    · have hfinite : Scalar.isFinite (Scalar.round4 x : Rat) = true := rfl
      rw [if_pos hfinite]
      exact beq_self_eq_true _
    · have hpos : ¬ x ≤ (Scalar.ofNat 0 : Rat) := hx
      change (Scalar.ofNat 0 : Rat) ≤ Scalar.round4 x
      rw [Scalar.zero_rat] at hpos ⊢
      have hzero : IsPlaced 0 := ⟨0, by norm_num⟩
      rw [← hzero.round4]
      exact round4_mono (not_le.1 hpos).le
  read_zero := ⟨0, by decide +kernel, by decide +kernel⟩
  read_one := ⟨1, by decide +kernel, by decide +kernel⟩

end Number.Exact

section

variable {α : Type} [Scalar α] [LawfulScalar α]

open Number

/-- A number that is written is the number of a program word, and reads as it is at four places. -/
theorem exists_format_text (x : α) :
    ∃ (w : WordNumber) (v : α), (Word.format x).toList = w.text ∧ Word.read w.text = some v ∧
      (if Scalar.isFinite (Scalar.round4 x) then v == Scalar.round4 x else v == 0) = true ∧
      (¬ x ≤ 0 → 0 ≤ v) := by
  obtain ⟨w, hw⟩ := LawfulScalar.exists_text x
  obtain ⟨v, hread, hvalue, hpositive⟩ := LawfulScalar.read_format x
  have htext : (Word.format x).toList = w.text := by rw [hw, String.toList_ofList]
  rw [htext] at hread
  exact ⟨w, v, htext, hread, hvalue, hpositive⟩

omit [LawfulScalar α] in
theorem isFinite_of_read {cs : List Char} {v : α} (h : Word.read cs = some v) :
    Scalar.isFinite v = true := by
  unfold Word.read at h
  split at h
  · next d _ =>
    dsimp only at h
    split at h
    · next hfinite => rwa [← Option.some.inj h]
    · cases h
  · cases h

end

end SpacerTurning
