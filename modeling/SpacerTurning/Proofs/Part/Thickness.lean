import SpacerTurning.Part.Refusal
import SpacerTurning.Proofs.Number.Word
import SpacerTurning.Proofs.Text.Capitals

/-!
Thicknesses that are read.

A thickness is a length, in inches or in millimetres.  A number that is written without blanks, signs or
letters but the unit is read as it stands.
-/

namespace SpacerTurning
namespace Thickness

open Number

variable {α : Type} [Scalar α]

/-- A thickness that was read has the key of its inches, or of its millimetres. -/
theorem exists_of_read {text : String} {t : Thickness α} (h : read text = .ok t) :
    ∃ value : α, isLength value = true ∧ (t = ofInches value ∨ t = ofMillimetres value) := by
  unfold read at h
  dsimp only at h
  split at h
  · cases h
  · split at h
    · cases h
    · next d hread =>
      split at h
      · cases h
      · next hvalue =>
        rw [Bool.or_eq_true, not_or] at hvalue
        have hlength : isLength (Scalar.ofDecimal d : α) = true := by
          rw [isLength, Bool.and_eq_true]
          exact ⟨by simpa using hvalue.1, by simpa using hvalue.2⟩
        cases h
        refine ⟨_, hlength, ?_⟩
        split
        · exact .inr rfl
        · exact .inl rfl
    · cases h

/-- A whole number of millimetres has no point in its key. -/
theorem key_of_whole {mm : α} (h : Scalar.magnitude (mm - Scalar.round mm) < 0.000000001) :
    (ofMillimetres mm).key
      = toString (Scalar.wholeWithin (-wholeLimit - 1) wholeLimit (Scalar.round mm)) ++ "MM" := by
  simp only [ofMillimetres, if_pos h]

theorem key_of_not_whole {mm : α} (h : ¬ Scalar.magnitude (mm - Scalar.round mm) < 0.000000001) :
    (ofMillimetres mm).key = Scalar.fixed 1 mm ++ "MM" := by
  simp only [ofMillimetres, if_neg h]

/-! ## Texts without blanks -/

theorem toUpper_of_isDigit {c : Char} (h : c.isDigit = true) : c.toUpper = c := by
  have hascii := Text.toUpper_ascii c.toNat (Text.toNat_lt_of_isDigit h)
  rw [Char.ofNat_toNat] at hascii
  refine hascii.resolve_right fun hletter => ?_
  have hdigit : c.toNat ≤ 57 := (Char.isDigit_iff_toNat.1 h).2
  omega

/-- A number, with the mark of its unit behind it if it counts millimetres. -/
def withUnit (number : List Char) (metric : Bool) : List Char :=
  number ++ if metric then ['M', 'M'] else []

theorem mem_withUnit {number : List Char} (hplain : ∀ c ∈ number, c.isDigit = true ∨ c = '.')
    {metric : Bool} {c : Char} (hc : c ∈ withUnit number metric) :
    c.isDigit = true ∨ c = '.' ∨ c = 'M' := by
  rcases List.mem_append.1 hc with hc | hc
  · exact (hplain c hc).imp_right .inl
  · cases metric with
    | true => exact .inr (.inr (by simpa using hc))
    | false => cases hc

theorem compact_withUnit {number : List Char} (hplain : ∀ c ∈ number, c.isDigit = true ∨ c = '.')
    (metric : Bool) : Text.capitalize ((withUnit number metric).filter fun c => !Text.isBlank c)
      = withUnit number metric := by
  have hfilter : (withUnit number metric).filter (fun c => !Text.isBlank c) = withUnit number metric := by
    refine List.filter_eq_self.2 fun c hc => ?_
    rcases mem_withUnit hplain hc with hdigit | rfl | rfl
    · rw [(Text.digit_ne hdigit).1]
      rfl
    · decide
    · decide
  rw [hfilter]
  refine Text.capitalize_eq_self fun c hc => ?_
  rcases mem_withUnit hplain hc with hdigit | rfl | rfl
  · exact ⟨Text.toNat_lt_of_isDigit hdigit, toUpper_of_isDigit hdigit⟩
  · decide
  · decide

omit [Scalar α] in
theorem dropEnding?_eq_none (ending : List Char) {cs : List Char} {c : Char} (hc : c ∈ ending) (hcs : c ∉ cs) :
    dropEnding? ending cs = none := by
  refine if_neg fun h => hcs ?_
  exact (List.isSuffixOf_iff_suffix.1 h).subset hc

theorem splitUnit_withUnit {number : List Char} (hplain : ∀ c ∈ number, c.isDigit = true ∨ c = '.')
    (metric : Bool) : splitUnit (withUnit number metric) = (number, metric) := by
  have hletter {c : Char} (hdigit : c.isDigit = false) (hpoint : c ≠ '.') : c ∉ number := fun hc => by
    rcases hplain c hc with h | h
    · rw [h] at hdigit
      cases hdigit
    · exact hpoint h
  cases metric with
  | true =>
    have hsuffix : ['M', 'M'].isSuffixOf (number ++ ['M', 'M']) = true :=
      List.isSuffixOf_iff_suffix.2 (List.suffix_append _ _)
    have hdrop : dropEnding? ['M', 'M'] (number ++ ['M', 'M']) = some number := by
      rw [dropEnding?, if_pos hsuffix, List.length_append, Nat.add_sub_cancel, List.take_left]
    show splitUnit (number ++ ['M', 'M']) = _
    rw [splitUnit, hdrop]
  | false =>
    have hM := dropEnding?_eq_none ['M', 'M'] List.mem_cons_self
      (hletter (c := 'M') (by decide) (by decide))
    have hI := dropEnding?_eq_none ['I', 'N'] List.mem_cons_self
      (hletter (c := 'I') (by decide) (by decide))
    have hquote := dropEnding?_eq_none ['"'] List.mem_cons_self
      (hletter (c := '"') (by decide) (by decide))
    show splitUnit (number ++ []) = _
    rw [List.append_nil, splitUnit, hM]
    simp only [hI, hquote]
    rfl

/-- A number in plain digits is read as the length that it stands for, if it is one. -/
theorem read_withUnit {text : String} {number : List Char} {metric : Bool} {d : Decimal}
    (hplain : ∀ c ∈ number, c.isDigit = true ∨ c = '.')
    (hread : Numeral.read number = some (.decimal d)) (htext : text.toList = withUnit number metric) :
    (read text : Except ThicknessFault (Thickness α)) =
      if isLength (Scalar.ofDecimal d : α) then
        .ok (if metric then ofMillimetres (Scalar.ofDecimal d) else ofInches (Scalar.ofDecimal d))
      else .error (.notPositive text) := by
  have hne : withUnit number metric ≠ [] := by
    intro hnil
    obtain ⟨rfl, -⟩ := List.append_eq_nil_iff.1 hnil
    cases hread
  unfold read
  rw [htext, compact_withUnit hplain, if_neg hne, splitUnit_withUnit hplain]
  have hguard : (!Scalar.isFinite (Scalar.ofDecimal d : α) || decide ((Scalar.ofDecimal d : α) ≤ 0))
      = !isLength (Scalar.ofDecimal d : α) := by
    rw [isLength, Bool.not_and, Bool.not_not]
  simp only [hread]
  split
  · next hrefused =>
    rw [hguard, Bool.not_eq_true'] at hrefused
    rw [hrefused]
    rfl
  · next hlength =>
    rw [hguard, Bool.not_eq_true', Bool.not_eq_false] at hlength
    rw [if_pos hlength]

end Thickness
end SpacerTurning
