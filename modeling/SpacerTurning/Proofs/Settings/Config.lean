import Mathlib
import SpacerTurning.Settings.Config

/-!
What accepted settings say about their constants.

A constant that must be above zero is not at or below it.  Over machine numbers that leaves room for an
infinity and for no number at all.
-/

namespace SpacerTurning

variable {α : Type} [Scalar α]

theorem Config.fault?_eq_none {config : Config α} (h : config.isValid = true) :
    config.generator.fault? = none ∧ config.verifier.fault? = none := by
  unfold isValid fault? at h
  cases hgenerator : config.generator.fault? with
  | some fault =>
    rw [hgenerator] at h
    cases h
  | none =>
    rw [hgenerator] at h
    exact ⟨rfl, Option.isNone_iff_eq_none.1 h⟩

namespace CuttingConstants

omit [Scalar α] in
theorem map_get_positiveFields : (positiveFields : List (Field (CuttingConstants α) α)).map (·.get)
    = [(·.safeEntryDiameter), (·.maxBoreStep), (·.chamferDepth), (·.maxBoreDiameter),
      (·.hubZIncrement), (·.thinLipZIncrement), (·.ringPocketDepth), (·.lugRecessDepth),
      (·.studHubHeight), (·.clearanceZ)] := by
  simp [positiveFields, fields]

theorem not_le_zero {c : CuttingConstants α} (h : c.fault? = none) (get : CuttingConstants α → α)
    (hget : get ∈ (positiveFields : List (Field (CuttingConstants α) α)).map (·.get)) :
    ¬ get c ≤ 0 := by
  obtain ⟨f, hf, rfl⟩ := List.mem_map.1 hget
  intro hle
  have hmem : f.name ∈ c.nonPositive :=
    List.mem_map.2 ⟨f, List.mem_filter.2 ⟨hf, decide_eq_true hle⟩, rfl⟩
  unfold fault? at h
  split at h
  · cases h
  · next hnone =>
    rw [hnone] at hmem
    cases hmem

theorem entry_not_le_zero {c : CuttingConstants α} (h : c.fault? = none) :
    ¬ c.safeEntryDiameter ≤ 0 :=
  not_le_zero h (·.safeEntryDiameter) (by simp [map_get_positiveFields])

theorem recessDepth_not_le_zero {c : CuttingConstants α} (h : c.fault? = none) :
    ¬ c.lugRecessDepth ≤ 0 :=
  not_le_zero h (·.lugRecessDepth) (by simp [map_get_positiveFields])

theorem studHeight_not_le_zero {c : CuttingConstants α} (h : c.fault? = none) :
    ¬ c.studHubHeight ≤ 0 :=
  not_le_zero h (·.studHubHeight) (by simp [map_get_positiveFields])

end CuttingConstants

namespace CheckingConstants

omit [Scalar α] in
theorem map_get_positiveFields : (positiveFields : List (Field (CheckingConstants α) α)).map (·.get)
    = [(·.defaultSafeFeed), (·.safeEntryDiameter), (·.maxBoreStep), (·.workOffsetClearanceZ)] := by
  simp [positiveFields, fields]

variable {c : CheckingConstants α}

theorem fault?_eq_none (h : c.fault? = none) :
    (∀ f ∈ positiveFields, ¬ f.get c ≤ 0) ∧ ¬ c.workOffsetClearanceZ < c.workOffsetMinClearance := by
  unfold fault? at h
  split at h
  · cases h
  · split at h
    · cases h
    · next hpositive =>
      split at h
      · cases h
      · split at h
        · cases h
        · next hclearance =>
          exact ⟨fun f hf => by simpa using List.find?_eq_none.1 hpositive f hf, hclearance⟩

theorem not_le_zero (h : c.fault? = none) (get : CheckingConstants α → α)
    (hget : get ∈ (positiveFields : List (Field (CheckingConstants α) α)).map (·.get)) :
    ¬ get c ≤ 0 := by
  obtain ⟨f, hf, rfl⟩ := List.mem_map.1 hget
  exact (fault?_eq_none h).1 f hf

theorem clearance_not_le_zero (h : c.fault? = none) : ¬ c.workOffsetClearanceZ ≤ 0 :=
  not_le_zero h (·.workOffsetClearanceZ) (by simp [map_get_positiveFields])

end CheckingConstants

end SpacerTurning
