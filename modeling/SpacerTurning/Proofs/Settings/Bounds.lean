import SpacerTurning.Proofs.Settings.Config
import SpacerTurning.Proofs.Settings.Saving

/-!
What accepted settings keep out.

Settings are rejected for a constant that is at or below zero, and what is no number is neither.  So an
accepted constant is above zero or no number at all, and what is above zero may be infinite.
-/

namespace SpacerTurning

open Number Number.Binary64

namespace Config

/-- The constants that only make sense above zero. -/
def lengths {α : Type} (config : Config α) : List α :=
  (CuttingConstants.positiveFields.map (·.get)).map (· config.generator)
    ++ (CheckingConstants.positiveFields.map (·.get)).map (· config.verifier)

theorem clearance_mem_lengths {α : Type} (config : Config α) :
    config.verifier.workOffsetClearanceZ ∈ config.lengths := by
  rw [lengths, CheckingConstants.map_get_positiveFields]
  simp

theorem not_le_zero {α : Type} [Scalar α] {config : Config α} (h : config.isValid = true) {x : α}
    (hx : x ∈ config.lengths) : ¬ x ≤ 0 := by
  obtain ⟨hgenerator, hverifier⟩ := fault?_eq_none h
  rcases List.mem_append.1 hx with hx | hx
  · obtain ⟨get, hget, rfl⟩ := List.mem_map.1 hx
    exact CuttingConstants.not_le_zero hgenerator get hget
  · obtain ⟨get, hget, rfl⟩ := List.mem_map.1 hx
    exact CheckingConstants.not_le_zero hverifier get hget

/-- Every constant that only makes sense above zero is a finite number above zero, and the height that
is written for a clearance is not below the least one. -/
structure IsBounded (config : Config Float) : Prop where
  lengths : ∀ x ∈ config.lengths, x.isFinite = true ∧ 0 < x
  clearance : config.verifier.workOffsetMinClearance ≤ config.verifier.workOffsetClearanceZ

/-- What settings are accepted with: constants above zero, unless they are no numbers.  So they are
bounded exactly if those constants are finite, and the least clearance is a number. -/
theorem isBounded_iff {config : Config Float} (h : config.isValid = true) :
    (∀ x ∈ config.lengths, 0 < x ∨ x.isNaN = true) ∧
      (config.IsBounded ↔ (∀ x ∈ config.lengths, x.isFinite = true) ∧
        config.verifier.workOffsetMinClearance.isNaN = false) := by
  have hpos {x : Float} (hx : x ∈ config.lengths) (hnumber : x.isNaN = false) : 0 < x :=
    (zero_lt_iff hnumber).2 (not_le_zero h hx)
  refine ⟨fun x hx => ?_, fun hbounded => ?_, fun ⟨hfinite, hleast⟩ => ?_⟩
  · cases hnumber : x.isNaN with
    | true => exact .inr rfl
    | false => exact .inl (hpos hx hnumber)
  · exact ⟨fun x hx => (hbounded.lengths x hx).1, (isNaN_of_le hbounded.clearance).1⟩
  · have hnumber {x : Float} (hx : x ∈ config.lengths) : x.isNaN = false :=
      isNaN_of_isFinite (hfinite x hx)
    have hclearance := (CheckingConstants.fault?_eq_none (fault?_eq_none h).2).2
    rw [float_lt_iff_not_le (hnumber config.clearance_mem_lengths) hleast, not_not] at hclearance
    exact ⟨fun x hx => ⟨hfinite x hx, hpos hx (hnumber hx)⟩, hclearance⟩

theorem isBounded_iff_standard : (standard : Config Float).isValid = true ∧
    (standard : Config Float).IsBounded := by
  have hvalid : (standard : Config Float).isValid = true := by decide +kernel
  exact ⟨hvalid, (isBounded_iff hvalid).2.2 ⟨by decide +kernel, by decide +kernel⟩⟩

/-- The settings of the shop with another height for free moves. -/
def ofClearance (x : Float) : Config Float :=
  { standard with generator := { CuttingConstants.standard with clearanceZ := x } }

theorem mem_lengths_ofClearance (x : Float) : x ∈ (ofClearance x).lengths := by
  rw [lengths, CuttingConstants.map_get_positiveFields]
  simp [ofClearance]

theorem ofDocument?_clearance (x : Float) : ofDocument? Toml.dialect
    (.table [("generator", .table [("clearance_z", .number x)])]) = some (ofClearance x) := rfl

/-- A file may hold a height that is no number, and is loaded. -/
theorem not_isBounded_of_nan : ∃ config,
    loaded (Session.ofFile "config.toml" "[generator]\nclearance_z = nan\n")
      { text := "config.toml" } = .ok config ∧ config.isValid = true ∧ ¬ config.IsBounded := by
  obtain ⟨config, hconfig⟩ : ∃ config, config = ofClearance (0.0 / 0.0) := ⟨_, rfl⟩
  have hfault : config.fault? = none := by
    rw [hconfig]
    decide +kernel
  have hmem : (0.0 / 0.0 : Float) ∈ config.lengths := by
    rw [hconfig]
    exact mem_lengths_ofClearance _
  have hnan : (0.0 / 0.0 : Float).isFinite = false := by decide +kernel
  have hread := read_constant "[generator]\nclearance_z = nan\n" (x := 0.0 / 0.0)
    (Toml.areNamed_of_names ["generator"] rfl (by decide +kernel) (by decide))
    (Toml.areNamed_of_names ["clearance_z"] rfl (by decide +kernel) (by decide))
    (by decide +kernel)
  have hsettings : ofText? .toml "[generator]\nclearance_z = nan\n" = some config := by
    rw [ofText?_toml, hread, Option.bind_some, ofDocument?_clearance, hconfig]
  refine ⟨config, loaded_toml hsettings hfault, by rw [isValid, hfault]; rfl, fun hbounded => ?_⟩
  have hfinite := (hbounded.lengths _ hmem).1
  rw [hnan] at hfinite
  cases hfinite

end Config
end SpacerTurning
