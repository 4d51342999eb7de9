import SpacerTurning.Proofs.Generation.Agreement
import SpacerTurning.Proofs.Part.Order
import SpacerTurning.Proofs.Shop.Depths

/-!
How deep a part is drilled.

The drill goes through body and hub by the breakthrough, give or take half a hundredth for the row of
the depth table and half a ten-thousandth for the rounding.
-/

namespace SpacerTurning

open Number Exact

/-- The thickness of a part that was built is near what its row in the depth table is for. -/
theorem Order.abs_drill_add_le {o : Order Rat} {constants : CuttingConstants Rat} {part : Part Rat}
    (h : o.build constants = .ok part) {depths : Depths Rat}
    (hrow : Depths.row? part.thickness.key = some depths) :
    |depths.drill + (part.thickness.inches + 0.15)| ≤ 0.0051 := by
  obtain ⟨-, hthickness, -⟩ := of_build h
  simp only [buildThickness, bind_eq_ok, mapError_eq_ok] at hthickness
  obtain ⟨text, -, hread⟩ := hthickness
  exact Depths.abs_drill_add_le hread hrow

/-- What the depths of a job have to do with its part, under the constants of the shop. -/
structure Job.FitsPart (j : Job Rat) : Prop where
  constants : j.constants = .standard
  placed : IsPlaced j.depths.drill
  through : |j.depths.drill + (j.part.totalHeight + 0.15)| ≤ 0.0101
  deep : j.depths.drill + j.part.hubHeight ≤ -0.5399
  profile : j.depths.drill ≤ j.depths.profile
  hub : 0 ≤ j.part.hubHeight

/-- The depths of a part that was built fit it. -/
theorem Job.fitsPart {o : Order Rat} {part : Part Rat} (hpart : o.build .standard = .ok part)
    (hcheck : part.check = .ok ()) {lathe : Lathe Rat} {templates : Templates Rat} {j : Job Rat}
    (h : resolve part lathe .standard templates = .ok j) : j.FitsPart := by
  obtain ⟨row, hrow, hdeep, hdepths⟩ := exists_row h
  obtain ⟨hjpart, -, hconstants, -⟩ := asked_of_resolve h
  have hhub := Part.zero_le_hubHeight hcheck
  have hnear := Order.abs_drill_add_le hpart hrow
  have hprofile := (Depths.profile_of_row? hrow).1
  have hround := abs_round4_sub_le (row.drill - part.hubHeight)
  have hdrill : j.depths.drill = Scalar.round4 (row.drill - part.hubHeight) := by rw [hdepths]
  have hjprofile : j.depths.profile = row.profile := by rw [hdepths]
  rw [← hdrill, abs_le] at hround
  rw [abs_le] at hnear
  norm_num at hnear hdeep hprofile
  refine ⟨hconstants, hdrill ▸ isPlaced_round4 _, ?_, ?_, ?_, hjpart ▸ hhub⟩
  · rw [hjpart, Part.totalHeight, abs_le]
    norm_num
    constructor <;> linarith
  · rw [hjpart]
    norm_num
    linarith
  · rw [hjprofile]
    linarith

end SpacerTurning
