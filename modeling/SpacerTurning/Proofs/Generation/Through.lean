import SpacerTurning.Proofs.Generation.Shelf

/-!
The drill goes through.

A thickness that has work offsets has a row in the depth table.  So a program that is made takes its
depths from the table, and how far the formula would drill through makes no difference to it.  The
rows drill through the body by nearly the breakthrough of the shop, and a hub is drilled through on
top of that.
-/

namespace SpacerTurning

open Number Exact

/-- Constants with which the formula drills through by something else. -/
def CuttingConstants.withBreakthrough {α : Type} (c : CuttingConstants α) (breakthrough : α) :
    CuttingConstants α := { c with drillBreakthrough := breakthrough }

namespace Job

variable {α : Type} [Scalar α]

/-- Once the depths are there, nothing asks for the breakthrough. -/
theorem sectionOf_withBreakthrough (j : Job α) (breakthrough : α) (kind : SectionKind) :
    sectionOf { j with constants := j.constants.withBreakthrough breakthrough } kind
      = j.sectionOf kind := by
  cases kind <;> rfl

end Job

namespace Program

variable {α : Type} [Scalar α]

theorem ofJob_withBreakthrough (j : Job α) (breakthrough : α) :
    ofJob { j with constants := j.constants.withBreakthrough breakthrough } = ofJob j := by
  have hsections := funext (j.sectionOf_withBreakthrough breakthrough)
  simp only [ofJob, hsections]

/-- A thickness with a row of its own is drilled by that row alone. -/
theorem build_withBreakthrough {part : Part α} {row : Depths α}
    (hrow : Depths.row? part.thickness.key = some row) (lathes : Lathes α)
    (constants : CuttingConstants α) (templates : Templates α) (breakthrough : α) :
    build lathes (constants.withBreakthrough breakthrough) templates part
      = build lathes constants templates part := by
  have hlookup (b : α) : Depths.lookup part.thickness.key (some part.thickness.inches) b
      = .ok (row, .table) := by
    rw [Depths.lookup, hrow]
  unfold build
  congr 1
  funext _
  split
  · rfl
  · simp only [Job.resolve, hlookup]
    cases (WorkOffsets.find part.lathe part.thickness.key : Except (Refusal α) WorkOffsets) with
    | error refusal => rfl
    | ok offsets =>
      exact ofJob_withBreakthrough { part, lathe := _, constants, offsets, templates, depths := _ }
        breakthrough

end Program

/-- The moves of a run are those that its tool is given. -/
theorem Job.motions_toolRun {α : Type} (j : Job α) (tool : Nat) (comment : String)
    (settings : CutSettings α) (side : Side) (moves : List (Motion α)) (kind : SectionKind) :
    Section.motions { kind, blocks := j.toolRun tool comment settings side moves } = moves := by
  unfold Section.motions toolRun spindleBlock
  cases settings.spindle.css <;> simp [List.filterMap_map]

theorem Job.deepestZ?_drillSection (j : Job Rat) :
    j.drillSection.deepestZ? = some (min j.clearance j.depths.drill) := by
  rw [Section.deepestZ?, drillSection, motions_toolRun]
  refine Scalar.least?_eq_of_mem ?_ fun z hz => ?_
  · rcases min_choice j.clearance j.depths.drill with h | h <;>
      simp [h, Motion.rapidXZ, Motion.feedZ, Motion.rapidZ]
  · obtain rfl | rfl | rfl : z = j.clearance ∨ z = j.depths.drill ∨ z = j.clearance := by
      simpa [Motion.rapidXZ, Motion.feedZ, Motion.rapidZ, eq_comm] using hz
    · exact min_le_left _ _
    · exact min_le_right _ _
    · exact min_le_left _ _

namespace Program

/-- A program for a part that was built takes its depths from a row of the depth table, and is the same
for every breakthrough of the formula.  It drills as deep as the row and the hub say, which is at
least fourteen hundredths beyond body and hub. -/
theorem drills_through (o : Order Rat) (c : CuttingConstants Rat) (part : Part Rat)
    (lathes : Lathes Rat) (constants : CuttingConstants Rat) (templates : Templates Rat)
    (p : Program Rat) (hpart : o.build c = .ok part)
    (h : build lathes constants templates part = .ok p) :
    ∃ (row : Depths Rat) (s : Section Rat) (z : Rat),
      (∀ breakthrough, Depths.lookup part.thickness.key (some part.thickness.inches) breakthrough
        = .ok (row, .table)) ∧
      (∀ breakthrough,
        build lathes (constants.withBreakthrough breakthrough) templates part = .ok p) ∧
      p.section? .op1Drill = some s ∧ s.deepestZ? = some z ∧
      z = min constants.clearanceZ (Scalar.round4 (row.drill - part.hubHeight)) ∧
      z ≤ -(part.totalHeight + 0.14) := by
  obtain ⟨lathe, j, -, -, hj, hp⟩ := of_build h
  obtain ⟨row, hrow, -, hdepths⟩ := Job.exists_row hj
  obtain ⟨-, -, hconstants, -⟩ := Job.asked_of_resolve hj
  obtain ⟨s, hs, hsection⟩ := section?_eq hp .op1Drill
  cases hs
  have hdeepest := j.deepestZ?_drillSection
  rw [Job.clearance, hconstants, hdepths] at hdeepest
  refine ⟨row, _, _, fun b => by rw [Depths.lookup, hrow], fun b => ?_, hsection, hdeepest, rfl, ?_⟩
  · rw [build_withBreakthrough hrow, h]
  · have hthrough := Order.abs_drill_add_le hpart hrow
    have hnear := abs_round4_sub_le (row.drill - part.hubHeight)
    rw [abs_le] at hthrough hnear
    refine (min_le_right _ _).trans ?_
    rw [Part.totalHeight]
    norm_num at hthrough ⊢
    linarith

end Program

/-- An order for a body that is thicker than what its key stands for. -/
def Order.thickSample : Order Rat :=
  { thinLipSample with title := some "HUB", thickness := some "1.004 in", hubMm := some 90 }

theorem Program.drills_through_thick :
    ∃ part p, Order.thickSample.build .standard = .ok part ∧
      part.thickness = { key := "1.00", inches := 1.004 } ∧ part.hubHeight = 0.5 ∧
      build .standard .standard (fun _ => none) part = .ok p ∧
      build .standard (CuttingConstants.standard.withBreakthrough (-5)) (fun _ => none) part = .ok p ∧
      ∃ s z, p.section? .op1Drill = some s ∧ s.deepestZ? = some z ∧ z = -1.65 ∧
        z ≤ -(part.totalHeight + 0.14) := by
  let hub : Hub Rat :=
    { nominalMm := 90, fittedMm := 90 - 0.1, diameter := toInches (90 - 0.1), height := 0.5 }
  let part : Part Rat := {
    programNumber := 7, title := "HUB", round := 5.75, thickness := .ofInches 1.004
    boreMm := 74, fittedBoreMm := 74 + 0.1, bore := toInches (74 + 0.1), lathe := .l1, fitted := true
    feedMode := .proven, variant := .hubCentric hub }
  have hpart : Order.thickSample.build .standard = .ok part := by decide +kernel
  have hbuilt : (build .standard .standard (fun _ => none) part).isOk = true := by decide +kernel
  obtain ⟨p, hp⟩ := exists_eq_ok hbuilt
  obtain ⟨row, s, z, hrow, hsame, hsection, hdeepest, hz, hthrough⟩ :=
    drills_through _ _ part _ _ _ p hpart hp
  have hfound : Depths.lookup part.thickness.key (some part.thickness.inches) 0
      = .ok ({ drill := -1.15, profile := -0.5 }, .table) := by decide +kernel
  obtain rfl := (Prod.mk.inj (Except.ok.inj ((hrow 0).symm.trans hfound))).1
  exact ⟨part, p, hpart, by decide +kernel, rfl, hp, hsame (-5), s, z, hsection, hdeepest,
    hz.trans (by decide +kernel), hthrough⟩

end SpacerTurning
