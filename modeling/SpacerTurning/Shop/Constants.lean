import SpacerTurning.Number.Scalar
import SpacerTurning.Shop.Field

/-!
Shop constants.

Offsets and limits that come from practice rather than from a rule.  `CuttingConstants` go into
making a program and `CheckingConstants` into checking one.  Lengths are inches unless a field says
otherwise.
-/

namespace SpacerTurning

/-- Constants for planning passes and writing programs. -/
structure CuttingConstants (α : Type) where
  /-- First boring diameter, just above the pilot drill. -/
  safeEntryDiameter : α
  /-- Largest widening of the bore by one pass. -/
  maxBoreStep : α
  /-- Slack on the largest widening. -/
  stepTolerance : α
  /-- How far under the target the last roughing pass stays. -/
  preFinishOffset : α
  /-- Depth of a chamfer at 45 degrees. -/
  chamferDepth : α
  /-- Widest diameter that the boring bar reaches. -/
  maxBoreDiameter : α
  /-- A hub at most this much wider than the bore, in millimetres, is a thin lip. -/
  thinLipThresholdMm : α
  /-- Full-depth passes stay this far under the bore in a thin lip. -/
  thinLipShelfInset : α
  /-- Height of a thin lip's safety shelf above drill depth and hub. -/
  thinLipShelfOffset : α
  /-- Step in Z when a hub is turned. -/
  hubZIncrement : α
  /-- Step in Z when the hub of a thin lip is turned. -/
  thinLipZIncrement : α
  /-- Height of a ring seat above drill depth. -/
  steelRingStepOffset : α
  /-- A ring seat is this much narrower than the bore. -/
  steelRingStepInset : α
  /-- Depth of the ring pocket on the second side. -/
  ringPocketDepth : α
  /-- Depth of a lug recess when none is given. -/
  lugRecessDepth : α
  /-- Height of a stud hub when none is given. -/
  studHubHeight : α
  /-- Added to the bore, in millimetres, for a fit. -/
  cbToleranceMm : α
  /-- Taken off the hub, in millimetres, for a fit. -/
  obToleranceMm : α
  /-- Height at which the tool moves freely above the face. -/
  clearanceZ : α
  /-- Distance outside the stock at which turning begins. -/
  stockClearance : α
  /-- Extra drill depth for a thickness that the depth table lacks. -/
  drillBreakthrough : α
deriving Repr, DecidableEq

/-- Constants for checking a program. -/
structure CheckingConstants (α : Type) where
  /-- Lines searched backwards for a feed. -/
  lookaheadLines : Nat
  /-- Lines searched after a work offset is chosen. -/
  contextLines : Nat
  /-- Feed written where none precedes. -/
  defaultSafeFeed : α
  /-- Feed moves below this depth are boring passes. -/
  boreSurfaceDepth : α
  /-- Least height of the first rapid after a work offset. -/
  workOffsetMinClearance : α
  /-- Height written where that rapid is too low. -/
  workOffsetClearanceZ : α
  /-- Allowed difference of a marked diameter, in millimetres. -/
  dimensionToleranceMm : α
  /-- First boring diameter, just above the pilot drill. -/
  safeEntryDiameter : α
  /-- Largest widening of the bore by one pass. -/
  maxBoreStep : α
  /-- Slack on the largest widening. -/
  stepTolerance : α
deriving Repr, DecidableEq

namespace CuttingConstants

variable {α : Type}

/-- Every constant under the name it has in a settings file, in the order of the file. -/
def fields : List (Field (CuttingConstants α) α) :=
  [⟨"safe_entry_diameter", (·.safeEntryDiameter), fun v s => { s with safeEntryDiameter := v }⟩,
   ⟨"max_bore_step", (·.maxBoreStep), fun v s => { s with maxBoreStep := v }⟩,
   ⟨"step_tolerance", (·.stepTolerance), fun v s => { s with stepTolerance := v }⟩,
   ⟨"pre_finish_offset", (·.preFinishOffset), fun v s => { s with preFinishOffset := v }⟩,
   ⟨"chamfer_depth", (·.chamferDepth), fun v s => { s with chamferDepth := v }⟩,
   ⟨"max_bore_diameter", (·.maxBoreDiameter), fun v s => { s with maxBoreDiameter := v }⟩,
   ⟨"thin_lip_threshold_mm", (·.thinLipThresholdMm),
     fun v s => { s with thinLipThresholdMm := v }⟩,
   ⟨"thin_lip_shelf_inset", (·.thinLipShelfInset), fun v s => { s with thinLipShelfInset := v }⟩,
   ⟨"thin_lip_shelf_offset", (·.thinLipShelfOffset),
     fun v s => { s with thinLipShelfOffset := v }⟩,
   ⟨"hub_z_increment", (·.hubZIncrement), fun v s => { s with hubZIncrement := v }⟩,
   ⟨"thin_lip_z_increment", (·.thinLipZIncrement), fun v s => { s with thinLipZIncrement := v }⟩,
   ⟨"steel_ring_step_offset", (·.steelRingStepOffset),
     fun v s => { s with steelRingStepOffset := v }⟩,
   ⟨"steel_ring_step_inset", (·.steelRingStepInset),
     fun v s => { s with steelRingStepInset := v }⟩,
   ⟨"ring_pocket_depth", (·.ringPocketDepth), fun v s => { s with ringPocketDepth := v }⟩,
   ⟨"lug_recess_depth", (·.lugRecessDepth), fun v s => { s with lugRecessDepth := v }⟩,
   ⟨"stud_hub_height", (·.studHubHeight), fun v s => { s with studHubHeight := v }⟩,
   ⟨"cb_tolerance_mm", (·.cbToleranceMm), fun v s => { s with cbToleranceMm := v }⟩,
   ⟨"ob_tolerance_mm", (·.obToleranceMm), fun v s => { s with obToleranceMm := v }⟩,
   ⟨"clearance_z", (·.clearanceZ), fun v s => { s with clearanceZ := v }⟩,
   ⟨"stock_clearance", (·.stockClearance), fun v s => { s with stockClearance := v }⟩,
   ⟨"drill_breakthrough", (·.drillBreakthrough), fun v s => { s with drillBreakthrough := v }⟩]

/-- The constants that only make sense above zero. -/
def positiveFields : List (Field (CuttingConstants α) α) :=
  let names := ["safe_entry_diameter", "max_bore_step", "chamfer_depth", "max_bore_diameter",
    "hub_z_increment", "thin_lip_z_increment", "ring_pocket_depth", "lug_recess_depth",
    "stud_hub_height", "clearance_z"]
  fields.filter fun f => names.contains f.name

variable [Scalar α]

def standard : CuttingConstants α where
  safeEntryDiameter := 2.3
  maxBoreStep := 0.3
  stepTolerance := 0.005
  preFinishOffset := 0.1
  chamferDepth := 0.15
  maxBoreDiameter := 6.0
  thinLipThresholdMm := 5.0
  thinLipShelfInset := 0.625
  thinLipShelfOffset := 0.37
  hubZIncrement := 0.2
  thinLipZIncrement := 0.1
  steelRingStepOffset := 0.15
  steelRingStepInset := 0.175
  ringPocketDepth := 0.55
  lugRecessDepth := 0.31
  studHubHeight := 0.25
  cbToleranceMm := 0.1
  obToleranceMm := 0.1
  clearanceZ := 0.2
  stockClearance := 0.1
  drillBreakthrough := 0.15

/-- Largest widening that a check accepts. -/
def maxStepWithTolerance (c : CuttingConstants α) : α := c.maxBoreStep + c.stepTolerance

/-- Names of the constants that are at or below zero and must not be. -/
def nonPositive (c : CuttingConstants α) : List String :=
  (positiveFields.filter fun f => f.get c ≤ 0).map (·.name)

end CuttingConstants

namespace CheckingConstants

variable {α : Type}

/-- The counts of lines, under the names they have in a settings file. -/
def counts : List (Field (CheckingConstants α) Nat) :=
  [⟨"lookahead_lines", (·.lookaheadLines), fun v s => { s with lookaheadLines := v }⟩,
   ⟨"context_lines", (·.contextLines), fun v s => { s with contextLines := v }⟩]

/-- The other constants, which follow the counts in a settings file. -/
def fields : List (Field (CheckingConstants α) α) :=
  [⟨"default_safe_feed", (·.defaultSafeFeed), fun v s => { s with defaultSafeFeed := v }⟩,
   ⟨"bore_surface_depth", (·.boreSurfaceDepth), fun v s => { s with boreSurfaceDepth := v }⟩,
   ⟨"work_offset_min_clearance", (·.workOffsetMinClearance),
     fun v s => { s with workOffsetMinClearance := v }⟩,
   ⟨"work_offset_clearance_z", (·.workOffsetClearanceZ),
     fun v s => { s with workOffsetClearanceZ := v }⟩,
   ⟨"dimension_tolerance_mm", (·.dimensionToleranceMm),
     fun v s => { s with dimensionToleranceMm := v }⟩,
   ⟨"safe_entry_diameter", (·.safeEntryDiameter), fun v s => { s with safeEntryDiameter := v }⟩,
   ⟨"max_bore_step", (·.maxBoreStep), fun v s => { s with maxBoreStep := v }⟩,
   ⟨"step_tolerance", (·.stepTolerance), fun v s => { s with stepTolerance := v }⟩]

variable [Scalar α]

/-- The constants the shop works with.  Boring is checked by the rules it is planned by. -/
def standard : CheckingConstants α where
  lookaheadLines := 100
  contextLines := 20
  defaultSafeFeed := 0.008
  boreSurfaceDepth := 0.2
  workOffsetMinClearance := 0.1
  workOffsetClearanceZ := 0.2
  dimensionToleranceMm := 0.15
  safeEntryDiameter := CuttingConstants.standard.safeEntryDiameter
  maxBoreStep := CuttingConstants.standard.maxBoreStep
  stepTolerance := CuttingConstants.standard.stepTolerance

end CheckingConstants
end SpacerTurning
