import SpacerTurning.Cutting.Boring
import SpacerTurning.Cutting.Template
import SpacerTurning.Program.Basic
import SpacerTurning.Shop.Depths
import SpacerTurning.Shop.WorkOffset

/-!
Jobs.

A `Job` is a part with everything that was looked up for it: its lathe, the depths and work offsets
for its thickness, the shop constants and a source of templates.  From it come the runs of blocks
that every section is put together from.
-/

namespace SpacerTurning

open Number

/-- A part with what was looked up for it. -/
structure Job (α : Type) where
  part : Part α
  lathe : Lathe α
  constants : CuttingConstants α
  /-- The drill goes through body and hub. -/
  depths : Depths α
  offsets : WorkOffsets
  templates : Templates α

namespace Job

variable {α : Type} [Scalar α]

def resolve (part : Part α) (lathe : Lathe α) (constants : CuttingConstants α)
    (templates : Templates α) : Except (Refusal α) (Job α) := do
  let (found, _) ← Depths.lookup part.thickness.key (some part.thickness.inches)
    constants.drillBreakthrough
  let depths := { found with drill := Scalar.round4 (found.drill - part.hubHeight) }
  let offsets ← WorkOffsets.find part.lathe part.thickness.key
  return { part, lathe, constants, depths, offsets, templates }

/-- The settings of a cut: those of a template, or else computed ones. -/
def settings (j : Job α) (op : Operation) (diameter depth : α) : CutSettings α :=
  let setup := CutSetup.ofPart j.lathe j.part
  match j.templates { round := j.part.round, boreMm := j.part.boreMm, operation := op } with
  | some found => setup.finish found
  | none => setup.settings op diameter depth

omit [Scalar α] in
def clearance (j : Job α) : α := j.constants.clearanceZ

/-- The diameter at which the tool is just outside the stock. -/
def outsideStock (j : Job α) : α := Scalar.round4 (j.part.round + j.constants.stockClearance)

/-- The diameter that a face is cut down to, just inside the bore. -/
def insideBore (j : Job α) : α := Scalar.round4 (j.part.bore - j.constants.preFinishOffset)

omit [Scalar α] in
def spindleBlock (s : Spindle) : Block α :=
  match s.css with
  | some css => .constantSurfaceSpeed s.maxRpm css
  | none => .fixedSpeed s.rpm

omit [Scalar α] in
/-- One tool at work: it is taken up, makes its moves, and is sent home. -/
def toolRun (j : Job α) (tool : Nat) (comment : String) (s : CutSettings α) (side : Side)
    (moves : List (Motion α)) : List (Block α) :=
  [.toolChange tool comment, spindleBlock s.spindle, .workOffset (j.offsets.side side), .coolantOn]
    ++ moves.map .motion
    ++ [.coolantOff, .machineHome j.lathe.homeX j.lathe.homeZ, .optionalStop]

end Job

namespace Motion

variable {α : Type}

/-- A rapid move along the axis of the part. -/
def rapidZ (z : α) : Motion α := { mode := some .rapid, z := some z }

def rapidX (x : α) : Motion α := { mode := some .rapid, x := some x }

def rapidXZ (x z : α) : Motion α := { mode := some .rapid, x := some x, z := some z }

/-- A cut down or up. -/
def feedZ (feed z : α) : Motion α := { mode := some .linear, z := some z, feed := some feed }

def feedX (feed x : α) : Motion α := { mode := some .linear, x := some x, feed := some feed }

def feedXZ (feed x z : α) : Motion α :=
  { mode := some .linear, x := some x, z := some z, feed := some feed }

/-- A rapid move to a diameter.  The first one after a tool is taken up also goes to the clearance
height, since no height is known there. -/
def approach (clearance : α) (first : Bool) (x : α) : Motion α :=
  if first then rapidXZ x clearance else rapidX x

end Motion
end SpacerTurning
