import SpacerTurning.Generation.Hub

/-!
Building a program.

Kinds of spacers differ in how the first side is bored and in what is done to the second side.  The
rest is common.  `Program.build` checks the part, looks up what it needs and makes the sections in
order; the first refusal ends it.
-/

namespace SpacerTurning

open Number

namespace Job

variable {α : Type} [Scalar α]

/-- The passes for a bore with a counterbore.  The counterbore gets a chamfer if it is deeper than
one. -/
def counterborePasses (j : Job α) (shelf : Counterbore α) : Except (Refusal α) (List (Pass α)) :=
  (Boring.twoZonePlan j.constants j.part.bore shelf.diameter j.depths.drill shelf.depth
    (shelf.depth > j.constants.chamferDepth)).map (·.passes)

def plainPasses (j : Job α) : Except (Refusal α) (List (Pass α)) :=
  Boring.plan j.constants j.part.bore j.depths.drill true

/-- The passes for the seat of a press-fit ring: the holder goes through, and the bore stops above
it. -/
def ringSeatPasses (j : Job α) : Except (Refusal α) (List (Pass α)) :=
  let holder := Scalar.round4 (j.part.bore - j.constants.steelRingStepInset)
  let seat := Scalar.round4 (j.depths.drill + j.constants.steelRingStepOffset)
  (Boring.twoZonePlan j.constants holder j.part.bore j.depths.drill (-seat) true).map (·.passes)

/-- Height of the safety shelf that a thin lip is bored with on the first side. -/
def shelfZ (j : Job α) (hub : Hub α) : Except (Refusal α) α := do
  let z := Scalar.round4 (j.depths.drill + hub.height + j.constants.thinLipShelfOffset)
  demand (!decide (z ≥ 0)) (.invalid .thickness (.noRoomForShelf z))
  return z

/-- The diameter up to which a thin lip is bored through.  The entry pass always is. -/
def shelfLimit (j : Job α) : α :=
  Scalar.larger (j.part.bore - j.constants.thinLipShelfInset) j.constants.safeEntryDiameter

/-- The passes for a thin lip: those wider than the limit stop at the shelf. -/
def thinLipPasses (j : Job α) (hub : Hub α) : Except (Refusal α) (List (Pass α)) := do
  let shelf ← j.shelfZ hub
  let passes ← j.plainPasses
  return passes.map fun p =>
    if !p.isChamfer && decide (p.diameter > j.shelfLimit) then { p with z := shelf } else p

def borePasses (j : Job α) : Except (Refusal α) (List (Pass α)) :=
  match j.part.variant with
  | .standard | .hubCentric _ | .twoPieceStud _ => j.plainPasses
  | .thinLip hub => j.thinLipPasses hub
  | .step shelf | .twoPieceLug shelf => j.counterborePasses shelf
  | .steelRing => j.ringSeatPasses

/-- The pocket of a press-fit ring, on the second side. -/
def ringPocketSection (j : Job α) : Except (Refusal α) (Section α) := do
  let depth := j.constants.ringPocketDepth
  let height := j.part.totalHeight
  demand (!decide (depth ≥ height)) (.invalid .ringPocketDepth (.pocketThroughPart depth height))
  let pocket := Scalar.round4 (j.part.bore + j.constants.steelRingStepInset)
  let passes ← Boring.continuation j.constants j.part.bore pocket (-depth) false
  let s := j.settings .bore pocket depth
  return {
    kind := .op2Chamfer
    blocks := j.toolRun j.lathe.tools.bore "RING POCKET" s .op2
      (boringMoves j.clearance s.feeds none passes) }

/-- The widest pass of a thin lip that goes deeper than the shelf. -/
def fullDepthDiameter (shelf : α) (passes : List (Pass α)) : Except (Refusal α) α :=
  match Scalar.greatest? ((passes.filter fun p => !p.isChamfer && decide (p.z < shelf)).map
      (·.diameter)) with
  | some diameter => .ok diameter
  | none => .error (.invalid .centerBoreMm .noFullDepthPass)

/-- The safety shelf of a thin lip is taken out from the second side, and the bore gets its
chamfer. -/
def shelfCleanupSection (j : Job α) (hub : Hub α) : Except (Refusal α) (Section α) := do
  let shelf ← j.shelfZ hub
  let start ← fullDepthDiameter shelf (← j.thinLipPasses hub)
  let z := -Scalar.round4 (j.part.totalHeight + shelf + edgeBreak)
  let passes ← Boring.continuation j.constants start j.part.bore z false
  let s := j.settings .bore j.part.bore z
  return {
    kind := .op2Chamfer
    blocks := j.toolRun j.lathe.tools.bore "SHELF CLEANUP" s .op2
        (boringMoves j.clearance s.feeds none passes)
      ++ j.boreChamferRun }

def op2TurnSection (j : Job α) : Except (Refusal α) (Section α) :=
  match j.part.variant with
  | .hubCentric hub => j.hubSection hub j.constants.hubZIncrement "TURN HUB"
  | .thinLip hub => j.hubSection hub j.constants.thinLipZIncrement "TURN HUB THIN LIP"
  | .twoPieceStud hub => j.hubSection hub j.constants.hubZIncrement "TURN STUD"
  | _ => .ok j.op2FaceSection

def op2ChamferSection (j : Job α) : Except (Refusal α) (Section α) :=
  match j.part.variant with
  | .thinLip hub => j.shelfCleanupSection hub
  | .steelRing => j.ringPocketSection
  | _ => .ok { kind := .op2Chamfer, blocks := j.boreChamferRun }

/-- The diameter that the first side is faced down to.  Nothing is drilled yet when a part with a
ring is faced. -/
def faceTo (j : Job α) : α :=
  match j.part.variant with
  | .steelRing => 0.0
  | _ => j.part.bore - j.constants.preFinishOffset

def sectionOf (j : Job α) : SectionKind → Except (Refusal α) (Section α)
  | .header => .ok j.header
  | .op1Drill => .ok j.drillSection
  | .op1Bore => j.borePasses.map j.boreSection
  | .op1Turn => .ok (j.op1TurnSection j.faceTo)
  | .flip => .ok j.flip
  | .op2Turn => j.op2TurnSection
  | .op2Chamfer => j.op2ChamferSection
  | .footer => .ok footer

end Job

/-- The order of the sections for a kind of spacer.  With a ring, the outside is turned first. -/
def SpacerKind.sectionOrder : SpacerKind → List SectionKind
  | .steelRing =>
    [.header, .op1Turn, .op1Drill, .op1Bore, .flip, .op2Turn, .op2Chamfer, .footer]
  | _ => SectionKind.all

namespace Program

variable {α : Type} [Scalar α]

/-- The program of a job. -/
def ofJob (j : Job α) : Except (Refusal α) (Program α) := do
  let sections ← j.part.kind.sectionOrder.mapM j.sectionOf
  return { number := j.part.programNumber, title := j.part.title, sections }

def build (lathes : Lathes α) (constants : CuttingConstants α) (templates : Templates α)
    (part : Part α) : Except (Refusal α) (Program α) := do
  part.check
  match lathes.get? part.lathe with
  | none => .error (.invalid .lathe (.noEnvelope part.lathe))
  | some lathe => ofJob (← Job.resolve part lathe constants templates)

end Program
end SpacerTurning
