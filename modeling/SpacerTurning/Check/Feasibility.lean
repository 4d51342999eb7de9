import SpacerTurning.Check.Finding
import SpacerTurning.Part.Basic
import SpacerTurning.Shop.Standards

/-!
Feasibility.

Whether a part can be made on its lathe, as far as it is known: any dimension may be missing, and a
check that lacks one says so instead of failing.
-/

namespace SpacerTurning

open Number

/-- What is known about a part. -/
structure PartFacts (α : Type) where
  round : Option α := none
  /-- Thickness of the body, without a hub. -/
  thickness : Option α := none
  boreMm : Option α := none
  hubMm : Option α := none
  hubHeight : Option α := none
  counterboreMm : Option α := none
  lathe : Option LatheId := none
  kind : Option SpacerKind := none
deriving Repr, DecidableEq

/-- The outcome of the checks. -/
structure FeasibilityReport (α : Type) where
  feasible : Bool
  critical : List (Diagnostic α)
  warnings : List (Diagnostic α)
  recommendations : List (Diagnostic α)
deriving Repr, DecidableEq

namespace FeasibilityReport

variable {α : Type}

/-- The outcome of findings.  A part is feasible when none of them is critical. -/
def ofFindings (fs : List (Finding α)) : FeasibilityReport α :=
  let of (severity : Severity) : List (Diagnostic α) :=
    (fs.filter fun f => f.severity = severity).map fun finding => { finding }
  { feasible := (of .critical).isEmpty
    critical := of .critical
    warnings := of .warning
    recommendations := of .recommendation }

/-- All findings, the critical ones first. -/
def diagnostics (r : FeasibilityReport α) : List (Diagnostic α) :=
  r.critical ++ r.warnings ++ r.recommendations

end FeasibilityReport

namespace PartFacts

section

variable {α : Type} [Scalar α]

omit [Scalar α] in
/-- What is known about a part with all its dimensions. -/
def ofPart (p : Part α) : PartFacts α where
  round := some p.round
  thickness := some p.thickness.inches
  boreMm := some p.fittedBoreMm
  hubMm := p.variant.hub?.map (·.fittedMm)
  hubHeight := p.variant.hub?.map (·.height)
  counterboreMm := p.variant.counterbore?.map (·.nominalMm)
  lathe := some p.lathe
  kind := some p.kind

def totalHeight? (f : PartFacts α) : Option α := f.thickness.map fun t => t + f.hubHeight.getD 0

/-- Lengths this close count as equal. -/
def slack : α := 0.000000001

/-- The part of the drill depth above which a height is worth a warning. -/
def nearDrillDepth : α := 0.9

/-- Thickness over diameter below which a part may warp. -/
def leastAspect : α := 0.08

omit [Scalar α] in
/-- A finding that is there on a condition. -/
def when (condition : Bool) (finding : Finding α) : List (Finding α) :=
  if condition then [finding] else []

/-- The lathes that run a round size. -/
def candidates (s : Standards α) (round : α) : Finding α :=
  match s.forRound round with
  | .unique id => .runsOn round [id]
  | .ambiguous ids => .runsOn round ids
  | .unsupported => .runsNowhere round

def checkRound (f : PartFacts α) (r : LatheRecord α) : List (Finding α) :=
  match f.round with
  | some round =>
    when (!r.supportsRound round) (.roundNotRun round r.lathe r.roundSizes)
      ++ when (decide (round > r.chuckCapacity + slack))
        (.exceedsChuck round r.lathe r.chuckCapacity)
  | none => [.unverified "round size and chuck capacity" "round size"]

def checkThickness (f : PartFacts α) (r : LatheRecord α) : List (Finding α) :=
  match f.thickness with
  | some t =>
    when (decide (t < r.minThickness - slack) || decide (t > r.maxThickness + slack))
      (.thicknessOutOfRange t r.lathe r.minThickness r.maxThickness)
  | none => [.unverified "thickness range" "thickness"]

def checkRule (f : PartFacts α) (lathe : LatheId) (rule : KindRule α) : List (Finding α) :=
  let thin := match f.thickness, rule.minThickness with
    | some t, some least =>
      when (decide (t < least - slack)) (.tooThin rule.kind lathe least t)
    | _, _ => []
  let thick := match f.thickness, rule.maxThickness with
    | some t, some most =>
      when (decide (t > most + slack)) (.tooThick rule.kind lathe most t)
    | _, _ => []
  let hub := match rule.maxHubHeight, f.hubHeight with
    | none, _ => []
    | some most, some h => when (decide (h > most + slack)) (.hubTooHigh rule.kind h lathe most)
    | some _, none => [.unverified "hub height limit" "hub height"]
  thin ++ thick ++ hub

def checkKind (f : PartFacts α) (r : LatheRecord α) : List (Finding α) :=
  match f.kind with
  | none => [.unverified "piece-type rules" "spacer type"]
  | some kind =>
    match r.rule? kind with
    | none => [.kindNotMade kind r.lathe]
    | some rule => f.checkRule r.lathe rule

def checkLathe (f : PartFacts α) (s : Standards α) : List (Finding α) :=
  match f.lathe with
  | none => .unverified "lathe limits" "lathe" :: (f.round.map (candidates s)).toList
  | some lathe =>
    match s.get? lathe with
    | none => [.noRecord lathe]
    | some r => f.checkRound r ++ f.checkThickness r ++ f.checkKind r

def checkBore (name : String) (mm : Option α) (round : α) : List (Finding α) :=
  match mm with
  | some mm => when (decide (toInches mm ≥ round)) (.boreTooWide name mm round)
  | none => []

def checkBores (f : PartFacts α) : List (Finding α) :=
  match f.round with
  | none => []
  | some round =>
    checkBore "CB" f.boreMm round ++ checkBore "OB" f.hubMm round
      ++ checkBore "counterbore" f.counterboreMm round
      ++ when f.boreMm.isNone (.unverified "bore fit" "CB")

def checkHeight (f : PartFacts α) (s : Standards α) : List (Finding α) :=
  match f.totalHeight?, f.lathe.bind s.get? with
  | some height, some r =>
    let limit := r.maxDrillDepth
    if height > limit + slack then [.pastDrillDepth height r.lathe limit]
    else when (decide (height ≥ limit * nearDrillDepth)) (.nearDrillDepth height r.lathe limit)
  | _, _ => []

def checkAspect (f : PartFacts α) : List (Finding α) :=
  match f.thickness, f.round with
  | some t, some round =>
    when (decide (round > 0) && decide (t / round < leastAspect)) (.warpRisk t round)
  | _, _ => []

omit [Scalar α] in
def notes (f : PartFacts α) : List (Finding α) :=
  match f.kind with
  | some .thinLip => [.thinLipNote]
  | some .hubCentric | some .twoPieceStud => [.hubNote]
  | some .steelRing => [.steelNote]
  | _ => []

def findings (f : PartFacts α) (s : Standards α) : List (Finding α) :=
  f.checkLathe s ++ f.checkBores ++ f.checkHeight s ++ f.checkAspect ++ f.notes

def feasibility (f : PartFacts α) (s : Standards α) : FeasibilityReport α :=
  .ofFindings (f.findings s)

end
end PartFacts
end SpacerTurning
