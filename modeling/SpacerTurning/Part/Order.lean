import SpacerTurning.Part.Basic
import SpacerTurning.Shop.Constants

/-!
Orders.

An `Order` holds what an operator or a catalog says about a part, in which anything may be missing.
`Order.build` makes a part of it, or says what is missing or out of range first.
-/

namespace SpacerTurning

open Number

/-- What is known about a part to be made. -/
structure Order (α : Type) where
  programNumber : Option Nat := none
  title : Option String := none
  round : Option α := none
  /-- As in a table, or as an operator writes it. -/
  thickness : Option String := none
  boreMm : Option α := none
  lathe : Option String := none
  /-- Apply the fits. -/
  fitted : Bool := false
  feedMode : FeedMode := .proven
  kind : Option SpacerKind := none
  /-- Diameter of a hub, in millimetres. -/
  hubMm : Option α := none
  hubHeight : Option α := none
  /-- Diameter of a step or recess, in millimetres. -/
  counterboreMm : Option α := none
  counterboreDepth : Option α := none
deriving Repr, DecidableEq

namespace Order

variable {α : Type} [Scalar α]

omit [Scalar α] in
def required {β : Type} (dimension : Dimension) : Option β → Except (Refusal α) β
  | some value => .ok value
  | none => .error (.invalid dimension .required)

def requiredLength (dimension : Dimension) (value : Option α) : Except (Refusal α) α := do
  demandLength dimension (← required dimension value)

/-- A length that may be left to a shop constant, which is taken as it is. -/
def lengthOr (dimension : Dimension) (value fallback : Option α) : Except (Refusal α) α :=
  match value, fallback with
  | some x, _ => demandLength dimension x
  | none, some x => .ok x
  | none, none => .error (.invalid dimension .required)

omit [Scalar α] in
def buildNumber (o : Order α) : Except (Refusal α) Nat := do
  let number ← required .programNumber o.programNumber
  demand (1 ≤ number && number ≤ maxProgramNumber)
    (.invalid .programNumber (.numberOutOfRange number))
  return number

def buildThickness (o : Order α) : Except (Refusal α) (Thickness α) := do
  let text ← required .thickness o.thickness
  (Thickness.read text).mapError fun fault => .invalid .thickness (.badThickness fault)

omit [Scalar α] in
def buildLathe (o : Order α) : Except (Refusal α) LatheId := do
  let text ← required .lathe o.lathe
  match LatheId.read? text with
  | some lathe => .ok lathe
  | none => .error (.invalid .lathe (.unknownLathe text))

/-- A bore with its fit, in millimetres. -/
def fitBore (o : Order α) (constants : CuttingConstants α) (mm : α) : α :=
  if o.fitted then mm + constants.cbToleranceMm else mm

/-- A hub with its fit, in millimetres. -/
def fitHub (o : Order α) (constants : CuttingConstants α) (mm : α) : α :=
  if o.fitted then mm - constants.obToleranceMm else mm

/-- The hub, with a height to take when none is given. -/
def buildHub (o : Order α) (constants : CuttingConstants α) (round boreMm : α)
    (defaultHeight : Option α) : Except (Refusal α) (Hub α) := do
  let nominalMm ← requiredLength .outerBoreMm o.hubMm
  let height ← lengthOr .hubHeight o.hubHeight defaultHeight
  demand (!decide (nominalMm ≤ boreMm))
    (.invalid .outerBoreMm (.notWiderThanBore boreMm nominalMm))
  let fittedMm := o.fitHub constants nominalMm
  let diameter := toInches fittedMm
  demand (!decide (diameter ≥ round)) (.invalid .outerBoreMm (.hubNotInRound diameter round))
  return { nominalMm, fittedMm, diameter, height }

/-- The step or recess, with a depth to take when none is given. -/
def buildCounterbore (o : Order α) (thickness : Thickness α) (boreMm : α)
    (defaultDepth : Option α) : Except (Refusal α) (Counterbore α) := do
  let nominalMm ← requiredLength .counterboreMm o.counterboreMm
  let depth ← lengthOr .counterboreDepth o.counterboreDepth defaultDepth
  demand (!decide (nominalMm ≤ boreMm))
    (.invalid .counterboreMm (.notWiderThanBore boreMm nominalMm))
  demand (!decide (depth ≥ thickness.inches))
    (.invalid .counterboreDepth (.deeperThanPart depth thickness.inches))
  return { nominalMm, diameter := toInches nominalMm, depth }

/-- A hub on a part that is asked for as hub-centric: a lip at or under the threshold makes it a
thin lip.  A part asked for as thin lip stays one at any width. -/
def classifyHub (constants : CuttingConstants α) (boreMm : α) (hub : Hub α) : Variant α :=
  if hub.nominalMm - boreMm ≤ constants.thinLipThresholdMm then .thinLip hub else .hubCentric hub

def buildVariant (o : Order α) (constants : CuttingConstants α) (kind : SpacerKind) (round : α)
    (thickness : Thickness α) (boreMm : α) : Except (Refusal α) (Variant α) :=
  match kind with
  | .standard => .ok .standard
  | .steelRing => .ok .steelRing
  | .hubCentric =>
    (o.buildHub constants round boreMm none).map (classifyHub constants boreMm)
  | .thinLip => (o.buildHub constants round boreMm none).map .thinLip
  | .twoPieceStud =>
    (o.buildHub constants round boreMm (some constants.studHubHeight)).map .twoPieceStud
  | .step => (o.buildCounterbore thickness boreMm none).map .step
  | .twoPieceLug =>
    (o.buildCounterbore thickness boreMm (some constants.lugRecessDepth)).map .twoPieceLug

def defaultTitle (round : α) (thickness : Thickness α) (boreMm : α) (kind : SpacerKind)
    (lathe : LatheId) : String :=
  Scalar.shortest round ++ " " ++ thickness.key ++ " " ++ Scalar.shortest boreMm ++ "MM "
    ++ kind.name.toUpper ++ " " ++ lathe.name

/-- The part that an order describes. -/
def build (o : Order α) (constants : CuttingConstants α) : Except (Refusal α) (Part α) := do
  let programNumber ← o.buildNumber
  let round ← requiredLength .roundSize o.round
  let thickness ← o.buildThickness
  let boreMm ← requiredLength .centerBoreMm o.boreMm
  let lathe ← o.buildLathe
  let fittedBoreMm := o.fitBore constants boreMm
  let bore := toInches fittedBoreMm
  demand (!decide (bore ≥ round)) (.invalid .centerBoreMm (.boreNotInRound bore round))
  let kind ← required .spacerKind o.kind
  let variant ← o.buildVariant constants kind round thickness boreMm
  return {
    programNumber
    title := o.title.getD (defaultTitle round thickness boreMm variant.kind lathe)
    round
    thickness
    boreMm
    fittedBoreMm
    bore
    lathe
    fitted := o.fitted
    feedMode := o.feedMode
    variant }

end Order
end SpacerTurning
