import SpacerTurning.Part.Thickness
import SpacerTurning.Shop.Lathe

/-!
Why a part cannot be made.

Making a program stops at the first thing wrong with the part: a dimension out of its range, or a
table without a row for it.  A `Refusal` holds the cause; `Refusal.message` words it.  One thing wrong
does not stop it: passes that never get to the diameter they are for go on for ever.  Nothing is made
then either, and the cause is kept apart from the others.
-/

namespace SpacerTurning

open Number

/-- The dimensions that a rule can turn down. -/
inductive Dimension where
  | programNumber
  | roundSize
  | thickness
  | centerBoreMm
  | centerBore
  | lathe
  | spacerKind
  | outerBoreMm
  | hubHeight
  | counterboreMm
  | counterboreDepth
  | targetDiameter
  | holderDiameter
  | counterboreDiameter
  | drillDepth
  | stepDepth
  | z
  | hubIncrement
  | ringPocketDepth
deriving DecidableEq, Repr

def Dimension.name : Dimension → String
  | .programNumber => "program_number"
  | .roundSize => "round_size"
  | .thickness => "thickness"
  | .centerBoreMm => "cb_mm"
  | .centerBore => "cb_in"
  | .lathe => "lathe"
  | .spacerKind => "spacer_type"
  | .outerBoreMm => "outer_bore_mm"
  | .hubHeight => "hub_height"
  | .counterboreMm => "counterbore_mm"
  | .counterboreDepth => "counterbore_depth"
  | .targetDiameter => "target_diameter"
  | .holderDiameter => "holder_diameter"
  | .counterboreDiameter => "counterbore_diameter"
  | .drillDepth => "drill_depth"
  | .stepDepth => "step_depth"
  | .z => "z"
  | .hubIncrement => "hub_z_increment"
  | .ringPocketDepth => "ring_pocket_depth"

/-- Highest program number that a control takes. -/
def maxProgramNumber : Nat := 99999

/-- What is wrong with a dimension. -/
inductive Reason (α : Type) where
  | required
  | notPositive (value : α)
  | notNegative (value : α)
  | numberOutOfRange (number : Nat)
  | badThickness (fault : ThicknessFault)
  | unknownLathe (text : String)
  | noEnvelope (lathe : LatheId)
  | boreNotInRound (bore round : α)
  | notWiderThanBore (boreMm widthMm : α)
  | hubNotInRound (hub round : α)
  | hubNotAroundBore (hub bore round : α)
  | deeperThanPart (depth thickness : α)
  | notAboveEntry (diameter entry : α)
  | beyondReach (diameter reach : α)
  | shelfNotWider (shelf holder : α)
  | shelfNotAboveDrill (depth drill : α)
  | notWithinReach (target start reach : α)
  | noRoomForShelf (shelf : α)
  | noFullDepthPass
  | pocketThroughPart (depth height : α)
deriving Repr, DecidableEq

def Reason.message {α : Type} [Scalar α] : Reason α → String
  | .required => "required"
  | .notPositive v => "must be > 0, got " ++ Scalar.shortest v
  | .notNegative v => "must be < 0, got " ++ Scalar.shortest v
  | .numberOutOfRange n =>
    "must be 1..=" ++ toString maxProgramNumber ++ ", got " ++ toString n
  | .badThickness fault => fault.message
  | .unknownLathe text => LatheId.unknown text
  | .noEnvelope lathe => "unknown lathe " ++ lathe.name
  | .boreNotInRound bore round =>
    "center bore " ++ Scalar.fixed 4 bore ++ "in must be smaller than round size "
      ++ Scalar.shortest round ++ "in"
  | .notWiderThanBore boreMm widthMm =>
    "must be larger than CB " ++ Scalar.shortest boreMm ++ "mm, got " ++ Scalar.shortest widthMm
      ++ "mm"
  | .hubNotInRound hub round =>
    Scalar.fixed 4 hub ++ "in must be smaller than round size " ++ Scalar.shortest round ++ "in"
  | .hubNotAroundBore hub bore round =>
    Scalar.fixed 4 hub ++ "in must lie between CB " ++ Scalar.fixed 4 bore
      ++ "in and round size " ++ Scalar.shortest round ++ "in"
  | .deeperThanPart depth thickness =>
    Scalar.shortest depth ++ "in must be less than thickness " ++ Scalar.shortest thickness ++ "in"
  | .notAboveEntry diameter entry =>
    Scalar.shortest diameter ++ " must be larger than safe entry " ++ Scalar.shortest entry
  | .beyondReach diameter reach =>
    Scalar.shortest diameter ++ " exceeds boring range " ++ Scalar.shortest reach
  | .shelfNotWider shelf holder =>
    Scalar.shortest shelf ++ " must be larger than holder diameter " ++ Scalar.shortest holder
  | .shelfNotAboveDrill depth drill =>
    Scalar.shortest depth ++ " must be > 0 and shallower than drill depth "
      ++ Scalar.shortest drill
  | .notWithinReach target start reach =>
    Scalar.shortest target ++ " must be above " ++ Scalar.shortest start ++ " and within "
      ++ Scalar.shortest reach
  | .noRoomForShelf shelf =>
    "too thin for a thin-lip safety shelf (shelf Z " ++ Scalar.shortest shelf ++ ")"
  | .noFullDepthPass => "no full-depth pass under the safety shelf"
  | .pocketThroughPart depth height =>
    Scalar.shortest depth ++ " must be less than part height " ++ Scalar.shortest height

/-- The tables of the shop that are looked up by thickness. -/
inductive ShopTable where
  | depths
  | workOffsets (latheClass : LatheClass)
deriving DecidableEq, Repr

def ShopTable.name : ShopTable → String
  | .depths => "depth"
  | .workOffsets c => "P-code (" ++ c.name ++ ")"

/-- Why a part cannot be made. -/
inductive Refusal (α : Type) where
  /-- A dimension is missing or out of its range. -/
  | invalid (dimension : Dimension) (reason : Reason α)
  /-- A table has no row for a thickness, and nothing else to go by. -/
  | missing (table : ShopTable) (key : String)
  /-- The passes that open a bore never reach its target, and making the program has no end. -/
  | endless
deriving Repr, DecidableEq

namespace Refusal

variable {α : Type} [Scalar α]

def message : Refusal α → String
  | .invalid dimension reason =>
    "Invalid dimension '" ++ dimension.name ++ "': " ++ reason.message
  | .missing table key => "No " ++ table.name ++ " entry for '" ++ key ++ "'"
  | .endless => "the bore step is lost in rounding"

end Refusal

/-- Passes when the condition holds, and refuses otherwise. -/
def demand {ε : Type} (condition : Bool) (refusal : ε) : Except ε Unit :=
  if condition then .ok () else .error refusal

section

variable {α : Type} [Scalar α]

/-- A value that counts as a length: finite, and above zero. -/
def isLength (x : α) : Bool := Scalar.isFinite x && !decide (x ≤ 0)

def demandLength (dimension : Dimension) (x : α) : Except (Refusal α) α :=
  if isLength x then .ok x else .error (.invalid dimension (.notPositive x))

end

end SpacerTurning
