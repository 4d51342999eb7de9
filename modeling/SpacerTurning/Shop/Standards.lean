import SpacerTurning.Part.Spacer
import SpacerTurning.Shop.Lathe

/-!
Shop standards.

For every lathe the shop writes down what it runs: round sizes, stock width, thicknesses, the
deepest safe drilling, and a rule for each kind of spacer that may be run on it.  A kind without a
rule may not.
-/

namespace SpacerTurning

open Number

/-- What limits one kind of spacer on one lathe. -/
structure KindRule (α : Type) where
  kind : SpacerKind
  /-- Thinnest body. -/
  minThickness : Option α := none
  /-- Thickest body. -/
  maxThickness : Option α := none
  /-- Highest hub. -/
  maxHubHeight : Option α := none
deriving Repr, DecidableEq

/-- What one lathe runs. -/
structure LatheRecord (α : Type) where
  lathe : LatheId
  roundSizes : List α
  /-- Widest stock the chuck holds. -/
  chuckCapacity : α
  /-- Thinnest body. -/
  minThickness : α
  /-- Thickest body. -/
  maxThickness : α
  /-- Deepest drilling in one go. -/
  maxDrillDepth : α
  /-- The kinds that may be run. -/
  rules : List (KindRule α)
deriving Repr, DecidableEq

/-- The records of the shop's lathes. -/
structure Standards (α : Type) where
  records : List (LatheRecord α)
deriving Repr, DecidableEq

/-- Why a round size alone does not tell the lathe. -/
inductive ChoiceFault (α : Type) where
  | ambiguous (round : α) (lathes : List LatheId)
  | unsupported (round : α)
deriving Repr, DecidableEq

def ChoiceFault.message {α : Type} [Scalar α] : ChoiceFault α → String
  | .ambiguous round lathes =>
    Scalar.shortest round ++ "in rounds run on " ++ " or ".intercalate (lathes.map (·.name))
      ++ "; pick one with --lathe"
  | .unsupported round => "no lathe runs " ++ Scalar.shortest round ++ "in rounds"

namespace LatheRecord

variable {α : Type}

/-- The rule for a kind: the first one written down. -/
def rule? (r : LatheRecord α) (kind : SpacerKind) : Option (KindRule α) :=
  r.rules.find? fun rule => rule.kind = kind

variable [Scalar α]

def supportsRound (r : LatheRecord α) (round : α) : Bool := isListedRound r.roundSizes round

end LatheRecord

namespace Standards

section

variable {α : Type}

/-- The record of a lathe: the first one written down. -/
def get? (s : Standards α) (lathe : LatheId) : Option (LatheRecord α) :=
  s.records.find? fun r => r.lathe = lathe

/-- The lathes of the records: speeds and tools as on the base list, round sizes and stock width as
recorded.  A lathe that is not on the base list is left out. -/
def lathes (s : Standards α) (base : Lathes α) : Lathes α :=
  s.records.filterMap fun r => (base.get? r.lathe).map fun lathe =>
    { lathe with roundSizes := r.roundSizes, chuckCapacity := r.chuckCapacity }

end

variable {α : Type} [Scalar α]

def forRound (s : Standards α) (round : α) : LatheMatch :=
  LatheMatch.ofList ((s.records.filter (·.supportsRound round)).map (·.lathe))

/-- The lathe for a round size: the only one that runs it. -/
def choose (s : Standards α) (round : α) : Except (ChoiceFault α) LatheId :=
  match s.forRound round with
  | .unique lathe => .ok lathe
  | .ambiguous lathes => .error (.ambiguous round lathes)
  | .unsupported => .error (.unsupported round)

/-- The rules of the small lathe. -/
def smallPartsRules : List (KindRule α) :=
  [{ kind := .standard },
   { kind := .hubCentric, maxHubHeight := some 1.0 },
   { kind := .thinLip, minThickness := some 0.75, maxHubHeight := some 0.75 },
   { kind := .step },
   { kind := .twoPieceLug },
   { kind := .twoPieceStud, maxHubHeight := some 0.5 }]

/-- The rules of a large lathe, which differ in the height of a hub. -/
def largePartsRules (maxHub : α) : List (KindRule α) :=
  [{ kind := .standard },
   { kind := .hubCentric, maxHubHeight := some maxHub },
   { kind := .thinLip, minThickness := some 0.75, maxHubHeight := some maxHub },
   { kind := .step },
   { kind := .steelRing, minThickness := some 0.75 },
   { kind := .twoPieceLug },
   { kind := .twoPieceStud, maxHubHeight := some 0.5 }]

/-- The standard record for what a lathe is set up for. -/
def recordOf (lathe : Lathe α) : LatheRecord α :=
  let (minThickness, maxThickness, maxDrillDepth, rules) : α × α × α × List (KindRule α) :=
    match lathe.id with
    | .l1 => (0.5, 2.5, 3.0, smallPartsRules)
    | .l2 => (0.5, 4.0, 4.5, largePartsRules 1.5)
    | .l3 => (0.75, 4.0, 4.5, largePartsRules 2.0)
  { lathe := lathe.id
    roundSizes := lathe.roundSizes
    chuckCapacity := lathe.chuckCapacity
    minThickness, maxThickness, maxDrillDepth, rules }

def ofLathes (lathes : Lathes α) : Standards α := { records := lathes.map recordOf }

def standard : Standards α := ofLathes Lathes.standard

end Standards
end SpacerTurning
