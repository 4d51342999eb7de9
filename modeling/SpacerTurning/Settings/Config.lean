import SpacerTurning.Shop.Constants
import SpacerTurning.Shop.Standards

/-!
Settings.

A configuration holds both sets of shop constants, and names a file of standards to be used instead
of the shop's own.  Constants that no program may be made or checked with are rejected, and so are
standards that nothing can be checked against.
-/

namespace SpacerTurning

open Number

/-- The settings of the shop. -/
structure Config (α : Type) where
  /-- A file of standards that takes the place of the shop's own. -/
  standardsPath : Option String := none
  generator : CuttingConstants α
  verifier : CheckingConstants α
deriving Repr, DecidableEq

/-- Why a constant is rejected. -/
inductive OutOfRange (α : Type) where
  | notPositive
  | zeroCount
  | value (v : α)
  | clearanceBelow (clearance least : α)
deriving Repr, DecidableEq

/-- Why standards are rejected. -/
inductive StandardsFault (α : Type) where
  | noRecords
  | noRoundSizes (lathe : LatheId)
  | noCapacity (lathe : LatheId)
  | thicknessInverted (lathe : LatheId) (least most : α)
deriving Repr, DecidableEq

/-- Why settings are rejected. -/
inductive SettingsFault (α : Type) where
  /-- The ending of a file's name says nothing about how it is written. -/
  | unsupportedFormat (ending : Option String)
  | outOfRange (key : String) (fault : OutOfRange α)
  | invalidStandards (fault : StandardsFault α)
deriving Repr, DecidableEq

section

variable {α : Type} [Scalar α]

def OutOfRange.message : OutOfRange α → String
  | .notPositive => "must be > 0"
  | .zeroCount => "0"
  | .value v => Scalar.shortest v
  | .clearanceBelow clearance least =>
    Scalar.shortest clearance ++ " is below work_offset_min_clearance " ++ Scalar.shortest least

def StandardsFault.message : StandardsFault α → String
  | .noRecords => "no lathe records"
  | .noRoundSizes lathe => lathe.name ++ " has no round sizes"
  | .noCapacity lathe => lathe.name ++ " chuck capacity and drill depth must be > 0"
  | .thicknessInverted lathe least most =>
    lathe.name ++ " thickness range " ++ Scalar.shortest least ++ "-" ++ Scalar.shortest most
      ++ " is inverted"

def SettingsFault.message : SettingsFault α → String
  | .unsupportedFormat ending =>
    "unsupported settings format '" ++ ending.getD "<none>" ++ "', expected .toml or .json"
  | .outOfRange key fault => key ++ " out of range: " ++ fault.message
  | .invalidStandards fault => "invalid standards matrix: " ++ fault.message

namespace CuttingConstants

/-- Constants that may be zero but not less. -/
def nonNegativeFields : List (Field (CuttingConstants α) α) :=
  fields.filter fun f => ["step_tolerance", "drill_breakthrough"].contains f.name

/-- The first fault of the constants, if there is one. -/
def fault? (c : CuttingConstants α) : Option (SettingsFault α) :=
  match c.nonPositive with
  | name :: _ => some (.outOfRange ("generator." ++ name) .notPositive)
  | [] =>
    (nonNegativeFields.find? fun f => decide (f.get c < 0)).map fun f =>
      .outOfRange ("generator." ++ f.name) (.value (f.get c))

end CuttingConstants

namespace CheckingConstants

/-- The constants that only make sense above zero, in the order in which they are looked at. -/
def positiveFields : List (Field (CheckingConstants α) α) :=
  ["default_safe_feed", "safe_entry_diameter", "max_bore_step", "work_offset_clearance_z"].filterMap
    fun name => fields.find? fun f => f.name = name

/-- The first fault of the constants, if there is one. -/
def fault? (c : CheckingConstants α) : Option (SettingsFault α) :=
  match counts.find? fun f : Field (CheckingConstants α) Nat => f.get c = 0 with
  | some f => some (.outOfRange ("verifier." ++ f.name) .zeroCount)
  | none =>
    match positiveFields.find? fun f => decide (f.get c ≤ 0) with
    | some f => some (.outOfRange ("verifier." ++ f.name) (.value (f.get c)))
    | none =>
      if c.dimensionToleranceMm < 0 then
        some (.outOfRange "verifier.dimension_tolerance_mm" (.value c.dimensionToleranceMm))
      else if c.workOffsetClearanceZ < c.workOffsetMinClearance then
        some (.outOfRange "verifier.work_offset_clearance_z"
          (.clearanceBelow c.workOffsetClearanceZ c.workOffsetMinClearance))
      else none

end CheckingConstants

namespace Config

def standard : Config α where
  generator := .standard
  verifier := .standard

/-- The first fault of the settings, if there is one. -/
def fault? (c : Config α) : Option (SettingsFault α) := c.generator.fault? <|> c.verifier.fault?

/-- The settings are accepted. -/
def isValid (c : Config α) : Bool := c.fault?.isNone

end Config

namespace LatheRecord

/-- The first fault of a record, if there is one. -/
def fault? (r : LatheRecord α) : Option (StandardsFault α) :=
  if r.roundSizes.isEmpty then some (.noRoundSizes r.lathe)
  else if r.chuckCapacity ≤ 0 ∨ r.maxDrillDepth ≤ 0 then some (.noCapacity r.lathe)
  else if r.minThickness > r.maxThickness then
    some (.thicknessInverted r.lathe r.minThickness r.maxThickness)
  else none

end LatheRecord

namespace Standards

/-- The first fault of the standards, if there is one. -/
def fault? (s : Standards α) : Option (SettingsFault α) :=
  let found : Option (StandardsFault α) :=
    if s.records.isEmpty then some .noRecords else s.records.findSome? LatheRecord.fault?
  found.map .invalidStandards

end Standards
end

end SpacerTurning
