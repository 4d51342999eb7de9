import SpacerTurning.Number.Scalar
import SpacerTurning.Text.Blank
import SpacerTurning.Text.Uppercase

/-!
Lathes.

What a lathe can hold and turn, where its tools are, and which lathes run a round size.
-/

namespace SpacerTurning

/-- The lathes of the shop. -/
inductive LatheId where
  | l1
  | l2
  | l3
deriving DecidableEq, Repr

/-- Lathes of one class share their fixtures, and so their work offsets. -/
inductive LatheClass where
  | smallParts
  | largeParts
deriving DecidableEq, Repr

namespace LatheClass

def name : LatheClass → String
  | .smallParts => "small-parts"
  | .largeParts => "large-parts"

end LatheClass

namespace LatheId

def all : List LatheId := [.l1, .l2, .l3]

def name : LatheId → String
  | .l1 => "L1"
  | .l2 => "L2"
  | .l3 => "L3"

def latheClass : LatheId → LatheClass
  | .l1 => .smallParts
  | .l2 | .l3 => .largeParts

/-- The lathe that an operator names, by its name or its number alone. -/
def read? (text : String) : Option LatheId :=
  let key := Text.capitalize (Text.trim text.toList)
  if key = ['L', '1'] ∨ key = ['1'] then some .l1
  else if key = ['L', '2'] ∨ key = ['2'] then some .l2
  else if key = ['L', '3'] ∨ key = ['3'] then some .l3
  else none

/-- What an operator is told about a lathe there is none of. -/
def unknown (text : String) : String := "Unknown lathe: " ++ text

end LatheId

/-- Turret stations of the tools that a spacer needs. -/
structure Stations where
  drill : Nat
  bore : Nat
  turn : Nat
  chamfer : Nat
deriving DecidableEq, Repr

/-- What one lathe is set up for. -/
structure Lathe (α : Type) where
  id : LatheId
  /-- Round sizes, in inches. -/
  roundSizes : List α
  /-- Highest spindle speed. -/
  maxRpm : Nat
  /-- Highest surface speed, in feet per minute. -/
  maxCss : Nat
  /-- Where tools are changed, in machine coordinates. -/
  homeX : α
  homeZ : α
  /-- Widest stock the chuck holds. -/
  chuckCapacity : α
  tools : Stations
deriving Repr, DecidableEq

/-- Which lathes run a round size. -/
inductive LatheMatch where
  | unique (id : LatheId)
  | ambiguous (ids : List LatheId)
  | unsupported
deriving DecidableEq, Repr

namespace LatheMatch

/-- One lathe is an answer, several are a choice. -/
def ofList : List LatheId → LatheMatch
  | [] => .unsupported
  | [id] => .unique id
  | ids => .ambiguous ids

def toList : LatheMatch → List LatheId
  | .unique id => [id]
  | .ambiguous ids => ids
  | .unsupported => []

@[simp] theorem toList_ofList (ids : List LatheId) : (ofList ids).toList = ids := by
  match ids with
  | [] => rfl
  | [_] => rfl
  | _ :: _ :: _ => rfl

end LatheMatch

variable {α : Type} [Scalar α]

/-- A round size is one of a list, up to a thousandth of an inch. -/
def isListedRound (sizes : List α) (round : α) : Bool :=
  sizes.any fun size => decide (Scalar.magnitude (size - round) < 0.001)

/-- The envelopes of the lathes in use. -/
abbrev Lathes (α : Type) := List (Lathe α)

namespace Lathes

omit [Scalar α] in
/-- The envelope of one lathe: the first on the list. -/
def get? (lathes : Lathes α) (id : LatheId) : Option (Lathe α) :=
  lathes.find? fun lathe => lathe.id = id

def forRound (lathes : Lathes α) (round : α) : LatheMatch :=
  LatheMatch.ofList ((lathes.filter fun lathe => isListedRound lathe.roundSizes round).map (·.id))

def standard : Lathes α :=
  [{ id := .l1
     roundSizes := [5.75, 6.0, 6.25, 6.5]
     maxRpm := 3000
     maxCss := 1000
     homeX := -1.0
     homeZ := -11.0
     chuckCapacity := 7.0
     tools := { drill := 101, bore := 303, turn := 202, chamfer := 404 } },
   { id := .l2
     roundSizes := [7.0, 7.5, 8.0, 8.5]
     maxRpm := 2500
     maxCss := 900
     homeX := -1.5
     homeZ := -13.0
     chuckCapacity := 9.0
     tools := { drill := 101, bore := 121, turn := 303, chamfer := 202 } },
   { id := .l3
     roundSizes := [7.0, 7.5, 8.0, 8.5, 9.5, 10.25, 10.5, 13.0]
     maxRpm := 2000
     maxCss := 850
     homeX := -2.0
     homeZ := -15.0
     chuckCapacity := 13.5
     tools := { drill := 101, bore := 121, turn := 303, chamfer := 202 } }]

end Lathes
end SpacerTurning
