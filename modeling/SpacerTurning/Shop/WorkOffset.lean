import SpacerTurning.Part.Refusal

/-!
Work offsets.

Each thickness has a fixture slot for either side on every class of lathe.  A slot is a physical
thing, so that a thickness without one cannot be made.
-/

namespace SpacerTurning

open Number

/-- Which side of the part is being cut. -/
inductive Side where
  | op1
  | op2
deriving DecidableEq, Repr

def Side.name : Side → String
  | .op1 => "OP1"
  | .op2 => "OP2"

/-- The slots for both sides of a part. -/
structure WorkOffsets where
  op1 : Nat
  op2 : Nat
deriving DecidableEq, Repr

def workOffsetWord (slot : Nat) : String := "P" ++ toString slot

namespace WorkOffsets

def side (w : WorkOffsets) : Side → Nat
  | .op1 => w.op1
  | .op2 => w.op2

def smallParts : List (String × WorkOffsets) :=
  [("10MM", ⟨1, 2⟩), ("11MM", ⟨3, 4⟩), ("12MM", ⟨5, 6⟩), ("13MM", ⟨7, 8⟩), ("14MM", ⟨9, 10⟩),
   ("15MM", ⟨11, 12⟩), ("16MM", ⟨13, 14⟩), ("17MM", ⟨15, 16⟩), ("18MM", ⟨17, 18⟩),
   ("19MM", ⟨19, 20⟩), ("0.50", ⟨21, 22⟩), ("0.75", ⟨23, 24⟩), ("1.00", ⟨25, 26⟩),
   ("1.25", ⟨27, 28⟩), ("1.50", ⟨29, 30⟩), ("1.75", ⟨31, 32⟩), ("2.00", ⟨33, 34⟩),
   ("2.25", ⟨35, 36⟩), ("2.50", ⟨37, 38⟩)]

def largeParts : List (String × WorkOffsets) :=
  [("10MM", ⟨13, 14⟩), ("11MM", ⟨15, 16⟩), ("12MM", ⟨17, 18⟩), ("13MM", ⟨19, 20⟩),
   ("14MM", ⟨21, 22⟩), ("15MM", ⟨23, 24⟩), ("16MM", ⟨25, 26⟩), ("17MM", ⟨27, 28⟩),
   ("18MM", ⟨29, 30⟩), ("19MM", ⟨31, 32⟩), ("20MM", ⟨33, 34⟩), ("25MM", ⟨35, 36⟩),
   ("30MM", ⟨37, 38⟩), ("0.50", ⟨39, 40⟩), ("0.75", ⟨41, 42⟩), ("1.00", ⟨43, 44⟩),
   ("1.25", ⟨45, 46⟩), ("1.50", ⟨47, 48⟩), ("1.75", ⟨49, 50⟩), ("2.00", ⟨51, 52⟩),
   ("2.25", ⟨53, 54⟩), ("2.50", ⟨55, 56⟩), ("2.75", ⟨57, 58⟩), ("3.00", ⟨59, 60⟩),
   ("3.25", ⟨61, 62⟩), ("3.50", ⟨63, 64⟩), ("3.75", ⟨65, 66⟩), ("4.00", ⟨67, 68⟩)]

def table : LatheClass → List (String × WorkOffsets)
  | .smallParts => smallParts
  | .largeParts => largeParts

def get? (lathe : LatheId) (key : String) : Option WorkOffsets :=
  (table lathe.latheClass).lookup key

/-- The slots for a thickness on a lathe, or the refusal that there are none. -/
def find {α : Type} (lathe : LatheId) (key : String) : Except (Refusal α) WorkOffsets :=
  match get? lathe key with
  | some offsets => .ok offsets
  | none => .error (.missing (.workOffsets lathe.latheClass) key)

end WorkOffsets
end SpacerTurning
