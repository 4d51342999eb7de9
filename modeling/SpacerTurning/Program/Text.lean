import SpacerTurning.Number.Places
import SpacerTurning.Number.Word
import SpacerTurning.Program.Basic
import SpacerTurning.Shop.WorkOffset
import SpacerTurning.Text.Lines
import SpacerTurning.Text.Uppercase

/-!
The text of a program.

Every block is a line, except that a constant surface speed takes two.  Coordinates and feeds are
written as program words; stations, speeds and slots as whole numbers.
-/

namespace SpacerTurning

open Number

/-- A comment in its parentheses.  Those inside would end it early and are left out; letters are
capitals. -/
def commentText (text : String) : String :=
  "(" ++ String.ofList (Text.capitalize (text.toList.filter fun c => c ≠ '(' ∧ c ≠ ')')) ++ ")"

/-- A word with a comment after it, if there is one. -/
def withComment (word comment : String) : String :=
  if comment = "" then word else word ++ " " ++ commentText comment

/-- The word of a program number, with five digits. -/
def numberWord (number : Nat) : String := "O" ++ String.ofList (paddedDigits 5 number)

def MotionMode.word : MotionMode → String
  | .rapid => "G00"
  | .linear => "G01"

def DiameterMarker.text : DiameterMarker → String
  | .centerBore => "(X IS CB)"
  | .outerBore => "(X IS OB)"

variable {α : Type} [Scalar α]

def word (letter : String) (x : α) : String := letter ++ Word.format x

namespace Motion

def words (m : Motion α) : List String :=
  (m.mode.map MotionMode.word).toList ++ (m.x.map (word "X")).toList
    ++ (m.z.map (word "Z")).toList ++ (m.feed.map (word "F")).toList
    ++ (m.marker.map DiameterMarker.text).toList

def text (m : Motion α) : String := " ".intercalate m.words

end Motion

def Block.lines : Block α → List String
  | .percent => ["%"]
  | .programNumber number title => [withComment (numberWord number) title]
  | .comment text => [commentText text]
  | .toolChange tool remark => [withComment ("T" ++ toString tool) remark]
  | .constantSurfaceSpeed maxRpm css =>
    ["G50 S" ++ toString maxRpm, "G96 S" ++ toString css ++ " M03"]
  | .fixedSpeed rpm => ["G97 S" ++ toString rpm ++ " M03"]
  | .workOffset slot => ["G154 " ++ workOffsetWord slot]
  | .coolantOn => ["M08"]
  | .coolantOff => ["M09"]
  | .motion m => [m.text]
  | .machineHome x z => ["G00 G53 " ++ word "X" x ++ " " ++ word "Z" z]
  | .programStop none => ["M00"]
  | .programStop (some message) => ["M00 " ++ commentText message]
  | .optionalStop => ["M01"]
  | .programEnd => ["M30"]

namespace Program

def lines (p : Program α) : List String := p.blocks.flatMap Block.lines

/-- The text of a program: every line ends with a line feed. -/
def text (p : Program α) : String := Text.joinLines p.lines

end Program
end SpacerTurning
