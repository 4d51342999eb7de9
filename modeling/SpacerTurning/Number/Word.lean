import SpacerTurning.Number.Scalar
import SpacerTurning.Text.Blank

/-!
Numbers in program words.

A program word carries at most four decimal places, no zeros at the end, and always a point: `2.`
is the whole number two.  `Word.format` writes it and `Word.read` takes it back.
-/

namespace SpacerTurning
namespace Number
namespace Word

variable {α : Type} [Scalar α]

def dropTrailingZeros (cs : List Char) : List Char :=
  (cs.reverse.dropWhile (· == '0')).reverse

/-- A value as the number of a program word.  What rounds to zero has no sign, and so has what is
no finite number. -/
def format (x : α) : String :=
  let rounded := Scalar.round4 x
  if rounded == 0 || !Scalar.isFinite rounded then "0."
  else String.ofList (dropTrailingZeros (Scalar.fixed 4 rounded).toList)

/-- The value of a number in a program word, blanks around it allowed. -/
def read (cs : List Char) : Option α :=
  match Numeral.read (Text.trim cs) with
  | some (.decimal d) =>
    let x : α := Scalar.ofDecimal d
    if Scalar.isFinite x then some x else none
  | _ => none

end Word
end Number
end SpacerTurning
