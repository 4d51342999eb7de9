/-!
Lines of a text.

A line ends at a line feed, together with one carriage return directly before it.  A text that
ends with a line feed has no empty line after it, so `splitLines` takes back what `joinLines`
writes.
-/

namespace SpacerTurning
namespace Text

/-- Takes out the carriage returns that belong to a line end: those directly before a line feed.
The first part of the result is the first character of the text. -/
def dropReturns (cs : List Char) : Option Char × List Char :=
  cs.foldr (fun c (next, rest) =>
    (some c, if c = '\r' ∧ next = some '\n' then rest else c :: rest)) (none, [])

def consLine (c : Char) : List (List Char) → List (List Char)
  | [] => [[c]]
  | line :: lines => (c :: line) :: lines

/-- The pieces of a text that a mark ends, and a last piece that has no mark. -/
def split (mark : Char) (cs : List Char) : List (List Char) :=
  cs.foldr (fun c pieces => if c = mark then [] :: pieces else consLine c pieces) []

def splitLines (text : String) : List String :=
  (split '\n' (dropReturns text.toList).2).map String.ofList

def joinLines (lines : List String) : String :=
  String.join (lines.map (· ++ "\n"))

/-- The text ends with a line feed. -/
def endsWithFeed (text : String) : Bool := text.toList.getLast? == some '\n'

theorem split_cons (mark c : Char) (cs : List Char) :
    split mark (c :: cs) = if c = mark then [] :: split mark cs else consLine c (split mark cs) :=
  rfl

theorem dropReturns_fst (cs : List Char) : (dropReturns cs).1 = cs.head? := by
  cases cs <;> rfl

theorem dropReturns_snd_cons (c : Char) (cs : List Char) :
    (dropReturns (c :: cs)).2 =
      if c = '\r' ∧ cs.head? = some '\n' then (dropReturns cs).2 else c :: (dropReturns cs).2 := by
  rw [← dropReturns_fst]
  rfl

end Text
end SpacerTurning
