import SpacerTurning.Text.Lines

/-!
Paths.

A path is kept as it was written, since that is how messages show it.  Its names are what stands
between slashes.
-/

namespace SpacerTurning

/-- A path as it was written. -/
structure Path where
  text : String
deriving Repr, DecidableEq

namespace Path

def isAbsolute (p : Path) : Bool := p.text.toList.head? == some '/'

/-- The path says that it leads to a directory. -/
def endsWithSlash (p : Path) : Bool := p.text.toList.getLast? == some '/'

/-- No file system takes a path with this character in it. -/
def hasNul (p : Path) : Bool := p.text.toList.contains '\x00'

/-- What stands between the slashes, which is nothing where two of them meet. -/
def segments (p : Path) : List String := (Text.split '/' p.text.toList).map String.ofList

def ofSegments (segments : List String) : Path := { text := "/".intercalate segments }

/-- What stands between the slashes, where there is anything. -/
def steps (p : Path) : List String := p.segments.filter (· ≠ "")

/-- A segment that leads nowhere else. -/
def isIdle (segment : String) : Bool := segment = "" || segment = "."

/-- The steps that are not the directory they start from. -/
def names (p : Path) : List String := p.segments.filter fun segment => !isIdle segment

/-- The ending of a name: what follows its last point, if anything stands before that point. -/
def nameEnding? (name : String) : Option String :=
  let back := name.toList.reverse
  match back.dropWhile (· ≠ '.') with
  | _ :: _ :: _ => some (String.ofList (back.takeWhile (· ≠ '.')).reverse)
  | _ => none

/-- The ending of the name that the path leads to. -/
def ending? (p : Path) : Option String :=
  match p.names.getLast? with
  | none | some ".." => none
  | some name => nameEnding? name

def below (p : Path) (rest : String) : Path :=
  { text := if p.endsWithSlash then p.text ++ rest else p.text ++ "/" ++ rest }

end Path
end SpacerTurning
