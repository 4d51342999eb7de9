import SpacerTurning.Text.Blank

/-!
Kinds of spacers and sources of feeds, and the names an operator gives them.
-/

namespace SpacerTurning

/-- The families of spacers. -/
inductive SpacerKind where
  /-- Plain, without a hub. -/
  | standard
  /-- With a raised hub, turned from the second side. -/
  | hubCentric
  /-- With a hub whose wall to the bore is thin. -/
  | thinLip
  /-- With a counterbored step on the first side. -/
  | step
  /-- With a pocket for a press-fit steel ring. -/
  | steelRing
  /-- The half of a two-piece set with the recess. -/
  | twoPieceLug
  /-- The half of a two-piece set with the hub. -/
  | twoPieceStud
deriving DecidableEq, Repr

/-- Names are compared without blanks around them, in small letters, and with an underscore for
each hyphen and each space.  No name holds a letter that a character beyond ASCII is the capital
of, so small letters of ASCII are enough. -/
def foldName (text : String) : String :=
  String.ofList ((Text.trim text.toList).map fun c =>
    let c := c.toLower
    if c = '-' ∨ c = ' ' then '_' else c)

namespace SpacerKind

def all : List SpacerKind :=
  [.standard, .hubCentric, .thinLip, .step, .steelRing, .twoPieceLug, .twoPieceStud]

/-- The second side turns a hub. -/
def hasHub : SpacerKind → Bool
  | .hubCentric | .thinLip | .twoPieceStud => true
  | _ => false

/-- The name written on a program and in reports. -/
def name : SpacerKind → String
  | .standard => "standard"
  | .hubCentric => "hub_centric"
  | .thinLip => "thin_lip"
  | .step => "step"
  | .steelRing => "steel_ring"
  | .twoPieceLug => "2pc_lug"
  | .twoPieceStud => "2pc_stud"

/-- The spelling in a record file. -/
def tag : SpacerKind → String
  | .twoPieceLug => "two_piece_lug"
  | .twoPieceStud => "two_piece_stud"
  | kind => kind.name

/-- The kind with a given spelling in a record file. -/
def ofTag? (text : String) : Option SpacerKind := all.find? fun kind => kind.tag = text

/-- Names that an operator may use, besides the one written on programs. -/
def aliases : SpacerKind → List String
  | .standard => ["std"]
  | .hubCentric => ["hubcentric", "hc"]
  | .thinLip => ["thinlip"]
  | .step => ["stepped"]
  | .steelRing => ["steelring"]
  | .twoPieceLug => ["two_piece_lug", "lug"]
  | .twoPieceStud => ["two_piece_stud", "stud"]

def read? (text : String) : Option SpacerKind :=
  all.find? fun kind => (kind.name :: kind.aliases).contains (foldName text)

/-- What an operator is told about a kind there is none of. -/
def unknown (text : String) : String := "Unknown spacer type: " ++ text

theorem ofTag?_tag (kind : SpacerKind) : ofTag? kind.tag = some kind := by
  cases kind <;> decide

end SpacerKind

/-- Where feeds and speeds come from. -/
inductive FeedMode where
  /-- Values proven on the floor. -/
  | proven
  /-- A formula on the surface speed. -/
  | calculated
deriving DecidableEq, Repr

namespace FeedMode

def name : FeedMode → String
  | .proven => "proven"
  | .calculated => "calculated"

/-- The source with a given name in a record file. -/
def ofName? (text : String) : Option FeedMode := [proven, calculated].find? fun m => m.name = text

def read? (text : String) : Option FeedMode :=
  let key := String.ofList ((Text.trim text.toList).map Char.toLower)
  if key = "proven" then some .proven
  else if key = "calculated" ∨ key = "calc" then some .calculated
  else none

/-- What an operator is told about a source there is none of. -/
def unknown (text : String) : String := "Unknown feed mode: " ++ text

end FeedMode
end SpacerTurning
