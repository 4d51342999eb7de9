import SpacerTurning.Number.Word
import SpacerTurning.Part.Spacer
import SpacerTurning.Shop.Lathe

/-!
Findings.

A check never fails; it reports what it found.  A `Finding` is the cause, from which its severity
and its wording follow.  A `Diagnostic` adds the line it stands at and what would mend it.
-/

namespace SpacerTurning

open Number

/-- How urgent a finding is. -/
inductive Severity where
  /-- A crash or a scrapped part: the program must not be run. -/
  | critical
  /-- Likely wrong. -/
  | warning
  | recommendation
deriving DecidableEq, Repr

def Severity.name : Severity → String
  | .critical => "CRITICAL"
  | .warning => "WARNING"
  | .recommendation => "RECOMMENDATION"

/-- What a check can find. -/
inductive Finding (α : Type) where
  /-- A rapid move goes into the part.  `inherited` says that no word of its line asks for it. -/
  | rapidPlunge (z : α) (inherited : Bool)
  | missingFeed
  | lowClearance (z least : α)
  | bareFace (chamferLine : Nat)
  | wideEntry (tool : Nat) (diameter entry : α)
  | wideStep (tool : Nat) (gap reached diameter : α) (missing : List α)
  | noMarker (mark : String)
  | wrongDiameter (mark : String) (diameter expectedMm : α)
  | unverified (what missing : String)
  | noRecord (lathe : LatheId)
  | runsOn (round : α) (lathes : List LatheId)
  | runsNowhere (round : α)
  | roundNotRun (round : α) (lathe : LatheId) (sizes : List α)
  | exceedsChuck (round : α) (lathe : LatheId) (capacity : α)
  | thicknessOutOfRange (thickness : α) (lathe : LatheId) (least most : α)
  | kindNotMade (kind : SpacerKind) (lathe : LatheId)
  | tooThin (kind : SpacerKind) (lathe : LatheId) (least thickness : α)
  | tooThick (kind : SpacerKind) (lathe : LatheId) (most thickness : α)
  | hubTooHigh (kind : SpacerKind) (height : α) (lathe : LatheId) (most : α)
  | boreTooWide (bore : String) (mm round : α)
  | pastDrillDepth (height : α) (lathe : LatheId) (limit : α)
  | nearDrillDepth (height : α) (lathe : LatheId) (limit : α)
  | warpRisk (thickness round : α)
  | thinLipNote
  | hubNote
  | steelNote
  /-- Something else, in words. -/
  | noted (severity : Severity) (text : String)
deriving Repr, DecidableEq

namespace Finding

variable {α : Type}

def severity : Finding α → Severity
  | .rapidPlunge .. | .wideEntry .. | .runsNowhere _ | .roundNotRun .. | .exceedsChuck ..
  | .thicknessOutOfRange .. | .kindNotMade .. | .tooThin .. | .tooThick .. | .hubTooHigh ..
  | .boreTooWide .. => .critical
  | .missingFeed | .lowClearance .. | .bareFace _ | .wideStep .. | .wrongDiameter ..
  | .pastDrillDepth .. | .nearDrillDepth .. | .warpRisk .. | .thinLipNote | .steelNote => .warning
  | .noMarker _ | .unverified .. | .noRecord _ | .runsOn .. | .hubNote => .recommendation
  | .noted severity _ => severity

variable [Scalar α]

def diameterList (ds : List α) : String :=
  ", ".intercalate (ds.map fun d => "X" ++ Scalar.fixed 3 d)

def message : Finding α → String
  | .rapidPlunge z inherited =>
    "rapid move into part at Z" ++ Word.format z ++ if inherited then " (inherited G00)" else ""
  | .missingFeed => "G01 without a feed rate"
  | .lowClearance z least =>
    "first rapid after G154 stops at Z" ++ Word.format z ++ ", below the " ++ Word.format least
      ++ " clearance"
  | .bareFace line =>
    "bare Z0 rapids onto the face before the chamfer at line " ++ toString line
  | .wideEntry tool diameter entry =>
    "T" ++ toString tool ++ " enters the bore at X" ++ Scalar.fixed 3 diameter ++ ", above the "
      ++ Scalar.fixed 3 entry ++ " safe entry"
  | .wideStep tool gap reached diameter missing =>
    "T" ++ toString tool ++ " steps " ++ Scalar.fixed 3 gap ++ " from X" ++ Scalar.fixed 3 reached
      ++ " to X" ++ Scalar.fixed 3 diameter ++ "; missing " ++ diameterList missing
  | .noMarker mark => "cannot verify " ++ mark ++ ": no (X IS " ++ mark ++ ") marker in the program"
  | .wrongDiameter mark diameter expectedMm =>
    mark ++ " is X" ++ Word.format diameter ++ " (" ++ Scalar.fixed 2 (toMillimetres diameter)
      ++ "mm), expected " ++ Word.format expectedMm ++ "mm"
  | .unverified what missing => "cannot verify " ++ what ++ ": " ++ missing ++ " not provided"
  | .noRecord lathe => "cannot verify lathe limits: no standards record for " ++ lathe.name
  | .runsOn round lathes =>
    "round size " ++ Word.format round ++ " runs on "
      ++ " or ".intercalate (lathes.map LatheId.name)
  | .runsNowhere round =>
    "round size " ++ Word.format round ++ " is not supported on any lathe"
  | .roundNotRun round lathe sizes =>
    "round size " ++ Word.format round ++ " is not supported on " ++ lathe.name
      ++ " (supported: " ++ ", ".intercalate (sizes.map Word.format) ++ ")"
  | .exceedsChuck round lathe capacity =>
    "stock OD " ++ Word.format round ++ " exceeds the " ++ lathe.name ++ " chuck capacity of "
      ++ Word.format capacity
  | .thicknessOutOfRange thickness lathe least most =>
    "thickness " ++ Word.format thickness ++ " is outside the " ++ lathe.name ++ " range "
      ++ Word.format least ++ "-" ++ Word.format most
  | .kindNotMade kind lathe => kind.name ++ " spacers are not made on " ++ lathe.name
  | .tooThin kind lathe least thickness =>
    kind.name ++ " on " ++ lathe.name ++ " needs at least " ++ Word.format least
      ++ " thickness, got " ++ Word.format thickness
  | .tooThick kind lathe most thickness =>
    kind.name ++ " on " ++ lathe.name ++ " allows at most " ++ Word.format most
      ++ " thickness, got " ++ Word.format thickness
  | .hubTooHigh kind height lathe most =>
    kind.name ++ " hub height " ++ Word.format height ++ " exceeds the " ++ lathe.name
      ++ " limit of " ++ Word.format most
  | .boreTooWide bore mm round =>
    bore ++ " " ++ Word.format mm ++ "mm does not fit inside the " ++ Word.format round ++ " round"
  | .pastDrillDepth height lathe limit =>
    "total height " ++ Word.format height ++ " is past the " ++ lathe.name
      ++ " safe drill depth of " ++ Word.format limit ++ "; drill from both sides"
  | .nearDrillDepth height lathe limit =>
    "total height " ++ Word.format height ++ " is near the " ++ lathe.name
      ++ " safe drill depth of " ++ Word.format limit ++ "; consider two-operation drilling"
  | .warpRisk thickness round =>
    "thickness " ++ Word.format thickness ++ " is very thin for a " ++ Word.format round
      ++ " round; risk of warping"
  | .thinLipNote => "thin-lip part: verify the safety shelf clears the hub wall"
  | .hubNote => "verify hub clearance against the turning tool before op2"
  | .steelNote => "steel ring part: confirm feeds and speeds for steel before running"
  | .noted _ text => text

end Finding

/-- A finding, where it is, and what would mend it. -/
structure Diagnostic (α : Type) where
  finding : Finding α
  /-- Lines are counted from one. -/
  line : Option Nat := none
  fix : Option String := none
deriving Repr, DecidableEq

namespace Diagnostic

variable {α : Type}

def severity (d : Diagnostic α) : Severity := d.finding.severity

/-- The program or the part must not be run as it is. -/
def isCritical (d : Diagnostic α) : Bool := d.severity = .critical

def count (severity : Severity) (ds : List (Diagnostic α)) : Nat :=
  ds.countP fun d => d.severity = severity

variable [Scalar α]

def message (d : Diagnostic α) : String := d.finding.message

def text (d : Diagnostic α) : String :=
  let place := match d.line with
    | some line => " line " ++ toString line ++ ":"
    | none => ""
  let mend := match d.fix with
    | some fix => " (fix: " ++ fix ++ ")"
    | none => ""
  "[" ++ d.severity.name ++ "]" ++ place ++ " " ++ d.message ++ mend

end Diagnostic
end SpacerTurning
