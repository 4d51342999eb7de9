import SpacerTurning.Generation.Job

/-!
Sections that every kind of spacer has.
-/

namespace SpacerTurning
namespace Job

open Number

/-- Width of an edge that is broken at 45 degrees. -/
def edgeBreak {α : Type} [Scalar α] : α := 0.05

variable {α : Type} [Scalar α]

/-- The head of a program: number, title and what the operator sets up for. -/
def header (j : Job α) : Section α :=
  let p := j.part
  let hubNote (hub : Hub α) : Block α :=
    .comment ("OB " ++ Scalar.shortest hub.nominalMm ++ "MM HUB " ++ Scalar.shortest hub.height)
  let counterboreNote (shelf : Counterbore α) : Block α :=
    .comment ("COUNTERBORE " ++ Scalar.shortest shelf.nominalMm ++ "MM DEPTH "
      ++ Scalar.shortest shelf.depth)
  { kind := .header
    blocks :=
      [.percent, .programNumber p.programNumber p.title,
        .comment (p.kind.name ++ " SPACER " ++ p.lathe.name),
        .comment ("ROUND " ++ Scalar.shortest p.round ++ " THK " ++ p.thickness.key ++ " CB "
          ++ Scalar.shortest p.boreMm ++ "MM")]
        ++ (p.variant.hub?.map hubNote).toList
        ++ (p.variant.counterbore?.map counterboreNote).toList }

omit [Scalar α] in
/-- The operator turns the part over. -/
def flip (j : Job α) : Section α where
  kind := .flip
  blocks :=
    [.machineHome j.lathe.homeX j.lathe.homeZ,
      .programStop (some ("FLIP PART OP2 " ++ workOffsetWord j.offsets.op2))]

omit [Scalar α] in
def footer : Section α := { kind := .footer, blocks := [.programEnd, .percent] }

/-- The pilot drill, through the whole stock. -/
def drillSection (j : Job α) : Section α :=
  let s := j.settings .drill 0.0 j.depths.drill
  { kind := .op1Drill
    blocks := j.toolRun j.lathe.tools.drill "DRILL" s .op1
      [.rapidXZ 0.0 j.clearance, .feedZ s.feeds.rough j.depths.drill, .rapidZ j.clearance] }

/-- The moves of one boring pass.  A finishing pass at the marked diameter carries the mark. -/
def passMoves (clearance : α) (feeds : FeedRates α) (mark : Option (α × DiameterMarker))
    (first : Bool) (pass : Pass α) : List (Motion α) :=
  let approach := Motion.approach clearance first pass.diameter
  let marker := mark.bind fun (target, m) =>
    if pass.kind = .finish ∧ Scalar.magnitude (pass.diameter - target) < 0.0001 then some m
    else none
  match pass.kind with
  | .chamfer =>
    [approach, .feedZ feeds.chamfer 0.0,
      .feedXZ feeds.chamfer (Scalar.round4 (pass.diameter + 2.0 * pass.z)) pass.z,
      .rapidZ clearance]
  | .rough => [approach, .feedZ feeds.rough pass.z, .rapidZ clearance]
  | .finish => [{ approach with marker }, .feedZ feeds.finish pass.z, .rapidZ clearance]

def boringMoves (clearance : α) (feeds : FeedRates α) (mark : Option (α × DiameterMarker)) :
    List (Pass α) → List (Motion α)
  | [] => []
  | pass :: rest =>
    passMoves clearance feeds mark true pass ++ rest.flatMap (passMoves clearance feeds mark false)

/-- The boring section of the first side, for passes that reach the bore. -/
def boreSection (j : Job α) (passes : List (Pass α)) : Section α :=
  let s := j.settings .bore j.part.bore j.depths.drill
  { kind := .op1Bore
    blocks := j.toolRun j.lathe.tools.bore "BORE" s .op1
      (boringMoves j.clearance s.feeds (some (j.part.bore, .centerBore)) passes) }

/-- Faces from outside the stock down to a diameter, and breaks the outer edge. -/
def faceMoves (j : Job α) (feeds : FeedRates α) (faceTo : α) : List (Motion α) :=
  [.rapidXZ j.outsideStock j.clearance,
    .feedZ feeds.finish 0.0,
    .feedX feeds.rough (Scalar.round4 faceTo),
    .rapidZ j.clearance,
    .rapidX (Scalar.round4 (j.part.round - 2.0 * edgeBreak)),
    .feedZ feeds.chamfer 0.0,
    .feedXZ feeds.chamfer j.part.round (-edgeBreak)]

/-- The face and the outside of the first side. -/
def op1TurnSection (j : Job α) (faceTo : α) : Section α :=
  let s := j.settings .turnOp1 j.part.round j.depths.profile
  { kind := .op1Turn
    blocks := j.toolRun j.lathe.tools.turn "TURN OP1" s .op1
      (j.faceMoves s.feeds faceTo
        ++ [.feedZ s.feeds.rough j.depths.profile, .feedX s.feeds.rough j.outsideStock,
          .rapidZ j.clearance]) }

/-- The face of the second side of a part without a hub. -/
def op2FaceSection (j : Job α) : Section α :=
  let s := j.settings .turnOp2 j.part.round edgeBreak
  { kind := .op2Turn
    blocks := j.toolRun j.lathe.tools.turn "TURN OP2" s .op2
      (j.faceMoves s.feeds (j.part.bore - j.constants.preFinishOffset)
        ++ [.feedX s.feeds.rough j.outsideStock, .rapidZ j.clearance]) }

/-- Breaks the edge of the bore from the second side. -/
def boreChamferRun (j : Job α) : List (Block α) :=
  let depth := j.constants.chamferDepth
  let s := j.settings .chamfer j.part.bore depth
  j.toolRun j.lathe.tools.chamfer "BORE CHAMFER" s .op2
    [.rapidXZ (Scalar.round4 (j.part.bore + 2.0 * depth)) j.clearance,
      .feedZ s.feeds.chamfer 0.0,
      .feedXZ s.feeds.chamfer (Scalar.round4 j.part.bore) (-depth),
      .rapidZ j.clearance]

end Job
end SpacerTurning
