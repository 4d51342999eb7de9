import SpacerTurning.Program.Basic
import SpacerTurning.Records.Part

/-!
Programs as documents.

A block that is nothing but its kind is a name; any other block is a table with the kind as its
only key.
-/

namespace SpacerTurning

open Number Document

def MotionMode.ofName? : String → Option MotionMode
  | "Rapid" => some .rapid
  | "Linear" => some .linear
  | _ => none

def DiameterMarker.ofName? : String → Option DiameterMarker
  | "CenterBore" => some .centerBore
  | "OuterBore" => some .outerBore
  | _ => none

namespace Motion

def ofDocument? (dialect : Dialect) (d : Document) : Option (Motion Float) := do
  let record ← d.fullRecord? dialect ["mode", "x", "z", "feed", "marker"]
  return {
    mode := ← record.optional "mode" (name? dialect MotionMode.ofName?)
    x := ← record.optional "x" number?
    z := ← record.optional "z" number?
    feed := ← record.optional "feed" number?
    marker := ← record.optional "marker" (name? dialect DiameterMarker.ofName?) }

end Motion

namespace Block

/-- A block that is nothing but its kind. -/
def ofName? : String → Option (Block Float)
  | "Percent" => some .percent
  | "CoolantOn" => some .coolantOn
  | "CoolantOff" => some .coolantOff
  | "OptionalStop" => some .optionalStop
  | "ProgramEnd" => some .programEnd
  | _ => none

/-- The fields of a block.  No list stands for them. -/
def fields? (dialect : Dialect) (names : List String) : Document → Option Record
  | .table entries => (Document.table entries).record? dialect names
  | _ => none

/-- A block of a kind with what belongs to it. -/
def ofContent? (dialect : Dialect) (kind : String) (d : Document) : Option (Block Float) :=
  match kind with
  | "ProgramNumber" => do
    let record ← fields? dialect ["number", "title"] d
    return .programNumber (← record.required "number" codeField?) (← record.required "title" text?)
  | "Comment" => d.text?.map .comment
  | "ToolChange" => do
    let record ← fields? dialect ["tool", "comment"] d
    return .toolChange (← record.required "tool" stationField?)
      (← record.required "comment" text?)
  | "ConstantSurfaceSpeed" => do
    let record ← fields? dialect ["max_rpm", "css"] d
    return .constantSurfaceSpeed (← record.required "max_rpm" codeField?)
      (← record.required "css" codeField?)
  | "FixedRpm" => (codeField? d).map .fixedSpeed
  | "WorkOffset" => (stationField? d).map .workOffset
  | "Motion" => (Motion.ofDocument? dialect d).map .motion
  | "MachineHome" => do
    let record ← fields? dialect ["x", "z"] d
    return .machineHome (← record.required "x" number?) (← record.required "z" number?)
  | "ProgramStop" => (option? text? d).map .programStop
  | _ => none

def ofDocument? (dialect : Dialect) (d : Document) : Option (Block Float) :=
  match d with
  | .table [(kind, content)] => ofContent? dialect kind content <|> name? dialect ofName? d
  | _ => name? dialect ofName? d

end Block

namespace Section

def ofDocument? (dialect : Dialect) (d : Document) : Option (Section Float) := do
  let record ← d.record? dialect ["kind", "blocks"]
  return {
    kind := ← record.required "kind" (name? dialect SectionKind.ofTag?)
    blocks := ← record.required "blocks" (listOf? (Block.ofDocument? dialect)) }

end Section

namespace Program

def ofDocument? (dialect : Dialect) (d : Document) : Option (Program Float) := do
  let record ← d.record? dialect ["number", "title", "sections"]
  return {
    number := ← record.required "number" codeField?
    title := ← record.required "title" text?
    sections := ← record.required "sections" (listOf? (Section.ofDocument? dialect)) }

end Program
end SpacerTurning
