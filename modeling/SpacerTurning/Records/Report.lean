import SpacerTurning.Check.Report
import SpacerTurning.Records.Part

/-!
Reports, and what they are made from, as documents.
-/

namespace SpacerTurning

open Number Document

def Severity.ofName? (text : String) : Option Severity :=
  [critical, warning, recommendation].find? fun severity => severity.name = text

namespace Diagnostic

def document (d : Diagnostic Float) : Document :=
  .table [("severity", .text d.severity.name),
    ("line", ofOption nat d.line), ("message", .text d.message),
    ("suggested_fix", ofOption .text d.fix)]

/-- The diagnostic of a document.  Its cause is not written down, only its wording. -/
def ofDocument? (dialect : Dialect) (d : Document) : Option (Diagnostic Float) := do
  let record ← d.fullRecord? dialect ["severity", "line", "message", "suggested_fix"]
  let severity ← record.required "severity" (name? dialect Severity.ofName?)
  let line ← record.optional "line" (natUpTo? lineCountLimit)
  let message ← record.required "message" text?
  return { finding := .noted severity message, line, fix := ← record.optional "suggested_fix" text? }

end Diagnostic

namespace PartFacts

def document (f : PartFacts Float) : Document :=
  .table [("round_size", ofOption .number f.round), ("thickness", ofOption .number f.thickness),
    ("cb_mm", ofOption .number f.boreMm), ("ob_mm", ofOption .number f.hubMm),
    ("hub_height", ofOption .number f.hubHeight),
    ("counterbore_mm", ofOption .number f.counterboreMm),
    ("lathe", ofOption (fun id => .text (LatheId.name id)) f.lathe),
    ("spacer_type", ofOption (fun kind => .text (SpacerKind.tag kind)) f.kind)]

def ofDocument? (dialect : Dialect) (d : Document) : Option (PartFacts Float) := do
  let record ← d.record? dialect ["round_size", "thickness", "cb_mm", "ob_mm", "hub_height",
    "counterbore_mm", "lathe", "spacer_type"]
  return {
    round := ← record.optional "round_size" number?
    thickness := ← record.optional "thickness" number?
    boreMm := ← record.optional "cb_mm" number?
    hubMm := ← record.optional "ob_mm" number?
    hubHeight := ← record.optional "hub_height" number?
    counterboreMm := ← record.optional "counterbore_mm" number?
    lathe := ← record.optional "lathe" (name? dialect LatheId.ofName?)
    kind := ← record.optional "spacer_type" (name? dialect SpacerKind.ofTag?) }

end PartFacts

namespace BoreBlock

def document (b : BoreBlock Float) : Document :=
  let cut (c : BoreCut Float) : Document :=
    .table [("line", .integer c.line), ("diameter", .number c.diameter)]
  .table [("tool_line", .integer b.toolLine), ("tool", .integer b.tool),
    ("passes", .list (b.cuts.map cut))]

def cutOfDocument? (dialect : Dialect) (d : Document) : Option (BoreCut Float) := do
  let record ← d.record? dialect ["line", "diameter"]
  return {
    line := ← record.required "line" (natUpTo? lineCountLimit)
    diameter := ← record.required "diameter" number? }

def ofDocument? (dialect : Dialect) (d : Document) : Option (BoreBlock Float) := do
  let record ← d.record? dialect ["tool_line", "tool", "passes"]
  return {
    toolLine := ← record.required "tool_line" (natUpTo? lineCountLimit)
    tool := ← record.required "tool" codeField?
    cuts := ← record.required "passes" (listOf? (cutOfDocument? dialect)) }

end BoreBlock

def MotionState.tag : MotionState → String
  | .unknown => "Unknown"
  | .rapid => "Rapid"
  | .linear => "Linear"
  | .arc => "Arc"

def MotionState.ofTag? (text : String) : Option MotionState :=
  [unknown, rapid, linear, arc].find? fun motion => motion.tag = text

namespace ModalState

def document (s : ModalState Float) : Document :=
  .table [("motion", .text s.motion.tag), ("tool", ofOption nat s.tool),
    ("x", ofOption .number s.x), ("z", ofOption .number s.z), ("feed", ofOption .number s.feed),
    ("machine_coordinates", .bool s.machine)]

def ofDocument? (dialect : Dialect) (d : Document) : Option (ModalState Float) := do
  let record ← d.fullRecord? dialect ["motion", "tool", "x", "z", "feed", "machine_coordinates"]
  return {
    motion := ← record.required "motion" (name? dialect MotionState.ofTag?)
    tool := ← record.optional "tool" codeField?
    x := ← record.optional "x" number?
    z := ← record.optional "z" number?
    feed := ← record.optional "feed" number?
    machine := ← record.required "machine_coordinates" bool? }

end ModalState

namespace Features

def document (f : Features Float) : Document :=
  let use (t : ToolUse) : Document :=
    .table [("line", .integer t.line), ("tool", .integer t.tool),
      ("comment", ofOption .text t.comment)]
  let marked (m : MarkedDiameter Float) : Document :=
    .table [("line", .integer m.line), ("diameter", .number m.diameter)]
  .table [("program_number", ofOption nat f.programNumber),
    ("title", ofOption .text f.title), ("tools", .list (f.tools.map use)),
    ("work_offsets", .list (f.workOffsets.map nat)),
    ("deepest_z", ofOption .number f.deepestZ), ("center_bore", ofOption marked f.centerBore),
    ("outer_bore", ofOption marked f.outerBore)]

end Features

namespace FeasibilityReport

def document (r : FeasibilityReport Float) : Document :=
  .table [("feasible", .bool r.feasible), ("critical", .list (r.critical.map Diagnostic.document)),
    ("warnings", .list (r.warnings.map Diagnostic.document)),
    ("recommendations", .list (r.recommendations.map Diagnostic.document))]

end FeasibilityReport

namespace Report

def document (r : Report Float) : Document :=
  .table [("diagnostics", .list (r.diagnostics.map Diagnostic.document)),
    ("fixed_text", ofOption .text r.fixedText), ("features", r.features.document),
    ("feasibility", ofOption FeasibilityReport.document r.feasibility)]

end Report
end SpacerTurning
