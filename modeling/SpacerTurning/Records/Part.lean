import SpacerTurning.Part.Order
import SpacerTurning.Records.Settings

/-!
Parts and orders as documents.
-/

namespace SpacerTurning

open Number Document

/-- Largest number that a program, a code or a speed takes in a record. -/
def codeField? : Document → Option Nat := natUpTo? Scalar.codeLimit

/-- Largest number that a station or a slot takes in a record: 16 bits hold it. -/
def stationField? : Document → Option Nat := natUpTo? 65535

namespace Thickness

def document (t : Thickness Float) : Document :=
  .table [("key", .text t.key), ("inches", .number t.inches)]

def ofDocument? (dialect : Dialect) (d : Document) : Option (Thickness Float) := do
  let record ← d.record? dialect ["key", "inches"]
  return {
    key := ← record.required "key" text?
    inches := ← record.required "inches" number? }

end Thickness

namespace Hub

def entries (h : Hub Float) : List (String × Document) :=
  [("outer_bore_mm", .number h.nominalMm), ("outer_bore_adjusted_mm", .number h.fittedMm),
    ("outer_bore_in", .number h.diameter), ("hub_height", .number h.height)]

def ofDocument? (dialect : Dialect) (d : Document) : Option (Hub Float) := do
  let record ← d.record? dialect
    ["outer_bore_mm", "outer_bore_adjusted_mm", "outer_bore_in", "hub_height"]
  return {
    nominalMm := ← record.required "outer_bore_mm" number?
    fittedMm := ← record.required "outer_bore_adjusted_mm" number?
    diameter := ← record.required "outer_bore_in" number?
    height := ← record.required "hub_height" number? }

end Hub

namespace Counterbore

def entries (c : Counterbore Float) : List (String × Document) :=
  [("diameter_mm", .number c.nominalMm), ("diameter_in", .number c.diameter),
    ("depth", .number c.depth)]

def ofDocument? (dialect : Dialect) (d : Document) : Option (Counterbore Float) := do
  let record ← d.record? dialect ["diameter_mm", "diameter_in", "depth"]
  return {
    nominalMm := ← record.required "diameter_mm" number?
    diameter := ← record.required "diameter_in" number?
    depth := ← record.required "depth" number? }

end Counterbore

namespace Variant

def entries (v : Variant Float) : List (String × Document) :=
  ((v.hub?.map Hub.entries) <|> v.counterbore?.map Counterbore.entries).getD []

/-- A variant is a table of its dimensions, with its kind among them. -/
def document (v : Variant Float) : Document := .table (("type", .text v.kind.tag) :: v.entries)

/-- A variant without dimensions.  A list of any is a fault, other entries of a table are none. -/
def plain? (v : Variant Float) : Document → Option (Variant Float)
  | .list (_ :: _) => none
  | _ => some v

/-- The variant of a kind with the dimensions of a document. -/
def ofKind? (dialect : Dialect) (kind : SpacerKind) (d : Document) : Option (Variant Float) :=
  match kind with
  | .standard => plain? .standard d
  | .steelRing => plain? .steelRing d
  | .hubCentric => (Hub.ofDocument? dialect d).map .hubCentric
  | .thinLip => (Hub.ofDocument? dialect d).map .thinLip
  | .twoPieceStud => (Hub.ofDocument? dialect d).map .twoPieceStud
  | .step => (Counterbore.ofDocument? dialect d).map .step
  | .twoPieceLug => (Counterbore.ofDocument? dialect d).map .twoPieceLug

/-- The variant of a document.  In a list the kind comes first. -/
def ofDocument? (dialect : Dialect) : Document → Option (Variant Float)
  | .table entries => do
    let kind ← (entries.lookup "type").bind fun d => d.text?.bind SpacerKind.ofTag?
    ofKind? dialect kind (.table (entries.filter fun e => e.1 != "type"))
  | .list (first :: rest) => do
    let kind ← first.text?.bind SpacerKind.ofTag?
    ofKind? dialect kind (.list rest)
  | _ => none

end Variant

namespace Part

def document (p : Part Float) : Document :=
  .table [("program_number", .integer p.programNumber), ("title", .text p.title),
    ("round_size", .number p.round), ("thickness", p.thickness.document),
    ("cb_mm", .number p.boreMm), ("cb_adjusted_mm", .number p.fittedBoreMm),
    ("cb_in", .number p.bore), ("lathe", .text p.lathe.name), ("tolerancing", .bool p.fitted),
    ("feed_mode", .text p.feedMode.name), ("variant", p.variant.document)]

def ofDocument? (dialect : Dialect) (d : Document) : Option (Part Float) := do
  let record ← d.record? dialect ["program_number", "title", "round_size", "thickness", "cb_mm",
    "cb_adjusted_mm", "cb_in", "lathe", "tolerancing", "feed_mode", "variant"]
  return {
    programNumber := ← record.required "program_number" codeField?
    title := ← record.required "title" text?
    round := ← record.required "round_size" number?
    thickness := ← record.required "thickness" (Thickness.ofDocument? dialect)
    boreMm := ← record.required "cb_mm" number?
    fittedBoreMm := ← record.required "cb_adjusted_mm" number?
    bore := ← record.required "cb_in" number?
    lathe := ← record.required "lathe" (name? dialect LatheId.ofName?)
    fitted := ← record.required "tolerancing" bool?
    feedMode := ← record.required "feed_mode" (name? dialect FeedMode.ofName?)
    variant := ← record.required "variant" (Variant.ofDocument? dialect) }

end Part

namespace Order

/-- The order of a document, in which anything may be missing. -/
def ofDocument? (dialect : Dialect) (d : Document) : Option (Order Float) := do
  let record ← d.record? dialect ["program_number", "title", "round_size", "thickness", "cb_mm",
    "lathe", "tolerancing", "feed_mode", "spacer_type", "outer_bore_mm", "hub_height",
    "counterbore_mm", "counterbore_depth"]
  return {
    programNumber := ← record.optional "program_number" codeField?
    title := ← record.optional "title" text?
    round := ← record.optional "round_size" number?
    thickness := ← record.optional "thickness" text?
    boreMm := ← record.optional "cb_mm" number?
    lathe := ← record.optional "lathe" text?
    fitted := ← record.orElse "tolerancing" bool? false
    feedMode := ← record.orElse "feed_mode" (name? dialect FeedMode.ofName?) .proven
    kind := ← record.optional "spacer_type" (name? dialect SpacerKind.ofTag?)
    hubMm := ← record.optional "outer_bore_mm" number?
    hubHeight := ← record.optional "hub_height" number?
    counterboreMm := ← record.optional "counterbore_mm" number?
    counterboreDepth := ← record.optional "counterbore_depth" number? }

end Order
end SpacerTurning
