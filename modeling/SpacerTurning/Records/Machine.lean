import SpacerTurning.Cutting.Template
import SpacerTurning.Records.Part

/-!
Lathes, cutting settings and templates as documents.
-/

namespace SpacerTurning

open Number Document

namespace Stations

def document (s : Stations) : Document :=
  .table [("drill", .integer s.drill), ("bore", .integer s.bore), ("turn", .integer s.turn),
    ("chamfer", .integer s.chamfer)]

def ofDocument? (dialect : Dialect) (d : Document) : Option Stations := do
  let record ← d.record? dialect ["drill", "bore", "turn", "chamfer"]
  return {
    drill := ← record.required "drill" stationField?
    bore := ← record.required "bore" stationField?
    turn := ← record.required "turn" stationField?
    chamfer := ← record.required "chamfer" stationField? }

end Stations

namespace Lathe

def document (l : Lathe Float) : Document :=
  .table [("id", .text l.id.name), ("round_sizes", .list (l.roundSizes.map .number)),
    ("max_rpm", .integer l.maxRpm), ("max_css", .integer l.maxCss), ("home_x", .number l.homeX),
    ("home_z", .number l.homeZ), ("chuck_capacity", .number l.chuckCapacity),
    ("tools", l.tools.document)]

def ofDocument? (dialect : Dialect) (d : Document) : Option (Lathe Float) := do
  let record ← d.record? dialect ["id", "round_sizes", "max_rpm", "max_css", "home_x", "home_z",
    "chuck_capacity", "tools"]
  return {
    id := ← record.required "id" (name? dialect LatheId.ofName?)
    roundSizes := ← record.required "round_sizes" (listOf? number?)
    maxRpm := ← record.required "max_rpm" codeField?
    maxCss := ← record.required "max_css" codeField?
    homeX := ← record.required "home_x" number?
    homeZ := ← record.required "home_z" number?
    chuckCapacity := ← record.required "chuck_capacity" number?
    tools := ← record.required "tools" (Stations.ofDocument? dialect) }

end Lathe

def Lathes.document (lathes : Lathes Float) : Document :=
  .table [("lathes", .list (lathes.map Lathe.document))]

namespace CutSettings

def spindleOfDocument? (dialect : Dialect) (d : Document) : Option Spindle := do
  let record ← d.fullRecord? dialect ["max_rpm", "rpm", "css"]
  return {
    maxRpm := ← record.required "max_rpm" codeField?
    rpm := ← record.required "rpm" codeField?
    css := ← record.optional "css" codeField? }

def feedsOfDocument? (dialect : Dialect) (d : Document) : Option (FeedRates Float) := do
  let record ← d.record? dialect ["rough", "finish", "chamfer"]
  return {
    rough := ← record.required "rough" number?
    finish := ← record.required "finish" number?
    chamfer := ← record.required "chamfer" number? }

def ofDocument? (dialect : Dialect) (d : Document) : Option (CutSettings Float) := do
  let record ← d.record? dialect ["spindle", "feeds"]
  return {
    spindle := ← record.required "spindle" (spindleOfDocument? dialect)
    feeds := ← record.required "feeds" (feedsOfDocument? dialect) }

end CutSettings

namespace TemplateEntry

def ofDocument? (dialect : Dialect) (d : Document) : Option (TemplateEntry Float) := do
  let record ← d.record? dialect ["round_size", "cb_mm", "operation", "params"]
  return {
    round := ← record.required "round_size" number?
    boreMm := ← record.required "cb_mm" number?
    operation := ← record.required "operation" (name? dialect Operation.ofTag?)
    settings := ← record.required "params" (CutSettings.ofDocument? dialect) }

end TemplateEntry
end SpacerTurning
