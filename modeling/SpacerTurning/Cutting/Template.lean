import SpacerTurning.Cutting.Feeds

/-!
Templates.

Settings that were used for a similar part before may be used again.  A `Templates` source answers
for a round size, a bore and a cut, or has no answer, in which case the settings are computed.
-/

namespace SpacerTurning

open Number

/-- What a source of templates is asked. -/
structure TemplateQuery (α : Type) where
  round : α
  boreMm : α
  operation : Operation
deriving Repr, DecidableEq

/-- A source of templates. -/
abbrev Templates (α : Type) := TemplateQuery α → Option (CutSettings α)

/-- One set of settings that was used before. -/
structure TemplateEntry (α : Type) where
  round : α
  boreMm : α
  operation : Operation
  settings : CutSettings α
deriving Repr, DecidableEq

namespace Templates

variable {α : Type}

def none : Templates α := fun _ => .none

/-- The first element with the least gap. -/
def nearest {β : Type} [LT α] [DecidableLT α] : List (β × α) → Option (β × α)
  | [] => .none
  | (b, gap) :: rest =>
    match nearest rest with
    | .some (b', gap') => if gap' < gap then .some (b', gap') else .some (b, gap)
    | .none => .some (b, gap)

variable [Scalar α]

/-- The entries for the cut and the round size of a query whose bore differs by at most a tolerance,
each with the difference. -/
def matching (entries : List (TemplateEntry α)) (tolerance : α) (query : TemplateQuery α) :
    List (TemplateEntry α × α) :=
  (entries.filter fun e =>
      e.operation = query.operation && decide (Scalar.magnitude (e.round - query.round) < 0.001))
    |>.map (fun e => (e, Scalar.magnitude (e.boreMm - query.boreMm)))
    |>.filter (fun (_, gap) => decide (gap ≤ tolerance))

/-- The source over a list of entries: the nearest bore within the tolerance. -/
def ofEntries (entries : List (TemplateEntry α)) (tolerance : α) : Templates α := fun query =>
  (nearest (matching entries tolerance query)).map fun (e, _) => e.settings

end Templates
end SpacerTurning
