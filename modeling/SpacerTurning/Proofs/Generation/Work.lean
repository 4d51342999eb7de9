import SpacerTurning.Proofs.Generation.Runs

/-!
The work of a section.

A section works on one side of the part, or on none.  One that does is tools that run one after the
other, all with the work offset of its side and each at settings that the job has for some cut.
-/

namespace SpacerTurning

variable {α : Type}

/-- The side of the part that a section works on. -/
def SectionKind.side? : SectionKind → Option Side
  | .op1Drill | .op1Bore | .op1Turn => some .op1
  | .op2Turn | .op2Chamfer => some .op2
  | .header | .flip | .footer => none

theorem SectionKind.isIdle_of_side? {kind : SectionKind} (h : kind.side? = none) :
    kind.isIdle = true := by
  cases kind <;> first | rfl | cases h

/-- The block says how the spindle turns. -/
def Block.isSpindle : Block α → Bool
  | .constantSurfaceSpeed _ _ | .fixedSpeed _ => true
  | _ => false

namespace Job

@[simp] theorem isSpindle_spindleBlock (s : Spindle) :
    (spindleBlock s : Block α).isSpindle = true := by
  unfold spindleBlock
  split <;> rfl

variable [Scalar α]

/-- Runs of tools on one side, each at settings of the job. -/
def Works (j : Job α) (side : Side) (blocks : List (Block α)) : Prop :=
  ∃ runs : List (Run α), runs ≠ [] ∧ blocks = runs.flatMap j.runBlocks ∧
    ∀ r ∈ runs, r.side = side ∧ ∃ op diameter depth, r.settings = j.settings op diameter depth

theorem works_toolRun (j : Job α) (tool : Nat) (comment : String) (op : Operation)
    (diameter depth : α) (side : Side) (moves : List (Motion α)) :
    j.Works side (j.toolRun tool comment (j.settings op diameter depth) side moves) := by
  refine ⟨[⟨tool, comment, j.settings op diameter depth, side, moves⟩], by simp,
    by simp [runBlocks], fun r hr => ?_⟩
  rw [List.mem_singleton.1 hr]
  exact ⟨rfl, op, diameter, depth, rfl⟩

theorem Works.append {j : Job α} {side : Side} {a b : List (Block α)} (ha : j.Works side a)
    (hb : j.Works side b) : j.Works side (a ++ b) := by
  obtain ⟨runs, hne, rfl, hruns⟩ := ha
  obtain ⟨runs', -, rfl, hruns'⟩ := hb
  refine ⟨runs ++ runs', by simp [hne], by simp, fun r hr => ?_⟩
  exact (List.mem_append.1 hr).elim (hruns r) (hruns' r)

theorem works_boreChamferRun (j : Job α) : j.Works .op2 j.boreChamferRun := j.works_toolRun ..

theorem works_reboreRun (j : Job α) (comment : String) (diameter depth : α)
    (passes : List (Pass α)) : j.Works .op2 (j.reboreRun comment diameter depth passes) :=
  j.works_toolRun ..

theorem works_hubSection {j : Job α} {hub : Hub α} {increment : α} {comment : String}
    {s : Section α} (h : j.hubSection hub increment comment = .ok s) :
    j.Works .op2 s.blocks := by
  rw [of_hubSection h]
  exact j.works_toolRun ..

theorem works_op2TurnSection {j : Job α} {s : Section α} (h : j.op2TurnSection = .ok s) :
    j.Works .op2 s.blocks := by
  rcases of_op2TurnSection h with ⟨hub, increment, comment, -, -, h⟩ | ⟨-, rfl⟩
  · exact works_hubSection h
  · exact j.works_toolRun ..

theorem works_op2ChamferSection {j : Job α} {s : Section α} (h : j.op2ChamferSection = .ok s) :
    j.Works .op2 s.blocks := by
  obtain ⟨-, ⟨_, _, _, hs⟩ | ⟨_, _, _, hs⟩ | hs⟩ := of_op2ChamferSection h <;> rw [hs]
  · exact (j.works_reboreRun _ _ _ _).append j.works_boreChamferRun
  · exact j.works_reboreRun _ _ _ _
  · exact j.works_boreChamferRun

theorem works_sectionOf {j : Job α} {kind : SectionKind} {s : Section α} {side : Side}
    (h : j.sectionOf kind = .ok s) (hside : kind.side? = some side) : j.Works side s.blocks := by
  cases kind with
  | header | flip | footer => cases hside
  | op1Drill | op1Turn =>
    cases hside
    cases h
    exact j.works_toolRun ..
  | op1Bore =>
    cases hside
    obtain ⟨passes, -, rfl⟩ := map_eq_ok.1 h
    exact j.works_toolRun ..
  | op2Turn =>
    cases hside
    exact works_op2TurnSection h
  | op2Chamfer =>
    cases hside
    exact works_op2ChamferSection h

end Job
end SpacerTurning
