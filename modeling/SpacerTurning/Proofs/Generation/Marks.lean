import SpacerTurning.Proofs.Generation.Bore
import SpacerTurning.Proofs.Generation.Runs

/-!
Marked diameters of a program.

Two moves carry a mark: the approach of a finishing pass that reaches the bore, and the corner of a
hub.  What a whole program marks is therefore what its boring passes mark and then its hub.  However
the bore is opened, the first pass that is marked is the finishing pass at the bore itself: a holder
under it is too narrow, and a counterbore around it comes later.
-/

namespace SpacerTurning

section

variable {α : Type}

/-- The mark that a move carries, with the diameter that the move names. -/
def Motion.mark? (m : Motion α) : Option (DiameterMarker × Option α) :=
  m.marker.map fun mark => (mark, m.x)

namespace Motion

@[simp] theorem mark?_rapidZ (z : α) : (rapidZ z).mark? = none := rfl

@[simp] theorem mark?_rapidX (x : α) : (rapidX x).mark? = none := rfl

@[simp] theorem mark?_rapidXZ (x z : α) : (rapidXZ x z).mark? = none := rfl

@[simp] theorem mark?_feedZ (feed z : α) : (feedZ feed z).mark? = none := rfl

@[simp] theorem mark?_feedX (feed x : α) : (feedX feed x).mark? = none := rfl

@[simp] theorem mark?_feedXZ (feed x z : α) : (feedXZ feed x z).mark? = none := rfl

@[simp] theorem mark?_approach (clearance : α) (first : Bool) (x : α) :
    (approach clearance first x).mark? = none := by
  cases first <;> rfl

theorem x_approach (clearance : α) (first : Bool) (x : α) :
    (approach clearance first x).x = some x := by
  cases first <;> rfl

end Motion

def Block.mark? : Block α → Option (DiameterMarker × Option α)
  | .motion m => m.mark?
  | _ => none

variable [Scalar α]

/-- A finishing pass at the marked diameter carries the mark. -/
def Pass.mark? (target : α) (mark : DiameterMarker) (pass : Pass α) :
    Option (DiameterMarker × Option α) :=
  if pass.kind = .finish ∧ Scalar.magnitude (pass.diameter - target) < 0.0001 then
    some (mark, some pass.diameter)
  else none

namespace Job

variable {j : Job α}

omit [Scalar α] in
theorem marks_toolRun (j : Job α) (tool : Nat) (comment : String) (settings : CutSettings α)
    (side : Side) (moves : List (Motion α)) :
    (j.toolRun tool comment settings side moves).filterMap Block.mark?
      = moves.filterMap Motion.mark? := by
  have hstart : ([.toolChange tool comment, spindleBlock settings.spindle,
      .workOffset (j.offsets.side side), .coolantOn] : List (Block α)).filterMap Block.mark? = [] := by
    unfold spindleBlock
    split <;> rfl
  have hmoves : (moves.map Block.motion).filterMap Block.mark? = moves.filterMap Motion.mark? := by
    rw [List.filterMap_map]
    rfl
  rw [toolRun, List.filterMap_append, List.filterMap_append, hstart, hmoves, List.nil_append]
  exact List.append_nil _

theorem marks_passMoves (clearance : α) (feeds : FeedRates α) (target : α) (mark : DiameterMarker)
    (first : Bool) (pass : Pass α) :
    (passMoves clearance feeds (some (target, mark)) first pass).filterMap Motion.mark?
      = (pass.mark? target mark).toList := by
  unfold passMoves Pass.mark?
  cases hkind : pass.kind with
  | rough | chamfer => simp
  | finish =>
    by_cases hnear : Scalar.magnitude (pass.diameter - target) < 0.0001 <;>
      simp [hnear, Motion.mark?, Motion.x_approach, Motion.feedZ, Motion.rapidZ]

theorem marks_boringMoves (clearance : α) (feeds : FeedRates α) (target : α)
    (mark : DiameterMarker) (passes : List (Pass α)) :
    (boringMoves clearance feeds (some (target, mark)) passes).filterMap Motion.mark?
      = passes.filterMap (Pass.mark? target mark) := by
  have hrest (passes : List (Pass α)) :
      (passes.flatMap (passMoves clearance feeds (some (target, mark)) false)).filterMap Motion.mark?
        = passes.filterMap (Pass.mark? target mark) := by
    induction passes with
    | nil => rfl
    | cons pass passes ih =>
      rw [List.flatMap_cons, List.filterMap_append, marks_passMoves, ih, List.filterMap_cons]
      cases pass.mark? target mark <;> rfl
  cases passes with
  | nil => rfl
  | cons pass passes =>
    rw [boringMoves, List.filterMap_append, marks_passMoves, hrest, List.filterMap_cons]
    cases pass.mark? target mark <;> rfl

theorem marks_boringMoves_none (clearance : α) (feeds : FeedRates α) (passes : List (Pass α)) :
    (boringMoves clearance feeds none passes).filterMap Motion.mark? = [] := by
  have hpass (first : Bool) (pass : Pass α) :
      (passMoves clearance feeds none first pass).filterMap Motion.mark? = [] := by
    unfold passMoves
    cases pass.kind with
    | rough | chamfer => simp
    | finish => simp [Motion.mark?, Motion.feedZ, Motion.rapidZ]
  cases passes with
  | nil => rfl
  | cons pass passes =>
    rw [boringMoves, List.filterMap_append, hpass, List.nil_append, List.filterMap_flatMap,
      List.flatMap_eq_nil_iff]
    exact fun pass' _ => hpass false pass'

/-- What the section of a kind marks. -/
def marks (j : Job α) : SectionKind → List (DiameterMarker × Option α)
  | .op1Bore =>
    (j.borePasses.toOption.getD []).filterMap (Pass.mark? j.part.bore .centerBore)
  | .op2Turn => (j.part.variant.hub?.map fun hub => (.outerBore, some hub.diameter)).toList
  | _ => []

theorem marks_faceMoves (j : Job α) (feeds : FeedRates α) (faceTo : α) :
    (j.faceMoves feeds faceTo).filterMap Motion.mark? = [] := by
  simp [faceMoves]

theorem marks_hubSection {hub : Hub α} {increment : α} {comment : String} {s : Section α}
    (h : j.hubSection hub increment comment = .ok s) :
    s.blocks.filterMap Block.mark? = [(.outerBore, some hub.diameter)] := by
  have hrough (feeds : FeedRates α) :
      (j.hubRoughMoves feeds hub increment).filterMap Motion.mark? = [] := by
    rw [hubRoughMoves, List.filterMap_flatMap, List.flatMap_eq_nil_iff]
    intro z _
    simp
  rw [of_hubSection h, marks_toolRun, hubMoves, List.filterMap_append, List.filterMap_append, hrough]
  rfl

theorem marks_reboreRun (j : Job α) (comment : String) (diameter depth : α)
    (passes : List (Pass α)) :
    (j.reboreRun comment diameter depth passes).filterMap Block.mark? = [] := by
  rw [reboreRun, marks_toolRun, marks_boringMoves_none]

theorem marks_boreChamferRun (j : Job α) : j.boreChamferRun.filterMap Block.mark? = [] := by
  simp [boreChamferRun, marks_toolRun]

theorem marks_sectionOf {kind : SectionKind} {s : Section α} (h : j.sectionOf kind = .ok s) :
    s.blocks.filterMap Block.mark? = j.marks kind := by
  cases kind with
  | header | flip | footer =>
    refine List.filterMap_eq_nil_iff.2 fun b hb => ?_
    have hidle := isIdle_of_mem h rfl b hb
    cases b <;> first | rfl | cases hidle
  | op1Drill =>
    cases h
    simp [drillSection, marks_toolRun, marks]
  | op1Bore =>
    obtain ⟨passes, hpasses, rfl⟩ := map_eq_ok.1 h
    rw [boreSection, marks_toolRun, marks_boringMoves, marks, hpasses]
    rfl
  | op1Turn =>
    cases h
    simp [op1TurnSection, marks_toolRun, marks_faceMoves, marks]
  | op2Turn =>
    rcases of_op2TurnSection h with ⟨hub, increment, comment, hhub, -, h⟩ | ⟨hnone, rfl⟩
    · rw [marks_hubSection h, marks, hhub]
      rfl
    · simp [op2FaceSection, marks_toolRun, marks_faceMoves, marks, hnone]
  | op2Chamfer =>
    obtain ⟨-, ⟨_, _, _, hs⟩ | ⟨_, _, _, hs⟩ | hs⟩ := of_op2ChamferSection h <;> rw [hs]
    · rw [List.filterMap_append, marks_reboreRun, marks_boreChamferRun]
      rfl
    · exact j.marks_reboreRun _ _ _ _
    · exact j.marks_boreChamferRun

end Job

/-- A program marks the bore, and then the hub. -/
theorem Program.marks_eq {j : Job α} {p : Program α} (h : ofJob j = .ok p) :
    p.blocks.filterMap Block.mark? = j.marks .op1Bore ++ j.marks .op2Turn := by
  have hsections (kinds : List SectionKind) (sections : List (Section α))
      (h : kinds.map j.sectionOf = sections.map .ok) :
      (sections.flatMap (·.blocks)).filterMap Block.mark? = kinds.flatMap j.marks := by
    induction kinds generalizing sections with
    | nil =>
      rw [List.map_eq_nil_iff.1 h.symm]
      rfl
    | cons kind kinds ih =>
      obtain ⟨s, rest, rfl, hs, hrest⟩ := List.map_eq_cons_iff.1 h.symm
      rw [List.flatMap_cons, List.filterMap_append, Job.marks_sectionOf hs.symm, ih rest hrest.symm]
      rfl
  rw [blocks, hsections _ _ (of_ofJob h).1]
  cases j.part.kind <;>
    simp [SpacerKind.sectionOrder, SectionKind.all, Job.marks]

end

/-! ## The first mark of the bore -/

open Number Exact

theorem Pass.mark?_eq_some {target : Rat} {mark : DiameterMarker} {pass : Pass Rat}
    {found : DiameterMarker × Option Rat} (h : pass.mark? target mark = some found) :
    found = (mark, some pass.diameter) := by
  unfold Pass.mark? at h
  split at h
  · exact (Option.some.inj h).symm
  · cases h

theorem Pass.mark?_finish (target z : Rat) (mark : DiameterMarker) :
    Pass.mark? target mark ⟨Scalar.round4 target, z, .finish⟩
      = some (mark, some (Scalar.round4 target)) := by
  have hnear : Scalar.magnitude (Scalar.round4 target - target) < 0.0001 := by
    have h := abs_round4_sub_le target
    rw [Scalar.magnitude_rat]
    norm_num
    linarith
  simp [Pass.mark?, hnear]

namespace Boring

variable {c : CuttingConstants Rat} {start target z drill t : Rat} {chamfer : Bool}
  {mark : DiameterMarker} {passes : List (Pass Rat)}

/-- Only the finishing pass of an opening can be marked. -/
theorem marks_opening (h : opening c start target z chamfer = .ok passes) (t : Rat)
    (mark : DiameterMarker) :
    passes.filterMap (Pass.mark? t mark)
      = (Pass.mark? t mark ⟨Scalar.round4 target, Scalar.round4 z, .finish⟩).toList := by
  obtain ⟨ds, -, rfl⟩ := opening_eq_ok_iff.1 h
  have hrough (ds : List Rat) :
      (ds.map (Pass.mk4 · z .rough)).filterMap (Pass.mark? t mark) = [] := by
    rw [List.filterMap_map, List.filterMap_eq_nil_iff]
    intro d _
    simp [Pass.mark?, Pass.mk4]
  have hchamfer : (chamferPasses c target chamfer).filterMap (Pass.mark? t mark) = [] := by
    cases chamfer
    · rfl
    · simp [chamferPasses, Pass.mark?, Pass.mk4]
  rw [List.filterMap_append, List.filterMap_append, hrough, hchamfer, List.nil_append,
    List.nil_append, Pass.mk4, (isPlaced_round4 target).round4, List.filterMap_cons]
  cases Pass.mark? t mark ⟨Scalar.round4 target, Scalar.round4 z, .finish⟩ <;> rfl

theorem marks_plan (h : plan c target drill chamfer = .ok passes) (t : Rat)
    (mark : DiameterMarker) :
    passes.filterMap (Pass.mark? t mark)
      = (Pass.mark? t mark ⟨Scalar.round4 target, Scalar.round4 drill, .finish⟩).toList := by
  obtain ⟨-, -, opened, hopened, rfl⟩ := plan_eq_ok h
  rw [List.filterMap_cons_none (by simp [Pass.mark?, Pass.mk4]), marks_opening hopened]

end Boring

namespace Job

variable {j : Job Rat} {passes : List (Pass Rat)}

theorem marks_plainPasses (h : j.plainPasses = .ok passes) :
    passes.filterMap (Pass.mark? j.part.bore .centerBore)
      = [(.centerBore, some (Scalar.round4 j.part.bore))] := by
  rw [Boring.marks_plan h, Pass.mark?_finish]
  rfl

/-- Stopping at the shelf changes neither what a pass is for nor its diameter. -/
theorem marks_thinLipPasses {hub : Hub Rat} (h : j.thinLipPasses hub = .ok passes) :
    passes.filterMap (Pass.mark? j.part.bore .centerBore)
      = [(.centerBore, some (Scalar.round4 j.part.bore))] := by
  simp only [thinLipPasses, bind_eq_ok] at h
  obtain ⟨shelf, -, plain, hplain, h⟩ := h
  cases h
  rw [List.filterMap_map, ← marks_plainPasses hplain]
  refine List.filterMap_congr fun p _ => ?_
  simp only [Function.comp]
  split <;> rfl

/-- The bore is opened before its counterbore. -/
theorem exists_marks_counterborePasses {shelf : Counterbore Rat}
    (h : j.counterborePasses shelf = .ok passes) :
    ∃ rest, passes.filterMap (Pass.mark? j.part.bore .centerBore)
      = (.centerBore, some (Scalar.round4 j.part.bore)) :: rest := by
  obtain ⟨plan, hplan, rfl⟩ := map_eq_ok.1 h
  obtain ⟨-, -, hinner, -⟩ := Boring.twoZonePlan_eq_ok hplan
  rw [TwoZonePlan.passes, List.filterMap_append, Boring.marks_plan hinner, Pass.mark?_finish]
  exact ⟨_, rfl⟩

/-- The holder of a ring is too narrow to be marked as the bore. -/
theorem marks_ringSeatPasses (hstandard : j.constants = .standard)
    (h : j.ringSeatPasses = .ok passes) :
    passes.filterMap (Pass.mark? j.part.bore .centerBore)
      = [(.centerBore, some (Scalar.round4 j.part.bore))] := by
  obtain ⟨plan, hplan, rfl⟩ := map_eq_ok.1 h
  obtain ⟨-, -, hinner, hshelf⟩ := Boring.twoZonePlan_eq_ok hplan
  have hinset : j.constants.steelRingStepInset = 0.175 := by
    rw [hstandard]
    rfl
  have hnarrow : ¬ Scalar.magnitude (Scalar.round4 (Scalar.round4
      (j.part.bore - j.constants.steelRingStepInset)) - j.part.bore) < 0.0001 := by
    have hnear := abs_round4_sub_le (j.part.bore - j.constants.steelRingStepInset)
    rw [(isPlaced_round4 _).round4, Scalar.magnitude_rat, hinset]
    rw [hinset, abs_le] at hnear
    norm_num at hnear ⊢
    rw [le_abs]
    right
    linarith
  rw [TwoZonePlan.passes, List.filterMap_append, Boring.marks_plan hinner,
    Boring.marks_opening hshelf, Pass.mark?_finish]
  simp [Pass.mark?, hnarrow]

/-- However the bore is opened, the finishing pass at the bore is marked first. -/
theorem exists_marks_borePasses (hstandard : j.constants = .standard)
    (h : j.borePasses = .ok passes) :
    ∃ rest, passes.filterMap (Pass.mark? j.part.bore .centerBore)
      = (.centerBore, some (Scalar.round4 j.part.bore)) :: rest := by
  unfold borePasses at h
  split at h
  · exact ⟨[], marks_plainPasses h⟩
  · exact ⟨[], marks_plainPasses h⟩
  · exact ⟨[], marks_plainPasses h⟩
  · exact ⟨[], marks_thinLipPasses h⟩
  · exact exists_marks_counterborePasses h
  · exact exists_marks_counterborePasses h
  · exact ⟨[], marks_ringSeatPasses hstandard h⟩

end Job

end SpacerTurning
