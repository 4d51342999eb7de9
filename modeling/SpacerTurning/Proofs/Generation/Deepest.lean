import SpacerTurning.Proofs.Generation.Shelf

/-!
The deepest move of a program.

The drill goes through body and hub, and every other move stays above it: bores and turns stop at the
face, at an edge or at a height that was checked against the drill or the part.
-/

namespace SpacerTurning

open Number Exact

/-- A move names no height below a limit. -/
def Motion.StaysOver (limit : Rat) (m : Motion Rat) : Prop := ∀ z ∈ m.z, limit ≤ z

namespace Motion

variable {limit : Rat}

@[simp] theorem staysOver_rapidZ {z : Rat} : StaysOver limit (rapidZ z) ↔ limit ≤ z := by
  simp [StaysOver, rapidZ]

@[simp] theorem staysOver_rapidX (x : Rat) : StaysOver limit (rapidX x) := by
  simp [StaysOver, rapidX]

@[simp] theorem staysOver_rapidXZ {x z : Rat} : StaysOver limit (rapidXZ x z) ↔ limit ≤ z := by
  simp [StaysOver, rapidXZ]

@[simp] theorem staysOver_feedZ {feed z : Rat} : StaysOver limit (feedZ feed z) ↔ limit ≤ z := by
  simp [StaysOver, feedZ]

@[simp] theorem staysOver_feedX (feed x : Rat) : StaysOver limit (feedX feed x) := by
  simp [StaysOver, feedX]

@[simp] theorem staysOver_feedXZ {feed x z : Rat} :
    StaysOver limit (feedXZ feed x z) ↔ limit ≤ z := by
  simp [StaysOver, feedXZ]

@[simp] theorem staysOver_marker {m : Motion Rat} {marker : Option DiameterMarker} :
    StaysOver limit { m with marker } ↔ StaysOver limit m := Iff.rfl

end Motion

def Block.StaysOver (limit : Rat) : Block Rat → Prop
  | .motion m => m.StaysOver limit
  | _ => True

theorem Number.Exact.IsPlaced.le_round4 {x y : Rat} (hx : IsPlaced x) (h : x ≤ y) :
    x ≤ Scalar.round4 y := by
  calc x = Scalar.round4 x := hx.round4.symm
    _ ≤ Scalar.round4 y := round4_mono h

namespace Job

variable {j : Job Rat} {limit : Rat}

theorem staysOver_toolRun (j : Job Rat) (tool : Nat) (comment : String) (settings : CutSettings Rat)
    (side : Side) {moves : List (Motion Rat)} (h : ∀ m ∈ moves, m.StaysOver limit) :
    ∀ b ∈ j.toolRun tool comment settings side moves, b.StaysOver limit := by
  intro b hb
  rcases of_mem_toolRun hb with rfl | rfl | ⟨m, hm, rfl⟩ | hservice
  · trivial
  · trivial
  · exact h m hm
  · cases b <;> trivial

theorem staysOver_boringMoves {clearance : Rat} (hclearance : limit ≤ clearance)
    (hface : limit ≤ (0.0 : Rat))
    (feeds : FeedRates Rat) (mark : Option (Rat × DiameterMarker)) {passes : List (Pass Rat)}
    (h : ∀ p ∈ passes, limit ≤ p.z) :
    ∀ m ∈ boringMoves clearance feeds mark passes, m.StaysOver limit := by
  have hpass (first : Bool) {p : Pass Rat} (hp : limit ≤ p.z) :
      ∀ m ∈ passMoves clearance feeds mark first p, m.StaysOver limit := by
    have happroach : (Motion.approach clearance first p.diameter).StaysOver limit := by
      cases first <;> simp [Motion.approach, hclearance]
    unfold passMoves
    cases p.kind <;> simp [happroach, hp, hclearance, hface]
  intro m hm
  obtain ⟨first, p, hp, hm⟩ := exists_pass_of_mem_boringMoves hm
  exact hpass first (h p hp) m hm

/-- No level of a hub is set lower than the hub is high. -/
theorem neg_height_le_of_mem_hubLevels {height increment z : Rat}
    (hz : z ∈ hubLevels height increment) : -Scalar.round4 height ≤ z := by
  unfold hubLevels at hz
  split at hz
  · cases hz
  · obtain ⟨i, -, rfl⟩ := List.mem_map.1 hz
    rw [Scalar.smaller_rat]
    exact neg_le_neg (round4_mono (min_le_right _ _))

theorem staysOver_hubSection_of_le {hub : Hub Rat} (hclearance : limit ≤ j.clearance)
    (hface : limit ≤ (0.0 : Rat)) (hedge : limit ≤ -edgeBreak)
    (hwall : limit ≤ -Scalar.round4 hub.height) {increment : Rat} {comment : String}
    {s : Section Rat} (h : j.hubSection hub increment comment = .ok s) :
    ∀ b ∈ s.blocks, b.StaysOver limit := by
  have hrough (feeds : FeedRates Rat) :
      ∀ m ∈ j.hubRoughMoves feeds hub increment, m.StaysOver limit := by
    intro m hm
    obtain ⟨z, hz, hm⟩ := List.mem_flatMap.1 hm
    have hlevel := hwall.trans (neg_height_le_of_mem_hubLevels hz)
    simp only [List.mem_cons, List.not_mem_nil, or_false] at hm
    rcases hm with rfl | rfl | rfl | rfl <;> simp [hclearance, hlevel]
  rw [of_hubSection h]
  refine j.staysOver_toolRun _ _ _ _ fun m hm => ?_
  rcases List.mem_append.1 hm with hm | hm
  · rcases List.mem_append.1 hm with hm | hm
    · simp only [List.mem_cons, List.not_mem_nil, or_false] at hm
      rcases hm with rfl | rfl | rfl | rfl <;> simp [hclearance, hface]
    · exact hrough _ m hm
  · simp only [hubFinishMoves, List.mem_cons, List.not_mem_nil, or_false] at hm
    rcases hm with rfl | rfl | rfl | rfl | rfl | rfl <;> simp [hclearance, hface, hedge, hwall]

variable (hfit : j.FitsPart)
include hfit

theorem FitsPart.drill_le : j.depths.drill ≤ -0.5399 := by
  have hdeep := hfit.deep
  have hhub := hfit.hub
  linarith

theorem FitsPart.drill_le_clearance : j.depths.drill ≤ j.clearance := by
  have hdrill := hfit.drill_le
  rw [clearance, hfit.constants, CuttingConstants.standard_chamfer.1]
  norm_num at hdrill ⊢
  linarith

theorem FitsPart.drill_le_face : j.depths.drill ≤ (0.0 : Rat) := by
  have hdrill := hfit.drill_le
  norm_num at hdrill ⊢
  linarith

theorem FitsPart.drill_le_edge : j.depths.drill ≤ -edgeBreak := by
  have hdrill := hfit.drill_le
  rw [edgeBreak_rat]
  norm_num at hdrill ⊢
  linarith

theorem FitsPart.drill_le_chamfer : j.depths.drill ≤ -j.constants.chamferDepth := by
  have hdrill := hfit.drill_le
  rw [hfit.constants, CuttingConstants.standard_chamfer.2]
  norm_num at hdrill ⊢
  linarith

/-! ## Passes -/

theorem drill_le_of_mem_opening {start target z : Rat} {chamfer : Bool} {passes : List (Pass Rat)}
    (h : Boring.opening j.constants start target z chamfer = .ok passes) (hz : j.depths.drill ≤ z) :
    ∀ p ∈ passes, j.depths.drill ≤ p.z := by
  intro p hp
  cases hkind : p.isChamfer with
  | false =>
    rw [Boring.z_of_mem_opening h hp hkind]
    exact hfit.placed.le_round4 hz
  | true =>
    rw [Boring.z_of_mem_opening_of_isChamfer h hp hkind]
    exact hfit.placed.le_round4 hfit.drill_le_chamfer

theorem drill_le_of_mem_plan {target : Rat} {chamfer : Bool} {passes : List (Pass Rat)}
    (h : Boring.plan j.constants target j.depths.drill chamfer = .ok passes) :
    ∀ p ∈ passes, j.depths.drill ≤ p.z := by
  obtain ⟨-, -, opened, hopened, rfl⟩ := Boring.plan_eq_ok h
  intro p hp
  rcases List.mem_cons.1 hp with rfl | hp
  · exact hfit.placed.le_round4 le_rfl
  · exact drill_le_of_mem_opening hfit hopened le_rfl p hp

theorem drill_le_of_mem_twoZonePlan {holder counterbore step : Rat} {chamfer : Bool}
    {plan : TwoZonePlan Rat} (h : Boring.twoZonePlan j.constants holder counterbore j.depths.drill
      step chamfer = .ok plan) : ∀ p ∈ plan.passes, j.depths.drill ≤ p.z := by
  obtain ⟨-, -, hinner, hshelf⟩ := Boring.twoZonePlan_eq_ok h
  have hstep : j.depths.drill ≤ -step := (Boring.drill_lt_of_twoZonePlan h).le
  intro p hp
  rcases List.mem_append.1 hp with hp | hp
  · exact drill_le_of_mem_plan hfit hinner p hp
  · exact drill_le_of_mem_opening hfit hshelf hstep p hp

theorem drill_le_of_mem_borePasses {passes : List (Pass Rat)} (h : j.borePasses = .ok passes) :
    ∀ p ∈ passes, j.depths.drill ≤ p.z := by
  have hcounterbore {shelf : Counterbore Rat} {passes : List (Pass Rat)}
      (h : j.counterborePasses shelf = .ok passes) : ∀ p ∈ passes, j.depths.drill ≤ p.z := by
    obtain ⟨plan, hplan, rfl⟩ := map_eq_ok.1 h
    exact drill_le_of_mem_twoZonePlan hfit hplan
  unfold borePasses at h
  split at h
  · exact drill_le_of_mem_plan hfit h
  · exact drill_le_of_mem_plan hfit h
  · exact drill_le_of_mem_plan hfit h
  · next hub hvariant =>
    obtain ⟨shelf, plain, hshelf, hplain, rfl⟩ := thinLipPasses_eq_ok h
    have hheight : 0 ≤ hub.height := hubHeight_of_thinLip hvariant ▸ hfit.hub
    intro p hp
    obtain ⟨q, hq, rfl⟩ := List.mem_map.1 hp
    unfold stopAtShelf
    split
    · exact (drill_lt_shelf hfit hheight hshelf).le
    · exact drill_le_of_mem_plan hfit hplain q hq
  · exact hcounterbore h
  · exact hcounterbore h
  · obtain ⟨plan, hplan, rfl⟩ := map_eq_ok.1 h
    exact drill_le_of_mem_twoZonePlan hfit hplan

/-! ## Sections -/

theorem staysOver_faceMoves (feeds : FeedRates Rat) (faceTo : Rat) :
    ∀ m ∈ j.faceMoves feeds faceTo, m.StaysOver j.depths.drill := by
  simp [faceMoves, hfit.drill_le_clearance, hfit.drill_le_face, hfit.drill_le_edge]

/-- The drill goes below the shoulder of a hub. -/
theorem drill_le_neg_height {hub : Hub Rat} (hhub : j.part.variant.hub? = some hub) :
    j.depths.drill ≤ -Scalar.round4 hub.height := by
  have hheight : j.part.hubHeight = hub.height := by simp [Part.hubHeight, hhub]
  have hdeep := hfit.deep
  have hnear := abs_round4_sub_le hub.height
  rw [hheight] at hdeep
  rw [abs_le] at hnear
  norm_num at hdeep
  linarith

theorem staysOver_hubSection {hub : Hub Rat} (hhub : j.part.variant.hub? = some hub)
    {increment : Rat} {comment : String} {s : Section Rat}
    (h : j.hubSection hub increment comment = .ok s) :
    ∀ b ∈ s.blocks, b.StaysOver j.depths.drill :=
  staysOver_hubSection_of_le hfit.drill_le_clearance hfit.drill_le_face hfit.drill_le_edge
    (drill_le_neg_height hfit hhub) h

theorem staysOver_op2FaceSection : ∀ b ∈ j.op2FaceSection.blocks, b.StaysOver j.depths.drill := by
  refine j.staysOver_toolRun _ _ _ _ fun m hm => ?_
  rcases List.mem_append.1 hm with hm | hm
  · exact staysOver_faceMoves hfit _ _ m hm
  · simp only [List.mem_cons, List.not_mem_nil, or_false] at hm
    rcases hm with rfl | rfl <;> simp [hfit.drill_le_clearance]

theorem staysOver_boreChamferRun : ∀ b ∈ j.boreChamferRun, b.StaysOver j.depths.drill := by
  refine j.staysOver_toolRun _ _ _ _ fun m hm => ?_
  simp only [List.mem_cons, List.not_mem_nil, or_false] at hm
  rcases hm with rfl | rfl | rfl | rfl <;>
    simp [hfit.drill_le_clearance, hfit.drill_le_face, hfit.drill_le_chamfer]

theorem staysOver_boringRun (tool : Nat) (comment : String) (settings : CutSettings Rat)
    (side : Side) (feeds : FeedRates Rat) (mark : Option (Rat × DiameterMarker))
    {passes : List (Pass Rat)} (h : ∀ p ∈ passes, j.depths.drill ≤ p.z) :
    ∀ b ∈ j.toolRun tool comment settings side (boringMoves j.clearance feeds mark passes),
      b.StaysOver j.depths.drill :=
  j.staysOver_toolRun _ _ _ _
    (staysOver_boringMoves hfit.drill_le_clearance hfit.drill_le_face feeds mark h)

/-- The pocket of a ring goes less deep than the body is thick. -/
theorem staysOver_ringPocketSection {s : Section Rat} (h : j.ringPocketSection = .ok s) :
    ∀ b ∈ s.blocks, b.StaysOver j.depths.drill := by
  obtain ⟨hdepth, passes, hpasses, rfl⟩ := of_ringPocketSection h
  obtain ⟨-, -, hopening⟩ := Boring.continuation_eq_ok hpasses
  have hpocket : j.depths.drill ≤ -j.constants.ringPocketDepth := by
    have hthrough := hfit.through
    rw [abs_le] at hthrough
    norm_num at hthrough
    linarith
  exact staysOver_boringRun hfit _ _ _ _ _ _ (drill_le_of_mem_opening hfit hopening hpocket)

/-- What is left of a thin lip under its shelf is less than the drill goes through. -/
theorem staysOver_shelfCleanupSection {hub : Hub Rat} (hvariant : j.part.variant = .thinLip hub)
    {s : Section Rat} (h : j.shelfCleanupSection hub = .ok s) :
    ∀ b ∈ s.blocks, b.StaysOver j.depths.drill := by
  obtain ⟨shelf, _, start, cleanup, hshelf, -, -, hcleanup, rfl⟩ := of_shelfCleanupSection h
  obtain ⟨-, -, hopening⟩ := Boring.continuation_eq_ok hcleanup
  have hring : j.depths.drill ≤ -Scalar.round4 (j.part.totalHeight + shelf + edgeBreak) := by
    have hthrough := hfit.through
    have hdeep := hfit.deep
    have hheight := hubHeight_of_thinLip hvariant
    have hshelf := abs_shelf_sub_le hfit hshelf
    have hnear := abs_round4_sub_le (j.part.totalHeight + shelf + edgeBreak)
    rw [edgeBreak_rat] at hnear ⊢
    rw [abs_le] at hthrough hshelf hnear
    rw [hheight] at hdeep
    norm_num at hthrough hdeep hshelf hnear ⊢
    linarith
  intro b hb
  rcases List.mem_append.1 hb with hb | hb
  · exact staysOver_boringRun hfit _ _ _ _ _ _ (drill_le_of_mem_opening hfit hopening hring) b hb
  · exact staysOver_boreChamferRun hfit b hb

/-- No section goes deeper than the drill. -/
theorem staysOver_sectionOf {kind : SectionKind} {s : Section Rat} (h : j.sectionOf kind = .ok s) :
    ∀ b ∈ s.blocks, b.StaysOver j.depths.drill := by
  have hclearance := hfit.drill_le_clearance
  cases kind with
  | header | flip | footer =>
    intro b hb
    have hidle := isIdle_of_mem h rfl b hb
    cases b <;> trivial
  | op1Drill =>
    cases h
    exact j.staysOver_toolRun _ _ _ _ (by simp [hclearance])
  | op1Bore =>
    obtain ⟨passes, hpasses, rfl⟩ := map_eq_ok.1 h
    exact staysOver_boringRun hfit _ _ _ _ _ _ (drill_le_of_mem_borePasses hfit hpasses)
  | op1Turn =>
    cases h
    refine j.staysOver_toolRun _ _ _ _ fun m hm => ?_
    rcases List.mem_append.1 hm with hm | hm
    · exact staysOver_faceMoves hfit _ _ m hm
    · simp only [List.mem_cons, List.not_mem_nil, or_false] at hm
      rcases hm with rfl | rfl | rfl <;> simp [hclearance, hfit.profile]
  | op2Turn =>
    rcases of_op2TurnSection h with ⟨hub, increment, comment, hhub, -, h⟩ | ⟨-, rfl⟩
    · exact staysOver_hubSection hfit hhub h
    · exact staysOver_op2FaceSection hfit
  | op2Chamfer =>
    simp only [sectionOf, op2ChamferSection] at h
    split at h
    · next hub hvariant => exact staysOver_shelfCleanupSection hfit hvariant h
    · exact staysOver_ringPocketSection hfit h
    · cases h
      exact staysOver_boreChamferRun hfit

end Job

/-- The height that a block moves to. -/
def Block.z? : Block Rat → Option Rat
  | .motion m => m.z
  | _ => none

namespace Program

variable {j : Job Rat} {p : Program Rat}

theorem drill_le_of_mem (hfit : j.FitsPart) (h : ofJob j = .ok p) :
    ∀ z ∈ p.blocks.filterMap Block.z?, j.depths.drill ≤ z := by
  intro z hz
  obtain ⟨b, hb, hz⟩ := List.mem_filterMap.1 hz
  obtain ⟨s, hs, hb⟩ := List.mem_flatMap.1 hb
  obtain ⟨kind, -, hkind⟩ := exists_sectionOf h hs
  have hover := Job.staysOver_sectionOf hfit hkind b hb
  cases b with
  | motion m => exact hover z hz
  | percent | programNumber _ _ | comment _ | toolChange _ _ | constantSurfaceSpeed _ _
  | fixedSpeed _ | workOffset _ | coolantOn | coolantOff | machineHome _ _ | programStop _
  | optionalStop | programEnd => cases hz

theorem drill_mem (h : ofJob j = .ok p) : j.depths.drill ∈ p.blocks.filterMap Block.z? := by
  obtain ⟨s, hs, hsection⟩ := section?_eq h .op1Drill
  cases hs
  refine List.mem_filterMap.2 ⟨.motion (.feedZ (j.settings .drill 0.0 j.depths.drill).feeds.rough
    j.depths.drill), List.mem_flatMap.2 ⟨_, List.mem_of_find?_eq_some hsection, ?_⟩, rfl⟩
  simp [Job.drillSection, Job.toolRun]

/-- The drill is the least height of a program, and of what is written of it. -/
theorem least?_z (hfit : j.FitsPart) (h : ofJob j = .ok p) :
    Scalar.least? (p.blocks.filterMap Block.z?) = some j.depths.drill ∧
      Scalar.least? ((p.blocks.filterMap Block.z?).map Scalar.round4) = some j.depths.drill := by
  refine ⟨Scalar.least?_eq_of_mem (drill_mem h) (drill_le_of_mem hfit h),
    Scalar.least?_eq_of_mem ?_ fun z hz => ?_⟩
  · exact List.mem_map.2 ⟨_, drill_mem h, hfit.placed.round4⟩
  · obtain ⟨y, hy, rfl⟩ := List.mem_map.1 hz
    exact hfit.placed.le_round4 (drill_le_of_mem hfit h y hy)

end Program
end SpacerTurning
