import SpacerTurning.Proofs.Generation.Deepest

/-!
The shoulder of a hub.

A hub is turned down level by level to its shoulder, and no level is deeper than the hub is high.
The break of its corner goes an edge break deep whatever the height is.  So a hub that is lower than
an edge break is turned deeper than its shoulder.
-/

namespace SpacerTurning

open Number Exact

theorem Section.mem_motions {α : Type} {s : Section α} {m : Motion α} :
    m ∈ s.motions ↔ .motion m ∈ s.blocks := by
  rw [motions, List.mem_filterMap]
  constructor
  · rintro ⟨b, hb, hm⟩
    cases b <;> cases hm
    exact hb
  · exact fun hm => ⟨_, hm, rfl⟩

namespace Job

variable {j : Job Rat} {hub : Hub Rat} {increment : Rat} {comment : String} {s : Section Rat}

theorem exists_hubFinishMoves_of_hubSection (h : j.hubSection hub increment comment = .ok s) :
    ∃ feeds, ∀ m ∈ j.hubFinishMoves feeds hub, m ∈ s.motions := by
  refine ⟨(j.settings .turnOp2 hub.diameter hub.height).feeds, fun m hm => ?_⟩
  rw [Section.mem_motions, of_hubSection h]
  simp [toolRun, hubMoves, hm]

theorem exists_hubSection {s : Section Rat} (hhub : j.part.variant.hub? = some hub)
    (h : j.sectionOf .op2Turn = .ok s) :
    ∃ increment comment, j.hubSection hub increment comment = .ok s := by
  rcases of_op2TurnSection h with ⟨hub', increment, comment, hhub', -, h⟩ | ⟨hnone, -⟩
  · obtain rfl := Option.some.inj (hhub'.symm.trans hhub)
    exact ⟨increment, comment, h⟩
  · rw [hnone] at hhub
    cases hhub

/-- The deepest move of a hub is at its shoulder, at the edge break, or at the clearance. -/
theorem deepestZ?_hubSection (h : j.hubSection hub increment comment = .ok s) :
    s.deepestZ? = some (min j.clearance (min (-edgeBreak) (-Scalar.round4 hub.height))) := by
  obtain ⟨feeds, hfinish⟩ := exists_hubFinishMoves_of_hubSection h
  have hmem {m : Motion Rat} (hm : m ∈ j.hubFinishMoves feeds hub) {z : Rat} (hz : m.z = some z) :
      z ∈ s.motions.filterMap (·.z) := List.mem_filterMap.2 ⟨m, hfinish m hm, hz⟩
  have hface : min j.clearance (min (-edgeBreak) (-Scalar.round4 hub.height)) ≤ (0.0 : Rat) := by
    refine (min_le_right _ _).trans ((min_le_left _ _).trans ?_)
    rw [edgeBreak_rat]
    norm_num
  refine Scalar.least?_eq_of_mem ?_ fun z hz => ?_
  · rcases min_choice j.clearance (min (-edgeBreak) (-Scalar.round4 hub.height)) with hmin | hmin
    · rw [hmin]
      exact hmem (m := .rapidZ j.clearance) (by simp [hubFinishMoves]) rfl
    · rw [hmin]
      rcases min_choice (-edgeBreak) (-Scalar.round4 hub.height) with hmin | hmin
      · rw [hmin]
        exact hmem (m := { Motion.feedXZ feeds.chamfer hub.diameter (-edgeBreak) with
          marker := some .outerBore }) (by simp [hubFinishMoves]) rfl
      · rw [hmin]
        exact hmem (m := .feedZ feeds.finish (-Scalar.round4 hub.height)) (by simp [hubFinishMoves])
          rfl
  · obtain ⟨m, hm, hz⟩ := List.mem_filterMap.1 hz
    have hover := staysOver_hubSection_of_le (min_le_left _ _) hface
      ((min_le_right _ _).trans (min_le_left _ _)) ((min_le_right _ _).trans (min_le_right _ _)) h
      (.motion m) (Section.mem_motions.1 hm)
    exact hover z hz

end Job

/-- Rounding takes the shoulder away by far less than a thousandth, so only the break and the
clearance can keep the deepest move from it. -/
theorem near_shoulder_iff {clearance height wall : Rat} (hnear : |wall - height| ≤ 1 / 20000) :
    |min clearance (min (-0.05) (-wall)) + height| ≤ 0.001 ↔
      0.049 ≤ height ∧ -(height + 0.001) ≤ clearance := by
  have hle (x : Rat) : x ≤ min clearance (min (-0.05) (-wall)) ↔
      x ≤ clearance ∧ x ≤ -0.05 ∧ x ≤ -wall := by
    rw [le_min_iff, le_min_iff]
  have hwall : min clearance (min (-0.05) (-wall)) ≤ -wall :=
    (min_le_right _ _).trans (min_le_right _ _)
  generalize min clearance (min (-0.05) (-wall)) = z at hle hwall ⊢
  rw [abs_le] at hnear ⊢
  norm_num at hnear hle ⊢
  constructor
  · rintro ⟨hlow, -⟩
    obtain ⟨hclearance, hedge, -⟩ := (hle (-height - 1 / 1000)).1 (by linarith)
    constructor <;> linarith
  · rintro ⟨hheight, hclearance⟩
    have hlow := (hle (-height - 1 / 1000)).2 ⟨by linarith, by linarith, by linarith⟩
    constructor <;> linarith

/-- The second side of a part with a hub is turned to its shoulder, up to a thousandth of an inch,
exactly if the hub is as high as an edge break, and the clearance is not below the shoulder. -/
theorem Program.deepest_op2Turn {lathes : Lathes Rat} {constants : CuttingConstants Rat}
    {templates : Templates Rat} {part : Part Rat} {p : Program Rat}
    (h : build lathes constants templates part = .ok p) {hub : Hub Rat}
    (hhub : part.variant.hub? = some hub) :
    ∃ s z, p.section? .op2Turn = some s ∧ s.deepestZ? = some z ∧
      z = min constants.clearanceZ (min (-0.05) (-Scalar.round4 hub.height)) ∧
      (|z - -hub.height| ≤ 0.001 ↔
        0.049 ≤ hub.height ∧ -(hub.height + 0.001) ≤ constants.clearanceZ) := by
  obtain ⟨lathe, j, -, -, hj, hjob⟩ := of_build h
  obtain ⟨hpart, -, hconstants, -⟩ := Job.asked_of_resolve hj
  obtain ⟨s, hs, hsection⟩ := section?_eq hjob .op2Turn
  obtain ⟨increment, comment, hs⟩ := Job.exists_hubSection (by rw [hpart]; exact hhub) hs
  have hdeepest := Job.deepestZ?_hubSection hs
  rw [Job.edgeBreak_rat, Job.clearance, hconstants] at hdeepest
  refine ⟨s, _, hsection, hdeepest, rfl, ?_⟩
  rw [sub_neg_eq_add]
  exact near_shoulder_iff (abs_round4_sub_le hub.height)

/-- An order of a part with a hub. -/
def Order.hubOfHeight (height : Rat) : Order Rat := {
  programNumber := some 7, title := some "HUB", round := some 5.75, thickness := some "0.75"
  boreMm := some 63.5, lathe := some "L1", kind := some .hubCentric, hubMm := some 76.2
  hubHeight := some height }

def Part.hubOfHeight (height : Rat) : Part Rat where
  programNumber := 7
  title := "HUB"
  round := 5.75
  thickness := { key := "0.75", inches := 0.75 }
  boreMm := 63.5
  fittedBoreMm := 63.5
  bore := toInches 63.5
  lathe := .l1
  fitted := false
  feedMode := .proven
  variant := .hubCentric { nominalMm := 76.2, fittedMm := 76.2, diameter := toInches 76.2, height }

theorem Program.deepest_op2Turn_half_inch :
    ∃ p, build .standard .standard (fun _ => none) (.hubOfHeight 0.5) = .ok p ∧
      (Part.hubOfHeight 0.5).variant.hub?.map (·.height) = some 0.5 ∧
      ∃ s z, p.section? .op2Turn = some s ∧ s.deepestZ? = some z ∧ |z - -0.5| ≤ 0.001 := by
  have hbuilt : (build .standard .standard (fun _ => none) (.hubOfHeight 0.5)).isOk = true := by
    decide +kernel
  obtain ⟨p, hp⟩ := exists_eq_ok hbuilt
  obtain ⟨s, z, hsection, hdeepest, -, hnear⟩ := deepest_op2Turn hp rfl
  exact ⟨p, hp, rfl, s, z, hsection, hdeepest, hnear.2 (by decide +kernel)⟩

/-- A hub of three hundredths is ordered and built, and turned to five hundredths. -/
theorem Program.deepest_op2Turn_low_hub :
    (Order.hubOfHeight 0.03).build .standard = .ok (.hubOfHeight 0.03) ∧
      (Part.hubOfHeight 0.03).variant.hub?.map (·.height) = some 0.03 ∧
      ∃ p, build .standard .standard (fun _ => none) (.hubOfHeight 0.03) = .ok p ∧
        (p.section? .op2Turn).bind (·.deepestZ?) = some (-0.05) ∧
        ¬ |(-0.05 : Rat) - -0.03| ≤ 0.001 := by
  have hdeepest : ((build .standard .standard (fun _ => none) (.hubOfHeight 0.03)).toOption.bind
      fun p => (p.section? .op2Turn).bind (·.deepestZ?)) = some (-0.05) := by decide +kernel
  cases hprogram : build .standard .standard (fun _ => none) (.hubOfHeight 0.03) with
  | error refusal =>
    rw [hprogram] at hdeepest
    cases hdeepest
  | ok p =>
    rw [hprogram] at hdeepest
    exact ⟨by decide +kernel, rfl, p, rfl, hdeepest, by norm_num⟩

end SpacerTurning
