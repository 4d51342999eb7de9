import SpacerTurning.Proofs.Cutting.Boring
import SpacerTurning.Proofs.Part.Refusal
import SpacerTurning.Proofs.Settings.Config

/-!
Whole boring plans.

Every plan is made of zones: passes at one height that go on from a diameter that is there to a target.
A zone widens the bore step by step and ends with the finishing pass at its target, as long as the
pass under the target does not lie beyond it.  That pass is the only one that can, and settings are
accepted with which it does.
-/

namespace SpacerTurning
namespace Boring

open Number Exact

section

variable {c : CuttingConstants Rat} {start target z : Rat} {chamfer : Bool}
  {passes : List (Pass Rat)}

/-! ## What a plan is made of -/

/-- There is a plan exactly for a target between the entry and the reach, a depth below the face, and
an opening that comes to an end. -/
theorem plan_eq_ok_iff {drill : Rat} :
    plan c target drill chamfer = .ok passes ↔
      (c.safeEntryDiameter < target ∧ target ≤ c.maxBoreDiameter ∧ drill < 0) ∧
        ∃ opened, opening c c.safeEntryDiameter target drill chamfer = .ok opened ∧
          passes = Pass.mk4 c.safeEntryDiameter drill .rough :: opened := by
  have hfinite (x : Rat) : Scalar.isFinite x = true := rfl
  simp only [plan, checkTarget, checkDepth, bind_eq_ok, demand_eq_ok, hfinite, Bool.true_and,
    Bool.not_eq_true', decide_eq_false_iff_not, ge_iff_le, gt_iff_lt, not_le, not_lt, pure,
    Except.pure, Except.ok.injEq]
  constructor
  · rintro ⟨_, ⟨_, hentry, hreach⟩, _, hdrill, opened, hopened, rfl⟩
    exact ⟨⟨hentry, hreach, hdrill.trans_eq Scalar.zero_rat⟩, opened, hopened, rfl⟩
  · rintro ⟨⟨hentry, hreach, hdrill⟩, opened, hopened, rfl⟩
    exact ⟨(), ⟨(), hentry, hreach⟩, (), hdrill.trans_eq Scalar.zero_rat.symm, opened, hopened, rfl⟩

/-- A plan has no end where its dimensions are as they should be and its opening has none. -/
theorem plan_eq_endless_iff {drill : Rat} :
    plan c target drill chamfer = .error .endless ↔
      (c.safeEntryDiameter < target ∧ target ≤ c.maxBoreDiameter ∧ drill < 0) ∧
        opening c c.safeEntryDiameter target drill chamfer = .error .endless := by
  have hfinite (x : Rat) : Scalar.isFinite x = true := rfl
  simp only [plan, checkTarget, checkDepth, bind_eq_error, bind_eq_ok, demand_eq_error, demand_eq_ok,
    hfinite, Bool.true_and, Bool.not_eq_true', decide_eq_false_iff_not, ge_iff_le, gt_iff_lt, not_le,
    not_lt, reduceCtorEq, and_false, false_or, exists_const, or_false, pure, Except.pure]
  constructor
  · rintro ⟨⟨hentry, hreach⟩, hdrill, h⟩
    exact ⟨⟨hentry, hreach, hdrill.trans_eq Scalar.zero_rat⟩, h⟩
  · rintro ⟨⟨hentry, hreach, hdrill⟩, h⟩
    exact ⟨⟨hentry, hreach⟩, hdrill.trans_eq Scalar.zero_rat.symm, h⟩

theorem plan_eq_ok {drill : Rat} (h : plan c target drill chamfer = .ok passes) :
    c.safeEntryDiameter < target ∧ target ≤ c.maxBoreDiameter ∧
      ∃ opened, opening c c.safeEntryDiameter target drill chamfer = .ok opened ∧
        passes = Pass.mk4 c.safeEntryDiameter drill .rough :: opened := by
  obtain ⟨⟨hentry, hreach, -⟩, hpasses⟩ := plan_eq_ok_iff.1 h
  exact ⟨hentry, hreach, hpasses⟩

theorem twoZonePlan_eq_ok {holder counterbore drill step : Rat} {p : TwoZonePlan Rat}
    (h : twoZonePlan c holder counterbore drill step chamfer = .ok p) :
    holder < counterbore ∧ counterbore ≤ c.maxBoreDiameter ∧
      plan c holder drill false = .ok p.inner ∧
      opening c holder counterbore (-step) chamfer = .ok p.shelf := by
  simp only [twoZonePlan, checkTarget, bind_eq_ok, demand_eq_ok] at h
  obtain ⟨_, -, _, ⟨_, -, hreach⟩, _, -, _, hwider, _, -, inner, hinner, shelf, hshelf, h⟩ := h
  cases h
  simp only [Bool.not_eq_true', decide_eq_false_iff_not, not_le, not_lt] at hwider hreach
  exact ⟨by linarith [epsilon_pos], hreach, hinner, hshelf⟩

/-- The counterbore stays above the drill. -/
theorem drill_lt_of_twoZonePlan {holder counterbore drill step : Rat} {p : TwoZonePlan Rat}
    (h : twoZonePlan c holder counterbore drill step chamfer = .ok p) : drill < -step := by
  simp only [twoZonePlan, bind_eq_ok, demand_eq_ok] at h
  obtain ⟨_, -, _, -, _, -, _, -, _, hstep, -⟩ := h
  simp only [Bool.and_eq_true, Bool.not_eq_true', decide_eq_false_iff_not, not_le] at hstep
  exact hstep.2

theorem continuation_eq_ok (h : continuation c start target z chamfer = .ok passes) :
    start < target ∧ target ≤ c.maxBoreDiameter ∧
      opening c start target z chamfer = .ok passes := by
  simp only [continuation, bind_eq_ok, demand_eq_ok] at h
  obtain ⟨_, -, _, hwithin, h⟩ := h
  simp only [Bool.and_eq_true, Bool.not_eq_true', decide_eq_false_iff_not, not_le, not_lt] at hwithin
  exact ⟨by linarith [epsilon_pos], hwithin.2, h⟩

/-! ## Plans come to an end -/

section

variable (hstep : 1 / 20000 < c.maxBoreStep)
include hstep

theorem opening_ne_endless : opening c start target z chamfer ≠ .error .endless :=
  fun h => opening_eq_endless_iff.1 h (roughingEnds_of_step hstep start target)

theorem plan_ne_endless {drill : Rat} : plan c target drill chamfer ≠ .error .endless :=
  fun h => opening_ne_endless hstep (plan_eq_endless_iff.1 h).2

theorem twoZonePlan_ne_endless {holder counterbore drill step : Rat} :
    twoZonePlan c holder counterbore drill step chamfer ≠ .error .endless := by
  simp [twoZonePlan, checkTarget, checkDepth, bind_eq_error, demand_eq_error,
    plan_ne_endless hstep, opening_ne_endless hstep, pure, Except.pure]

theorem continuation_ne_endless : continuation c start target z chamfer ≠ .error .endless := by
  simp [continuation, checkDepth, bind_eq_error, demand_eq_error, opening_ne_endless hstep]

end

/-! ## Step by step -/

/-- Passes at one height that go on from a diameter, by `step` at most, to a target. -/
structure Zone (step start target z : Rat) (chamfer : Bool) (passes : List (Pass Rat)) : Prop where
  widens : Widens step (Scalar.round4 start) (Pass.diameters passes)
  finish : passes.getLast? = some ⟨Scalar.round4 target, Scalar.round4 z, .finish⟩
  height : ∀ p ∈ passes, p.isChamfer = false → p.z = Scalar.round4 z
  edge : (∃ p ∈ passes, p.isChamfer = true) ↔ chamfer = true

theorem exists_isChamfer_opening (h : opening c start target z chamfer = .ok passes) :
    (∃ p ∈ passes, p.isChamfer = true) ↔ chamfer = true := by
  constructor
  · rintro ⟨p, hp, hkind⟩
    rcases of_mem_opening h hp with ⟨d, kind, -, hcut⟩ | ⟨hchamfer, -⟩
    · rw [hkind] at hcut
      cases hcut
    · exact hchamfer
  · rintro rfl
    obtain ⟨ds, -, rfl⟩ := opening_eq_ok_iff.1 h
    exact ⟨_, List.mem_append_left _ (List.mem_append_right _ List.mem_cons_self), rfl⟩

theorem getLast?_opening (h : opening c start target z chamfer = .ok passes) :
    passes.getLast? = some ⟨Scalar.round4 target, Scalar.round4 z, .finish⟩ := by
  obtain ⟨ds, -, rfl⟩ := opening_eq_ok_iff.1 h
  rw [List.getLast?_concat, Pass.mk4, (isPlaced_round4 target).round4]

theorem Opens.zone (h : Opens c start target)
    (hopening : opening c start target z chamfer = .ok passes) :
    Zone (c.maxBoreStep + 1 / 20000) start target z chamfer passes where
  widens := h.widens hopening
  finish := getLast?_opening hopening
  height _ hp hkind := z_of_mem_opening hopening hp hkind
  edge := exists_isChamfer_opening hopening

theorem diameters_plan {drill : Rat} (h : plan c target drill chamfer = .ok passes) :
    ∃ opened, opening c c.safeEntryDiameter target drill chamfer = .ok opened ∧
      Pass.diameters passes = Scalar.round4 c.safeEntryDiameter :: Pass.diameters opened := by
  obtain ⟨-, -, opened, hopened, rfl⟩ := plan_eq_ok h
  exact ⟨opened, hopened, rfl⟩

theorem head?_plan {drill : Rat} (h : plan c target drill chamfer = .ok passes) :
    (Pass.diameters passes).head? = some (Scalar.round4 c.safeEntryDiameter) := by
  obtain ⟨opened, -, hdiameters⟩ := diameters_plan h
  rw [hdiameters, List.head?_cons]

theorem getLastD_plan {drill : Rat} (h : plan c target drill chamfer = .ok passes) (d : Rat) :
    (Pass.diameters passes).getLastD d = Scalar.round4 target := by
  obtain ⟨opened, hopened, hdiameters⟩ := diameters_plan h
  rw [hdiameters, List.getLastD_cons, getLastD_opening hopened]

/-- The first pass of a plan only adds the entry to what goes on from it. -/
theorem zone_plan (hstep : 1 / 10000 ≤ c.maxBoreStep) (hoffset : 0 ≤ c.preFinishOffset) {drill : Rat}
    (h : plan c target drill chamfer = .ok passes) :
    Zone (c.maxBoreStep + 1 / 20000) c.safeEntryDiameter target drill chamfer passes := by
  obtain ⟨hentry, -, opened, hopened, rfl⟩ := plan_eq_ok h
  have hzone := Opens.zone ⟨hoffset, round4_mono hentry.le⟩ hopened
  have hdiameters : Pass.diameters (Pass.mk4 c.safeEntryDiameter drill .rough :: opened)
      = Scalar.round4 c.safeEntryDiameter :: Pass.diameters opened := rfl
  refine ⟨?_, ?_, ?_, ?_⟩
  · rw [hdiameters]
    exact .cons le_rfl (by linarith) hzone.widens
  · rw [List.getLast?_cons, hzone.finish]
    rfl
  · intro p hp hkind
    rcases List.mem_cons.1 hp with rfl | hp
    · rfl
    · exact hzone.height p hp hkind
  · rw [List.exists_mem_cons_iff, hzone.edge]
    exact or_iff_right (by simp [Pass.mk4, Pass.isChamfer])

/-- With steps of at least a ten-thousandth, and a pass under the target that is not beyond it, every
plan comes to an end and none opens a bore too far at once: the plan for one diameter starts at the
entry, the plan for two goes on where the holder ends, and a continuation goes on from what is
there. -/
theorem zones_of_plans (hstep : 1 / 10000 ≤ c.maxBoreStep) (hoffset : 0 ≤ c.preFinishOffset) :
    (∀ target drill chamfer, plan c target drill chamfer ≠ .error .endless ∧
      ∀ passes, plan c target drill chamfer = .ok passes →
      Zone (c.maxBoreStep + 1 / 20000) c.safeEntryDiameter target drill chamfer passes ∧
      (Pass.diameters passes).head? = some (Scalar.round4 c.safeEntryDiameter)) ∧
    (∀ holder counterbore drill step chamfer,
      twoZonePlan c holder counterbore drill step chamfer ≠ .error .endless ∧
      ∀ p, twoZonePlan c holder counterbore drill step chamfer = .ok p →
      Zone (c.maxBoreStep + 1 / 20000) c.safeEntryDiameter holder drill false p.inner ∧
      Zone (c.maxBoreStep + 1 / 20000) holder counterbore (-step) chamfer p.shelf ∧
      Widens (c.maxBoreStep + 1 / 20000) (Scalar.round4 c.safeEntryDiameter)
        (Pass.diameters p.passes) ∧
      (Pass.diameters p.passes).head? = some (Scalar.round4 c.safeEntryDiameter)) ∧
    (∀ start target z chamfer, continuation c start target z chamfer ≠ .error .endless ∧
      ∀ passes, continuation c start target z chamfer = .ok passes →
      Zone (c.maxBoreStep + 1 / 20000) start target z chamfer passes) := by
  have hgets : 1 / 20000 < c.maxBoreStep := by linarith
  refine ⟨?_, ?_, ?_⟩
  · intro target drill chamfer
    exact ⟨plan_ne_endless hgets, fun passes h => ⟨zone_plan hstep hoffset h, head?_plan h⟩⟩
  · intro holder counterbore drill step chamfer
    refine ⟨twoZonePlan_ne_endless hgets, fun p h => ?_⟩
    obtain ⟨hwider, -, hinner, hshelf⟩ := twoZonePlan_eq_ok h
    have hfirst := zone_plan hstep hoffset hinner
    have hsecond := Opens.zone ⟨hoffset, round4_mono hwider.le⟩ hshelf
    have hpasses : Pass.diameters p.passes = Pass.diameters p.inner ++ Pass.diameters p.shelf := by
      simp [TwoZonePlan.passes, Pass.diameters]
    refine ⟨hfirst, hsecond, ?_, ?_⟩
    · rw [hpasses]
      refine hfirst.widens.append ?_
      rw [getLastD_plan hinner]
      exact hsecond.widens
    · rw [hpasses, List.head?_append, head?_plan hinner]
      rfl
  · intro start target z chamfer
    refine ⟨continuation_ne_endless hgets, fun passes h => ?_⟩
    obtain ⟨hwider, -, hopening⟩ := continuation_eq_ok h
    exact Opens.zone ⟨hoffset, round4_mono hwider.le⟩ hopening

theorem zones_of_plans_counterbore :
    let c : CuttingConstants Rat := .standard
    1 / 10000 ≤ c.maxBoreStep ∧ 0 ≤ c.preFinishOffset ∧
      ∃ p, twoZonePlan c 3 4.05 (-1.4) 0.31 true = .ok p ∧
        Zone (c.maxBoreStep + 1 / 20000) c.safeEntryDiameter 3 (-1.4) false p.inner ∧
        Zone (c.maxBoreStep + 1 / 20000) 3 4.05 (-0.31) true p.shelf ∧
        Widens (c.maxBoreStep + 1 / 20000) (Scalar.round4 c.safeEntryDiameter)
          (Pass.diameters p.passes) := by
  intro c
  have hstep : 1 / 10000 ≤ c.maxBoreStep := by decide +kernel
  have hoffset : 0 ≤ c.preFinishOffset := by decide +kernel
  have hplan : twoZonePlan c 3 4.05 (-1.4) 0.31 true = .ok
      { inner := [⟨2.3, -1.4, .rough⟩, ⟨2.6, -1.4, .rough⟩, ⟨2.9, -1.4, .rough⟩, ⟨3, -1.4, .finish⟩]
        shelf := [⟨3.3, -0.31, .rough⟩, ⟨3.6, -0.31, .rough⟩, ⟨3.9, -0.31, .rough⟩,
          ⟨3.95, -0.31, .rough⟩, ⟨4.35, -0.15, .chamfer⟩, ⟨4.05, -0.31, .finish⟩] } := by
    decide +kernel
  obtain ⟨hinner, hshelf, hwidens, -⟩ := ((zones_of_plans hstep hoffset).2.1 _ _ _ _ _).2 _ hplan
  exact ⟨hstep, hoffset, _, hplan, hinner, hshelf, hwidens⟩

/-! ## The widest pass -/

/-- The pass under the target is the only one that can lie beyond it, and does so from half a
ten-thousandth on. -/
theorem diameters_le_iff (h : opening c start target z chamfer = .ok passes)
    (hforward : (Scalar.round4 start : Rat) ≤ Scalar.round4 target)
    (hzero : (0 : Rat) ≤ Scalar.round4 target) :
    (∀ d ∈ Pass.diameters passes, d ≤ Scalar.round4 target) ↔
      -(1 / 20000) < c.preFinishOffset := by
  have htarget : IsPlaced (Scalar.round4 target : Rat) := isPlaced_round4 target
  have hpre : (Scalar.round4 (Scalar.round4 target - c.preFinishOffset) : Rat)
      ≤ Scalar.round4 target ↔ -(1 / 20000) < c.preFinishOffset := by
    rw [round4_le_iff htarget hzero]
    constructor <;> intro h <;> linarith
  obtain ⟨ds, hds, hdiameters⟩ := diameters_opening h
  have hreached := hds.reached_le hforward
  rw [hdiameters, ← hpre]
  constructor
  · intro hall
    by_contra hbeyond
    have hgap := htarget.le_sub (isPlaced_round4 _) (not_le.1 hbeyond)
    have hahead : (Scalar.round4 (Scalar.round4 target - c.preFinishOffset) : Rat)
        > ds.getLastD (Scalar.round4 start) + epsilon := by
      rw [epsilon_rat]
      linarith
    have hmem := List.mem_append_right ds (mem_preFinishDiameters.2 ⟨rfl, hahead⟩)
    exact hbeyond (hall _ (List.mem_append_left _ hmem))
  · intro hpre d hd
    rcases List.mem_append.1 hd with hd | hd
    · rcases List.mem_append.1 hd with hd | hd
      · exact (hds.of_mem hd).2.le
      · rwa [(mem_preFinishDiameters.1 hd).1]
    · exact (List.mem_singleton.1 hd).le

/-- Accepted settings plan no pass wider than the finishing pass exactly when the pass under the
target lies less than half a ten-thousandth beyond it. -/
theorem finish_widest_iff {config : Config Rat} (hvalid : config.isValid = true) {drill : Rat}
    (h : plan config.generator target drill chamfer = .ok passes) :
    (∀ p ∈ passes, p.isChamfer = false → p.diameter ≤ Scalar.round4 target) ↔
      -(1 / 20000) < config.generator.preFinishOffset := by
  obtain ⟨hentry, -, -⟩ := plan_eq_ok h
  obtain ⟨opened, hopened, hplan⟩ := diameters_plan h
  have hpositive : 0 < config.generator.safeEntryDiameter :=
    Scalar.not_le_zero_rat.1
      (CuttingConstants.entry_not_le_zero (Config.fault?_eq_none hvalid).1)
  have hforward : (Scalar.round4 config.generator.safeEntryDiameter : Rat) ≤ Scalar.round4 target :=
    round4_mono hentry.le
  have hzero : (0 : Rat) ≤ Scalar.round4 target := by
    have hplaced : IsPlaced 0 := ⟨0, by norm_num⟩
    rw [← hplaced.round4]
    exact round4_mono (by linarith)
  have hdiameters : (∀ p ∈ passes, p.isChamfer = false → p.diameter ≤ Scalar.round4 target) ↔
      ∀ d ∈ Pass.diameters passes, d ≤ Scalar.round4 target := by
    simp only [Pass.diameters, List.forall_mem_map, List.mem_filter, Bool.not_eq_true', and_imp]
  rw [hdiameters, hplan, List.forall_mem_cons, diameters_le_iff hopened hforward hzero]
  exact and_iff_right hforward

end

/-- A constant below zero is accepted, with which the bore is cut half an inch beyond its target before
the finishing pass. -/
theorem not_finish_widest :
    let constants : CuttingConstants Rat := { CuttingConstants.standard with preFinishOffset := -0.5 }
    let config : Config Rat := { Config.standard with generator := constants }
    config.isValid = true ∧ 1 / 10000 ≤ constants.maxBoreStep ∧
      plan constants 3.5 (-1.65) false = .ok
        [⟨2.3, -1.65, .rough⟩, ⟨2.6, -1.65, .rough⟩, ⟨2.9, -1.65, .rough⟩, ⟨3.2, -1.65, .rough⟩,
          ⟨4, -1.65, .rough⟩, ⟨3.5, -1.65, .finish⟩] ∧
      (Scalar.round4 3.5 : Rat) < 4 := by
  decide +kernel

theorem finish_widest_iff_chamfer :
    (Config.standard : Config Rat).isValid = true ∧
      ∃ passes, plan (.standard : CuttingConstants Rat) 2.35 (-1) true = .ok passes ∧
        ((∀ p ∈ passes, p.isChamfer = false → p.diameter ≤ Scalar.round4 2.35) ↔
          -(1 / 20000) < (CuttingConstants.standard : CuttingConstants Rat).preFinishOffset) := by
  have hvalid : (Config.standard : Config Rat).isValid = true := by decide +kernel
  have hplan : plan (.standard : CuttingConstants Rat) 2.35 (-1) true
      = .ok [⟨2.3, -1, .rough⟩, ⟨2.65, -0.15, .chamfer⟩, ⟨2.35, -1, .finish⟩] := by
    decide +kernel
  exact ⟨hvalid, _, hplan, finish_widest_iff hvalid hplan⟩

end Boring

end SpacerTurning
