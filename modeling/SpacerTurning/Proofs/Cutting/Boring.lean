import SpacerTurning.Proofs.Cutting.Roughing
import SpacerTurning.Proofs.Part.Refusal

/-!
How an opened bore is widened.

Over exact numbers, the roughing passes go up from the start by at most a step, give or take half a
ten-thousandth, and stop within a step of the target.  So the pass under the target and the finishing
pass are never further away than a step either, and the whole opening widens the bore step by step.
-/

namespace SpacerTurning

open Number

/-- Diameters that widen a bore step by step, from one that is there. -/
inductive Widens (step : Rat) : Rat → List Rat → Prop where
  | nil {d : Rat} : Widens step d []
  | cons {d e : Rat} {ds : List Rat} : d ≤ e → e ≤ d + step → Widens step e ds →
    Widens step d (e :: ds)

namespace Widens

variable {step d : Rat} {ds es : List Rat}

theorem mono {step' : Rat} (h : Widens step d ds) (hstep : step ≤ step') : Widens step' d ds := by
  induction h with
  | nil => exact .nil
  | cons hle hgap _ ih => exact .cons hle (by linarith) ih

theorem append (h : Widens step d ds) (h' : Widens step (ds.getLastD d) es) :
    Widens step d (ds ++ es) := by
  induction h with
  | nil => exact h'
  | @cons d e ds hle hgap _ ih =>
    refine .cons hle hgap (ih ?_)
    rwa [List.getLastD_cons] at h'

theorem le_of_mem (h : Widens step d ds) {x : Rat} (hx : x ∈ ds) : d ≤ x := by
  induction h with
  | nil => cases hx
  | cons hle _ _ ih =>
    rcases List.mem_cons.1 hx with rfl | hx
    · exact hle
    · exact hle.trans (ih hx)

/-- Leaving out what is wider than a limit leaves out the end. -/
theorem filter_le (h : Widens step d ds) (limit : Rat) :
    Widens step d (ds.filter fun x => decide (x ≤ limit)) := by
  induction h with
  | nil => exact .nil
  | @cons d e ds hle hgap hrest ih =>
    by_cases he : e ≤ limit
    · simpa [he] using Widens.cons hle hgap ih
    · have hnone : ds.filter (fun x => decide (x ≤ limit)) = [] := by
        refine List.filter_eq_nil_iff.2 fun x hx => ?_
        have := hrest.le_of_mem hx
        simp only [decide_eq_true_eq, not_le]
        linarith
      simp [he, hnone, Widens.nil]

end Widens

namespace Boring

open Exact

/-- Placed numbers are no closer to each other than a ten-thousandth. -/
theorem le_of_sub_epsilon_le {x y : Rat} (hx : IsPlaced x) (hy : IsPlaced y)
    (h : x - epsilon ≤ y) : x ≤ y := by
  rw [epsilon_rat] at h
  by_contra hlt
  have := hy.le_sub hx (not_le.1 hlt)
  linarith

/-! ## Roughing -/

namespace Roughs

variable {step target current : Rat} {ds : List Rat}

theorem widens (h : Roughs step target current ds) : Widens (step + 1 / 20000) current ds := by
  induction h with
  | stop => exact .nil
  | turn hgo hrest ih => exact .cons ((Roughs.turn hgo hrest).lt_next hgo).le next_le ih

/-- The widest roughing pass is no wider than the target. -/
theorem reached_le (h : Roughs step target current ds) (hforward : current ≤ target) :
    ds.getLastD current ≤ target := by
  rcases List.mem_cons.1 (List.getLastD_mem_cons (l := ds) (a := current)) with heq | hlast
  · rw [heq]
    exact hforward
  · exact (h.of_mem hlast).2.le

/-- The target is within a step of the widest roughing pass. -/
theorem le_reached (h : Roughs step target current ds) (htarget : IsPlaced target) :
    target ≤ ds.getLastD current + (step + 1 / 20000) :=
  (le_of_sub_epsilon_le htarget (isPlaced_round4 _) h.reaches).trans next_le

end Roughs

/-! ## Openings -/

/-- A bore that is opened forward, over constants that do not go past the target. -/
structure Opens (c : CuttingConstants Rat) (start target : Rat) : Prop where
  offset : 0 ≤ c.preFinishOffset
  forward : (Scalar.round4 start : Rat) ≤ Scalar.round4 target

variable {c : CuttingConstants Rat} {start target z : Rat} {chamfer : Bool} {ds : List Rat}
  {passes : List (Pass Rat)}

/-- The pass just under the target, if it is still ahead. -/
def preFinishDiameters (c : CuttingConstants Rat) (reached target : Rat) : List Rat :=
  let preFinish := Scalar.round4 (Scalar.round4 target - c.preFinishOffset)
  if preFinish > reached + epsilon then [preFinish] else []

/-- The diameters that are bored on the way to the target, over those of the loop. -/
def diametersBefore (c : CuttingConstants Rat) (start target : Rat) (ds : List Rat) : List Rat :=
  ds ++ preFinishDiameters c (ds.getLastD (Scalar.round4 start)) target

def chamferPasses (c : CuttingConstants Rat) (target : Rat) (chamfer : Bool) : List (Pass Rat) :=
  if chamfer then
    [Pass.mk4 (Scalar.round4 target + 2.0 * c.chamferDepth) (-c.chamferDepth) .chamfer]
  else []

theorem mem_preFinishDiameters {reached d : Rat} : d ∈ preFinishDiameters c reached target ↔
    d = Scalar.round4 (Scalar.round4 target - c.preFinishOffset) ∧ d > reached + epsilon := by
  unfold preFinishDiameters
  dsimp only
  split
  · next hahead =>
    rw [List.mem_singleton, iff_self_and]
    rintro rfl
    exact hahead
  · next hbehind =>
    refine iff_of_false List.not_mem_nil ?_
    rintro ⟨rfl, hahead⟩
    exact hbehind hahead

/-- An opening comes to an end where its loop does, and is made of the passes of the loop, the pass
under the target, the chamfer and the finishing pass. -/
theorem opening_eq_ok_iff : opening c start target z chamfer = .ok passes ↔
    ∃ ds, Roughs c.maxBoreStep (Scalar.round4 target) (Scalar.round4 start) ds ∧
      passes = (diametersBefore c start target ds).map (Pass.mk4 · z .rough)
        ++ chamferPasses c target chamfer ++ [Pass.mk4 (Scalar.round4 target) z .finish] := by
  have hpre (p : Prop) [Decidable p] (d : Rat) :
      (if p then [Pass.mk4 d z .rough] else []) = (if p then [d] else []).map (Pass.mk4 · z .rough) := by
    split <;> rfl
  simp only [opening, bind_eq_ok, roughDiameters_eq_ok_iff, pure, Except.pure, Except.ok.injEq, hpre,
    ← List.map_append]
  exact exists_congr fun ds => and_congr_right fun _ => eq_comm

theorem exists_opening_iff :
    (∃ passes, opening c start target z chamfer = .ok passes) ↔ RoughingEnds c start target := by
  constructor
  · rintro ⟨passes, h⟩
    obtain ⟨ds, hds, -⟩ := opening_eq_ok_iff.1 h
    exact ⟨ds, hds⟩
  · rintro ⟨ds, hds⟩
    exact ⟨_, opening_eq_ok_iff.2 ⟨ds, hds, rfl⟩⟩

theorem opening_eq_endless_iff :
    opening c start target z chamfer = .error .endless ↔ ¬ RoughingEnds c start target := by
  rw [← roughDiameters_eq_endless_iff, opening]
  cases roughDiameters c start target <;> simp [bind, Except.bind, pure, Except.pure]

theorem isPlaced_of_mem_before
    (h : Roughs c.maxBoreStep (Scalar.round4 target) (Scalar.round4 start) ds) {d : Rat}
    (hd : d ∈ diametersBefore c start target ds) : IsPlaced d := by
  rcases List.mem_append.1 hd with hd | hd
  · exact (h.of_mem hd).1
  · rw [(mem_preFinishDiameters.1 hd).1]
    exact isPlaced_round4 _

theorem diameters_opening (h : opening c start target z chamfer = .ok passes) :
    ∃ ds, Roughs c.maxBoreStep (Scalar.round4 target) (Scalar.round4 start) ds ∧
      Pass.diameters passes = diametersBefore c start target ds ++ [Scalar.round4 target] := by
  obtain ⟨ds, hds, rfl⟩ := opening_eq_ok_iff.1 h
  refine ⟨ds, hds, ?_⟩
  have hthrough (es : List Rat) (hes : ∀ d ∈ es, IsPlaced d) :
      ((es.map (Pass.mk4 · z .rough)).filter fun p => !p.isChamfer).map (·.diameter) = es := by
    induction es with
    | nil => rfl
    | cons d es ih =>
      have hd : (Scalar.round4 d : Rat) = d := (hes d List.mem_cons_self).round4
      have ih := ih fun e he => hes e (List.mem_cons_of_mem _ he)
      simpa [Pass.mk4, Pass.isChamfer, hd] using ih
  have hchamfer : ((chamferPasses c target chamfer).filter fun p => !p.isChamfer) = [] := by
    cases chamfer <;> rfl
  have hfinish : (Scalar.round4 (Scalar.round4 target) : Rat) = Scalar.round4 target :=
    (isPlaced_round4 target).round4
  rw [Pass.diameters, List.filter_append, List.filter_append, List.map_append, List.map_append,
    hthrough _ fun _ => isPlaced_of_mem_before hds, hchamfer]
  simp [Pass.mk4, Pass.isChamfer, hfinish]

theorem getLastD_opening (h : opening c start target z chamfer = .ok passes) (d : Rat) :
    (Pass.diameters passes).getLastD d = Scalar.round4 target := by
  obtain ⟨ds, -, hdiameters⟩ := diameters_opening h
  rw [hdiameters, List.getLastD_concat]

theorem preFinish_le (h : Opens c start target) :
    (Scalar.round4 (Scalar.round4 target - c.preFinishOffset) : Rat) ≤ Scalar.round4 target := by
  calc (Scalar.round4 (Scalar.round4 target - c.preFinishOffset) : Rat)
      ≤ Scalar.round4 (Scalar.round4 target) := round4_mono (by linarith [h.offset])
    _ = Scalar.round4 target := (isPlaced_round4 target).round4

/-- An opening widens the bore step by step. -/
theorem Opens.widens (h : Opens c start target)
    (hopening : opening c start target z chamfer = .ok passes) :
    Widens (c.maxBoreStep + 1 / 20000) (Scalar.round4 start) (Pass.diameters passes) := by
  obtain ⟨ds, hds, hdiameters⟩ := diameters_opening hopening
  have hbelow := hds.reached_le h.forward
  have hwithin := hds.le_reached (isPlaced_round4 target)
  have hpre := preFinish_le h
  rw [hdiameters, diametersBefore, List.append_assoc]
  refine hds.widens.append ?_
  unfold preFinishDiameters
  dsimp only
  split
  · next hahead =>
    have hpos := epsilon_pos
    refine .cons (by linarith) (by linarith) (.cons hpre (by linarith) .nil)
  · exact .cons hbelow hwithin .nil

/-- A pass of an opening cuts at its height, or is the chamfer that was asked for. -/
theorem of_mem_opening (h : opening c start target z chamfer = .ok passes) {p : Pass Rat}
    (hp : p ∈ passes) :
    (∃ d kind, p = Pass.mk4 d z kind ∧ p.isChamfer = false) ∨
      chamfer = true ∧
        p = Pass.mk4 (Scalar.round4 target + 2.0 * c.chamferDepth) (-c.chamferDepth) .chamfer := by
  obtain ⟨ds, -, rfl⟩ := opening_eq_ok_iff.1 h
  simp only [List.mem_append, List.mem_map, List.mem_singleton] at hp
  rcases hp with (⟨d, -, rfl⟩ | hp) | rfl
  · exact .inl ⟨d, .rough, rfl, rfl⟩
  · unfold chamferPasses at hp
    split at hp
    · next hchamfer => exact .inr ⟨hchamfer, List.mem_singleton.1 hp⟩
    · cases hp
  · exact .inl ⟨Scalar.round4 target, .finish, rfl, rfl⟩

theorem z_of_mem_opening (h : opening c start target z chamfer = .ok passes) {p : Pass Rat}
    (hp : p ∈ passes) (hkind : p.isChamfer = false) : p.z = Scalar.round4 z := by
  rcases of_mem_opening h hp with ⟨d, kind, rfl, -⟩ | ⟨-, rfl⟩
  · rfl
  · cases hkind

/-- The chamfer of an opening is as deep as every other one. -/
theorem z_of_mem_opening_of_isChamfer (h : opening c start target z chamfer = .ok passes)
    {p : Pass Rat} (hp : p ∈ passes) (hkind : p.isChamfer = true) :
    p.z = Scalar.round4 (-c.chamferDepth) := by
  rcases of_mem_opening h hp with ⟨d, kind, -, hcut⟩ | ⟨-, rfl⟩
  · rw [hkind] at hcut
    cases hcut
  · rfl

theorem isPlaced_of_mem_opening (h : opening c start target z chamfer = .ok passes) {p : Pass Rat}
    (hp : p ∈ passes) : IsPlaced p.diameter := by
  rcases of_mem_opening h hp with ⟨d, kind, rfl, -⟩ | ⟨-, rfl⟩
  · exact isPlaced_round4 d
  · exact isPlaced_round4 _

/-! ## How many passes -/

theorem roughPasses_prefix
    (h : Roughs c.maxBoreStep (Scalar.round4 target) (Scalar.round4 start) ds)
    (hopening : opening c start target z chamfer = .ok passes) :
    ds.map (fun d => ⟨d, Scalar.round4 z, .rough⟩) <+: passes := by
  obtain ⟨es, hes, rfl⟩ := opening_eq_ok_iff.1 hopening
  obtain rfl := h.unique hes
  have hmap : es.map (Pass.mk4 · z .rough) = es.map fun d => ⟨d, Scalar.round4 z, .rough⟩ := by
    refine List.map_congr_left fun d hd => ?_
    rw [Pass.mk4, (h.of_mem hd).1.round4]
  rw [diametersBefore, List.map_append, hmap, List.append_assoc, List.append_assoc]
  exact List.prefix_append _ _

/-- The loop that opens a bore stops, in one way, after no more passes than fit between start and
target; each is wider than the one before and narrower than the target, and so the opening comes to
an end and begins with them. -/
theorem roughs_opening {c : CuttingConstants Rat} (hstep : 0.0001 ≤ c.maxBoreStep)
    (start target z : Rat) (chamfer : Bool) :
    ∃ (ds : List Rat) (passes : List (Pass Rat)),
      (∀ es, Roughs c.maxBoreStep (Scalar.round4 target) (Scalar.round4 start) es ↔ es = ds) ∧
      opening c start target z chamfer = .ok passes ∧
      ds.map (fun d => ⟨d, Scalar.round4 z, .rough⟩) <+: passes ∧
      (ds.length : Int) ≤ ⌈max 0 (target - start + 0.0001) / (c.maxBoreStep - 0.00005)⌉ ∧
      (Scalar.round4 start :: ds).IsChain (· < ·) ∧
      ∀ d ∈ ds, d < Scalar.round4 target := by
  norm_num at hstep
  obtain ⟨ds, hrun⟩ := roughingEnds_of_step (c := c) (by linarith) start target
  obtain ⟨passes, hopening⟩ : ∃ passes, opening c start target z chamfer = .ok passes :=
    exists_opening_iff.2 ⟨ds, hrun⟩
  refine ⟨ds, passes, fun es => ⟨hrun.unique, fun h => h ▸ hrun⟩, hopening,
    roughPasses_prefix hrun hopening, ?_, hrun.isChain, fun d hd => (hrun.of_mem hd).2⟩
  have hgap : (Scalar.round4 target - Scalar.round4 start : Rat) ≤ target - start + 0.0001 := by
    have hround := round4_sub_le target start
    norm_num
    linarith
  have hpos : 0 < c.maxBoreStep - 0.00005 := by
    norm_num
    linarith
  have hcount : (ds.length : Rat)
      ≤ max 0 (target - start + 0.0001) / (c.maxBoreStep - 0.00005) := by
    rw [le_div_iff₀ hpos]
    calc (ds.length : Rat) * (c.maxBoreStep - 0.00005)
        = ds.length * (c.maxBoreStep - 1 / 20000) := by norm_num
      _ ≤ max 0 (Scalar.round4 target - Scalar.round4 start) := hrun.length_mul_le
      _ ≤ max 0 (target - start + 0.0001) := max_le_max_left 0 hgap
  exact_mod_cast hcount.trans (Int.le_ceil _)

/-- Rounding can add passes: four here, where three steps lead from the start to the target. -/
theorem roughs_opening_fine_step :
    let c : CuttingConstants Rat := { CuttingConstants.standard with maxBoreStep := 0.00014 }
    let ds : List Rat := [2.3001, 2.3002, 2.3003, 2.3004]
    0.0001 ≤ c.maxBoreStep ∧
      Roughs c.maxBoreStep (Scalar.round4 2.30045) (Scalar.round4 2.30004) ds ∧
      (∃ passes, opening c 2.30004 2.30045 (-1) false = .ok passes ∧
        ds.map (fun d => ⟨d, Scalar.round4 (-1), .rough⟩) <+: passes) ∧
      (ds.length : Int) ≤ ⌈max 0 ((2.30045 : Rat) - 2.30004 + 0.0001) / (c.maxBoreStep - 0.00005)⌉ ∧
      (Scalar.round4 2.30004 :: ds).IsChain (· < ·) ∧ ∀ d ∈ ds, d < Scalar.round4 2.30045 := by
  intro c ds
  have hstep : 0.0001 ≤ c.maxBoreStep := by decide +kernel
  have hdiameters : roughDiameters c 2.30004 2.30045 = .ok ds := by decide +kernel
  have hrun := roughDiameters_eq_ok_iff.1 hdiameters
  obtain ⟨es, passes, hall, hopening, hbegins, hbounds⟩ :=
    roughs_opening hstep 2.30004 2.30045 (-1) false
  obtain rfl := (hall _).1 hrun
  exact ⟨hstep, hrun, ⟨passes, hopening, hbegins⟩, hbounds⟩

end Boring

end SpacerTurning
