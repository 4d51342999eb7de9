import SpacerTurning.Proofs.Cutting.Plans
import SpacerTurning.Proofs.Generation.Build

/-!
How the bore of a part is opened.

Under the shop's own constants, the passes of the first side that cut below the surface begin at the
safe entry diameter and widen the bore by a step and half a ten-thousandth at most.  That holds for
every kind of part: a counterbore goes on from the last pass of the holder, and what a thin lip
leaves out at the shelf is the end of its passes.
-/

namespace SpacerTurning

open Number Exact

/-- The diameters of the passes that cut below a height, as they are written. -/
def Pass.cutDiameters (limit : Rat) (passes : List (Pass Rat)) : List Rat :=
  (passes.filter fun p => !p.isChamfer && decide (Scalar.round4 p.z < limit)).map
    fun p => Scalar.round4 p.diameter

namespace Pass

variable {limit : Rat}

theorem cutDiameters_append (a b : List (Pass Rat)) :
    cutDiameters limit (a ++ b) = cutDiameters limit a ++ cutDiameters limit b := by
  simp [cutDiameters]

/-- Passes that all go deep cut all their diameters. -/
theorem cutDiameters_of_deep {passes : List (Pass Rat)}
    (h : ∀ p ∈ passes, p.isChamfer = false → (Scalar.round4 p.z : Rat) < limit) :
    cutDiameters limit passes = (diameters passes).map Scalar.round4 := by
  have hfilter : passes.filter (fun p => !p.isChamfer && decide (Scalar.round4 p.z < limit))
      = passes.filter fun p => !p.isChamfer := by
    refine List.filter_congr fun p hp => ?_
    cases hkind : p.isChamfer with
    | true => rfl
    | false => simp [h p hp hkind]
  rw [cutDiameters, hfilter, diameters, List.map_map]
  rfl

theorem cutDiameters_of_shallow {passes : List (Pass Rat)}
    (h : ∀ p ∈ passes, p.isChamfer = false → ¬ (Scalar.round4 p.z : Rat) < limit) :
    cutDiameters limit passes = [] := by
  have hfilter : passes.filter (fun p => !p.isChamfer && decide (Scalar.round4 p.z < limit)) = [] := by
    refine List.filter_eq_nil_iff.2 fun p hp => ?_
    cases hkind : p.isChamfer with
    | true => simp
    | false => simp [h p hp hkind]
  rw [cutDiameters, hfilter]
  rfl

end Pass

namespace Boring

theorem standard_eq :
    (CuttingConstants.standard : CuttingConstants Rat).maxBoreStep = 3 / 10 ∧
      (CuttingConstants.standard : CuttingConstants Rat).preFinishOffset = 1 / 10 ∧
      (CuttingConstants.standard : CuttingConstants Rat).safeEntryDiameter = 23 / 10 := by
  simp only [CuttingConstants.standard]
  norm_num

theorem round4_entry : (Scalar.round4 (23 / 10) : Rat) = 23 / 10 :=
  IsPlaced.round4 ⟨23000, by norm_num⟩

theorem opens_standard {start target : Rat} (hle : start ≤ target) :
    Opens .standard start target := by
  obtain ⟨-, hoffset, -⟩ := standard_eq
  exact ⟨by rw [hoffset]; norm_num, round4_mono hle⟩

variable {c : CuttingConstants Rat} {start target z limit : Rat} {chamfer : Bool}
  {passes : List (Pass Rat)}

theorem cutDiameters_opening_of_deep (h : opening c start target z chamfer = .ok passes)
    (hz : Scalar.round4 z < limit) : Pass.cutDiameters limit passes = Pass.diameters passes := by
  have hplaced : ∀ d ∈ Pass.diameters passes, IsPlaced d := by
    intro d hd
    obtain ⟨p, hp, rfl⟩ := List.mem_map.1 hd
    exact isPlaced_of_mem_opening h (List.mem_of_mem_filter hp)
  rw [Pass.cutDiameters_of_deep]
  · exact (List.map_congr_left fun d hd => (hplaced d hd).round4).trans (List.map_id _)
  · intro p hp hkind
    rw [z_of_mem_opening h hp hkind, (isPlaced_round4 z).round4]
    exact hz

theorem cutDiameters_opening_of_shallow (h : opening c start target z chamfer = .ok passes)
    (hz : ¬ Scalar.round4 z < limit) : Pass.cutDiameters limit passes = [] := by
  refine Pass.cutDiameters_of_shallow fun p hp hkind => ?_
  rw [z_of_mem_opening h hp hkind, (isPlaced_round4 z).round4]
  exact hz

end Boring

/-- Passes that open a bore from the entry on, as far as they cut below a height. -/
def OpensFromEntry (limit : Rat) (passes : List (Pass Rat)) : Prop :=
  ∃ rest, Pass.cutDiameters limit passes = 23 / 10 :: rest ∧ Widens (30005 / 100000) (23 / 10) rest

variable {limit target drill : Rat}

/-- A plan for one diameter cuts the entry and then what widens it, up to its target. -/
theorem cutDiameters_plan {chamfer : Bool} {passes : List (Pass Rat)}
    (hdeep : Scalar.round4 drill < limit)
    (h : Boring.plan .standard target drill chamfer = .ok passes) :
    ∃ rest, Pass.cutDiameters limit passes = 23 / 10 :: rest ∧
      Widens (30005 / 100000) (23 / 10) rest ∧ rest.getLastD (23 / 10) = Scalar.round4 target := by
  obtain ⟨hstep, -, hentry⟩ := Boring.standard_eq
  obtain ⟨habove, -, opened, hopened, rfl⟩ := Boring.plan_eq_ok h
  rw [hentry] at habove hopened ⊢
  have hwidens := (Boring.opens_standard habove.le).widens hopened
  rw [hstep, Boring.round4_entry] at hwidens
  have hfirst : Pass.cutDiameters limit [Pass.mk4 (23 / 10) drill .rough] = [23 / 10] := by
    have hz : (Scalar.round4 (Scalar.round4 drill) : Rat) < limit := by
      rwa [(isPlaced_round4 drill).round4]
    simp [Pass.cutDiameters, Pass.mk4, Pass.isChamfer, hz, Boring.round4_entry]
  refine ⟨_, ?_, hwidens.mono (by norm_num), Boring.getLastD_opening hopened _⟩
  rw [← List.singleton_append, Pass.cutDiameters_append, hfirst,
    Boring.cutDiameters_opening_of_deep hopened hdeep]
  rfl

theorem opensFromEntry_plan {chamfer : Bool} {passes : List (Pass Rat)}
    (hdeep : Scalar.round4 drill < limit)
    (h : Boring.plan .standard target drill chamfer = .ok passes) :
    OpensFromEntry limit passes := by
  obtain ⟨rest, hcut, hwidens, -⟩ := cutDiameters_plan hdeep h
  exact ⟨rest, hcut, hwidens⟩

/-- The counterbore goes on where the holder ends, or is too shallow to be seen at all. -/
theorem opensFromEntry_twoZonePlan {holder counterbore step : Rat} {chamfer : Bool}
    {p : TwoZonePlan Rat} (hdeep : Scalar.round4 drill < limit)
    (h : Boring.twoZonePlan .standard holder counterbore drill step chamfer = .ok p) :
    OpensFromEntry limit p.passes := by
  obtain ⟨hstep, -, -⟩ := Boring.standard_eq
  obtain ⟨hwider, -, hinner, hshelf⟩ := Boring.twoZonePlan_eq_ok h
  obtain ⟨rest, hcut, hwidens, hlast⟩ := cutDiameters_plan hdeep hinner
  by_cases hz : Scalar.round4 (-step) < limit
  · have hshelfWidens := (Boring.opens_standard hwider.le).widens hshelf
    rw [hstep] at hshelfWidens
    refine ⟨rest ++ Pass.diameters p.shelf, ?_, hwidens.append ?_⟩
    · rw [TwoZonePlan.passes, Pass.cutDiameters_append, hcut,
        Boring.cutDiameters_opening_of_deep hshelf hz]
      rfl
    · rw [hlast]
      exact hshelfWidens.mono (by norm_num)
  · refine ⟨rest, ?_, hwidens⟩
    rw [TwoZonePlan.passes, Pass.cutDiameters_append, hcut,
      Boring.cutDiameters_opening_of_shallow hshelf hz, List.append_nil]

theorem entry_le_shelfLimit (j : Job Rat) (hstandard : j.constants = .standard) :
    (23 / 10 : Rat) ≤ j.shelfLimit := by
  obtain ⟨-, -, hentry⟩ := Boring.standard_eq
  unfold Job.shelfLimit Scalar.larger
  rw [hstandard, hentry]
  split
  · exact le_rfl
  · next hlt =>
    simpa using not_lt.1 hlt

/-- Stopping the wider passes at a shelf takes them out of the cuts, or none if it is deep. -/
theorem cutDiameters_stopped (limit widest shelf : Rat) {passes : List (Pass Rat)}
    (h : ∀ p ∈ passes, p.isChamfer = false →
      (Scalar.round4 p.z : Rat) < limit ∧ IsPlaced p.diameter) :
    Pass.cutDiameters limit (passes.map fun p =>
        if !p.isChamfer && decide (p.diameter > widest) then { p with z := shelf } else p)
      = (Pass.cutDiameters limit passes).filter fun d =>
          decide (d ≤ widest) || decide (Scalar.round4 shelf < limit) := by
  induction passes with
  | nil => rfl
  | cons p passes ih =>
    have ih := ih fun q hq => h q (List.mem_cons_of_mem _ hq)
    have happend (p : Pass Rat) (ps : List (Pass Rat)) :
        Pass.cutDiameters limit (p :: ps)
          = Pass.cutDiameters limit [p] ++ Pass.cutDiameters limit ps :=
      Pass.cutDiameters_append [p] ps
    rw [List.map_cons, happend, happend p, List.filter_append, ih]
    congr 1
    cases hkind : p.isChamfer with
    | true => simp [Pass.cutDiameters, hkind]
    | false =>
      obtain ⟨hz, hplaced⟩ := h p List.mem_cons_self hkind
      have hkind' : ({ p with z := shelf } : Pass Rat).isChamfer = false := hkind
      by_cases hwide : p.diameter > widest
      · have hnot : ¬ p.diameter ≤ widest := not_le.2 hwide
        by_cases hshelf : (Scalar.round4 shelf : Rat) < limit <;>
          simp [Pass.cutDiameters, hkind, hkind', hwide, hz, hplaced.round4, hshelf, hnot]
      · have hle : p.diameter ≤ widest := not_lt.1 hwide
        simp [Pass.cutDiameters, hkind, hwide, hz, hplaced.round4, hle]

/-- What a thin lip bores at the shelf is the end of its passes, so that the passes below it open
the bore whether or not the shelf is deep enough to be seen. -/
theorem opensFromEntry_thinLip {j : Job Rat} (hstandard : j.constants = .standard)
    (hdeep : Scalar.round4 j.depths.drill < limit) {hub : Hub Rat} {passes : List (Pass Rat)}
    (h : j.thinLipPasses hub = .ok passes) : OpensFromEntry limit passes := by
  simp only [Job.thinLipPasses, bind_eq_ok] at h
  obtain ⟨shelf, -, plain, hplain, h⟩ := h
  cases h
  rw [Job.plainPasses, hstandard] at hplain
  have hpasses : ∀ p ∈ plain, p.isChamfer = false →
      (Scalar.round4 p.z : Rat) < limit ∧ IsPlaced p.diameter := by
    obtain ⟨-, -, opened, hopened, rfl⟩ := Boring.plan_eq_ok hplain
    intro p hp hkind
    have hz (z : Rat) (hdeep : (Scalar.round4 z : Rat) < limit) :
        (Scalar.round4 (Scalar.round4 z) : Rat) < limit := by
      rwa [(isPlaced_round4 z).round4]
    rcases List.mem_cons.1 hp with rfl | hp
    · exact ⟨hz _ hdeep, isPlaced_round4 _⟩
    · rw [Boring.z_of_mem_opening hopened hp hkind]
      exact ⟨hz _ hdeep, Boring.isPlaced_of_mem_opening hopened hp⟩
  obtain ⟨rest, hcut, hwidens, -⟩ := cutDiameters_plan hdeep hplain
  have hentry := entry_le_shelfLimit j hstandard
  rw [OpensFromEntry, cutDiameters_stopped limit j.shelfLimit shelf hpasses, hcut]
  by_cases hshelf : (Scalar.round4 shelf : Rat) < limit
  · refine ⟨rest, ?_, hwidens⟩
    simp [hshelf]
  · refine ⟨_, ?_, hwidens.filter_le j.shelfLimit⟩
    simp [hshelf, hentry]

/-- However the bore of a part is opened, it is opened from the entry on, step by step. -/
theorem opensFromEntry_borePasses {j : Job Rat} (hstandard : j.constants = .standard)
    (hdeep : Scalar.round4 j.depths.drill < limit) {passes : List (Pass Rat)}
    (h : j.borePasses = .ok passes) : OpensFromEntry limit passes := by
  have hplain {passes : List (Pass Rat)} (h : j.plainPasses = .ok passes) :
      OpensFromEntry limit passes := by
    rw [Job.plainPasses, hstandard] at h
    exact opensFromEntry_plan hdeep h
  have hcounterbore {shelf : Counterbore Rat} {passes : List (Pass Rat)}
      (h : j.counterborePasses shelf = .ok passes) : OpensFromEntry limit passes := by
    rw [Job.counterborePasses, hstandard] at h
    obtain ⟨p, hp, rfl⟩ := map_eq_ok.1 h
    exact opensFromEntry_twoZonePlan hdeep hp
  unfold Job.borePasses at h
  split at h
  · exact hplain h
  · exact hplain h
  · exact hplain h
  · exact opensFromEntry_thinLip hstandard hdeep h
  · exact hcounterbore h
  · exact hcounterbore h
  · rw [Job.ringSeatPasses, hstandard] at h
    obtain ⟨p, hp, rfl⟩ := map_eq_ok.1 h
    exact opensFromEntry_twoZonePlan hdeep hp

/-- All chamfers of a bore are as deep as the shop has them. -/
theorem z_of_mem_borePasses {j : Job Rat} {passes : List (Pass Rat)}
    (h : j.borePasses = .ok passes) {p : Pass Rat} (hp : p ∈ passes) (hkind : p.isChamfer = true) :
    p.z = Scalar.round4 (-j.constants.chamferDepth) := by
  have hplan {target : Rat} {chamfer : Bool} {passes : List (Pass Rat)}
      (h : Boring.plan j.constants target j.depths.drill chamfer = .ok passes) {p : Pass Rat}
      (hp : p ∈ passes) (hkind : p.isChamfer = true) :
      p.z = Scalar.round4 (-j.constants.chamferDepth) := by
    obtain ⟨-, -, opened, hopened, rfl⟩ := Boring.plan_eq_ok h
    rcases List.mem_cons.1 hp with rfl | hp
    · cases hkind
    · exact Boring.z_of_mem_opening_of_isChamfer hopened hp hkind
  have htwo {holder counterbore step : Rat} {chamfer : Bool} {plan : TwoZonePlan Rat}
      (h : Boring.twoZonePlan j.constants holder counterbore j.depths.drill step chamfer = .ok plan)
      (hp : p ∈ plan.passes) : p.z = Scalar.round4 (-j.constants.chamferDepth) := by
    obtain ⟨-, -, hinner, hshelf⟩ := Boring.twoZonePlan_eq_ok h
    rcases List.mem_append.1 hp with hp | hp
    · exact hplan hinner hp hkind
    · exact Boring.z_of_mem_opening_of_isChamfer hshelf hp hkind
  unfold Job.borePasses at h
  split at h
  · exact hplan h hp hkind
  · exact hplan h hp hkind
  · exact hplan h hp hkind
  · simp only [Job.thinLipPasses, bind_eq_ok] at h
    obtain ⟨shelf, -, plain, hplain, h⟩ := h
    cases h
    obtain ⟨q, hq, rfl⟩ := List.mem_map.1 hp
    have hsame : q.isChamfer = true := by
      split at hkind
      · exact hkind
      · exact hkind
    simp only [hsame, Bool.not_true, Bool.false_and, Bool.false_eq_true, if_false]
    exact hplan hplain hq hsame
  · rw [Job.counterborePasses] at h
    obtain ⟨plan, htwoZone, rfl⟩ := map_eq_ok.1 h
    exact htwo htwoZone hp
  · rw [Job.counterborePasses] at h
    obtain ⟨plan, htwoZone, rfl⟩ := map_eq_ok.1 h
    exact htwo htwoZone hp
  · rw [Job.ringSeatPasses] at h
    obtain ⟨plan, htwoZone, rfl⟩ := map_eq_ok.1 h
    exact htwo htwoZone hp

end SpacerTurning
