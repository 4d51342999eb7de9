import SpacerTurning.Proofs.Generation.Depths

/-!
The safety shelf of a thin lip.

The first side is bored through as far as the shelf limit, and its wider passes stop at the shelf.  The
second side goes on from the widest pass that went through.  Its depth is what is left of the part
under the shelf and an edge break more, so that the two sides meet whatever the hub and the rounding
are.  That the shelf lies above the shoulder of the hub is a matter of the depth table: its rows drill
through the body by less than the shelf is set off.
-/

namespace SpacerTurning

open Number Exact

/-! ## Sections of a program -/

theorem Job.kind_of_sectionOf {α : Type} [Scalar α] {j : Job α} {kind : SectionKind} {s : Section α}
    (h : j.sectionOf kind = .ok s) : s.kind = kind := by
  cases kind with
  | header | op1Drill | op1Turn | flip | footer =>
    cases h
    rfl
  | op1Bore =>
    obtain ⟨passes, -, rfl⟩ := map_eq_ok.1 h
    rfl
  | op2Turn =>
    rcases of_op2TurnSection h with ⟨hub, increment, comment, -, -, h⟩ | ⟨-, rfl⟩
    · rw [of_hubSection h]
    · rfl
  | op2Chamfer => exact (of_op2ChamferSection h).1

/-- The section of a kind in a program is the one that its job has for that kind. -/
theorem Program.section?_eq {α : Type} [Scalar α] {j : Job α} {p : Program α} (h : ofJob j = .ok p)
    (kind : SectionKind) : ∃ s, j.sectionOf kind = .ok s ∧ p.section? kind = some s := by
  have horder := (of_ofJob h).1
  have hkind := j.part.kind.mem_sectionOrder kind
  unfold section?
  generalize j.part.kind.sectionOrder = kinds, p.sections = sections at horder hkind
  induction kinds generalizing sections with
  | nil => cases hkind
  | cons first kinds ih =>
    obtain ⟨s, rest, rfl, hs, hrest⟩ := List.map_eq_cons_iff.1 horder.symm
    have hfirst := Job.kind_of_sectionOf hs.symm
    by_cases heq : first = kind
    · subst heq
      exact ⟨s, hs.symm, by simp [hfirst]⟩
    · obtain ⟨s', hs', hfind⟩ := ih rest hrest.symm
        ((List.mem_cons.1 hkind).resolve_left fun e => heq e.symm)
      exact ⟨s', hs', by rw [List.find?_cons_of_neg (by simpa [hfirst] using heq), hfind]⟩

/-! ## The first side -/

namespace Job

variable {j : Job Rat} {hub : Hub Rat} {shelf : Rat} {passes : List (Pass Rat)}

theorem shelfZ_eq_ok (h : j.shelfZ hub = .ok shelf) :
    shelf = Scalar.round4 (j.depths.drill + hub.height + j.constants.thinLipShelfOffset) := by
  simp only [shelfZ, bind_eq_ok] at h
  obtain ⟨_, -, h⟩ := h
  exact (Except.ok.inj h).symm

/-- A pass of a thin lip, which stops at the shelf if it is wider than the limit. -/
def stopAtShelf (j : Job Rat) (shelf : Rat) (p : Pass Rat) : Pass Rat :=
  if !p.isChamfer && decide (p.diameter > j.shelfLimit) then { p with z := shelf } else p

theorem thinLipPasses_eq_ok (h : j.thinLipPasses hub = .ok passes) :
    ∃ shelf plain, j.shelfZ hub = .ok shelf ∧ j.plainPasses = .ok plain ∧
      passes = plain.map (j.stopAtShelf shelf) := by
  simp only [thinLipPasses, bind_eq_ok] at h
  obtain ⟨shelf, hshelf, plain, hplain, h⟩ := h
  exact ⟨shelf, plain, hshelf, hplain, (Except.ok.inj h).symm⟩

@[simp] theorem isChamfer_stopAtShelf (j : Job Rat) (shelf : Rat) (p : Pass Rat) :
    (j.stopAtShelf shelf p).isChamfer = p.isChamfer := by
  unfold stopAtShelf
  split <;> rfl

@[simp] theorem diameter_stopAtShelf (j : Job Rat) (shelf : Rat) (p : Pass Rat) :
    (j.stopAtShelf shelf p).diameter = p.diameter := by
  unfold stopAtShelf
  split <;> rfl

theorem z_stopAtShelf {p : Pass Rat} (hkind : p.isChamfer = false) :
    (j.stopAtShelf shelf p).z = if j.shelfLimit < p.diameter then shelf else p.z := by
  unfold stopAtShelf
  by_cases h : j.shelfLimit < p.diameter <;> simp [hkind, h]

theorem shelfLimit_eq (hstandard : j.constants = .standard) :
    j.shelfLimit = max (j.part.bore - 0.625) 2.3 := by
  rw [shelfLimit, Scalar.larger_rat, hstandard]
  rfl

/-- A plain pass goes to the drill depth. -/
theorem z_of_mem_plainPasses (hdrill : IsPlaced j.depths.drill) (h : j.plainPasses = .ok passes)
    {p : Pass Rat} (hp : p ∈ passes) (hkind : p.isChamfer = false) : p.z = j.depths.drill := by
  obtain ⟨-, -, opened, hopened, rfl⟩ := Boring.plan_eq_ok h
  rcases List.mem_cons.1 hp with rfl | hp
  · exact hdrill.round4
  · rw [Boring.z_of_mem_opening hopened hp hkind, hdrill.round4]

/-- The last plain pass has the diameter of the bore. -/
theorem exists_mem_plainPasses (h : j.plainPasses = .ok passes) :
    ∃ p ∈ passes, p.isChamfer = false ∧ p.diameter = Scalar.round4 j.part.bore := by
  obtain ⟨-, -, opened, hopened, rfl⟩ := Boring.plan_eq_ok h
  have hlast := List.mem_of_getLast? (Boring.getLast?_opening hopened)
  exact ⟨_, List.mem_cons_of_mem _ hlast, rfl, rfl⟩

theorem isPlaced_of_mem_plainPasses (h : j.plainPasses = .ok passes) {p : Pass Rat}
    (hp : p ∈ passes) : IsPlaced p.diameter := by
  obtain ⟨-, -, opened, hopened, rfl⟩ := Boring.plan_eq_ok h
  rcases List.mem_cons.1 hp with rfl | hp
  · exact isPlaced_round4 _
  · exact Boring.isPlaced_of_mem_opening hopened hp

theorem fullDepthDiameter_eq_ok {start : Rat} (h : fullDepthDiameter shelf passes = .ok start) :
    (∃ p ∈ passes, p.isChamfer = false ∧ p.z < shelf ∧ p.diameter = start) ∧
      ∀ p ∈ passes, p.isChamfer = false → p.z < shelf → p.diameter ≤ start := by
  unfold fullDepthDiameter at h
  split at h
  · next hgreatest =>
    cases h
    obtain ⟨hmem, hmax⟩ := Scalar.of_greatest? hgreatest
    simp only [List.mem_map, List.mem_filter, Bool.and_eq_true, Bool.not_eq_true',
      decide_eq_true_eq, forall_exists_index, and_imp] at hmem hmax
    obtain ⟨p, ⟨hp, hkind, hz⟩, hdiameter⟩ := hmem
    exact ⟨⟨p, hp, hkind, hz, hdiameter⟩, fun p hp hkind hz => hmax _ p hp hkind hz rfl⟩
  · cases h

end Job

/-! ## Both sides -/

/-- How the two sides of a thin lip open its bore.  The passes of the first side go through or stop at
the shelf; those of the second side go on from the widest that went through. -/
structure Job.MeetsAtShelf (j : Job Rat) (shelf start : Rat) (passes cleanup : List (Pass Rat)) :
    Prop where
  height : ∀ p ∈ passes, p.isChamfer = false →
    p.z = if max (j.part.bore - 0.625) 2.3 < p.diameter then shelf else j.depths.drill
  above_shoulder : -shelf < j.part.thickness.inches
  reaches : ∃ p ∈ passes, p.isChamfer = false ∧ |p.diameter - j.part.bore| ≤ 0.00005 ∧ p.z ≤ shelf
  start_through : ∃ p ∈ passes, p.isChamfer = false ∧ p.z = j.depths.drill ∧ p.diameter = start
  start_widest : ∀ p ∈ passes, p.isChamfer = false → p.z = j.depths.drill → p.diameter ≤ start
  widens : Widens 0.305 start (Pass.diameters cleanup)
  finish : ∃ d, (Pass.diameters cleanup).getLast? = some d ∧ |d - j.part.bore| ≤ 0.00005
  meet : ∀ p ∈ cleanup, p.isChamfer = false ∧ j.part.totalHeight ≤ -shelf + -p.z

namespace Job

variable {j : Job Rat} {hub : Hub Rat} {shelf start : Rat} {passes cleanup : List (Pass Rat)}

theorem edgeBreak_rat : (edgeBreak : Rat) = 0.05 := rfl

theorem hubHeight_of_thinLip (h : j.part.variant = .thinLip hub) :
    j.part.hubHeight = hub.height := by
  rw [Part.hubHeight, h]
  rfl

/-- The shelf lies above the drill depth by the height of the hub and its offset. -/
theorem abs_shelf_sub_le (hfit : j.FitsPart) (h : j.shelfZ hub = .ok shelf) :
    |shelf - (j.depths.drill + hub.height + 0.37)| ≤ 1 / 20000 := by
  have hoffset : j.constants.thinLipShelfOffset = 0.37 := by
    rw [hfit.constants]
    rfl
  rw [shelfZ_eq_ok h, hoffset]
  exact abs_round4_sub_le _

theorem drill_lt_shelf (hfit : j.FitsPart) (hheight : 0 ≤ hub.height)
    (h : j.shelfZ hub = .ok shelf) : j.depths.drill < shelf := by
  have hnear := abs_shelf_sub_le hfit h
  rw [abs_le] at hnear
  norm_num at hnear
  linarith

/-- The drill goes through the body by less than the shelf is set off. -/
theorem shelf_above_shoulder (hfit : j.FitsPart) (hvariant : j.part.variant = .thinLip hub)
    (h : j.shelfZ hub = .ok shelf) : -shelf < j.part.thickness.inches := by
  have hnear := abs_shelf_sub_le hfit h
  have hthrough := hfit.through
  rw [Part.totalHeight, hubHeight_of_thinLip hvariant, abs_le] at hthrough
  rw [abs_le] at hnear
  norm_num at hnear hthrough
  linarith

/-- The second side cuts as deep as the part is high under the shelf, and half an edge break more. -/
theorem le_cleanup_depth {total : Rat} :
    total ≤ -shelf + Scalar.round4 (total + shelf + edgeBreak) := by
  have hnear := abs_round4_sub_le (total + shelf + edgeBreak)
  rw [edgeBreak_rat, abs_le] at hnear
  rw [edgeBreak_rat]
  norm_num at hnear ⊢
  linarith

/-! ### The first side -/

theorem exists_plainPasses (hshelf : j.shelfZ hub = .ok shelf)
    (h : j.thinLipPasses hub = .ok passes) :
    ∃ plain, j.plainPasses = .ok plain ∧ passes = plain.map (j.stopAtShelf shelf) := by
  obtain ⟨shelf', plain, hshelf', hplain, hpasses⟩ := thinLipPasses_eq_ok h
  obtain rfl : shelf' = shelf := Except.ok.inj (hshelf'.symm.trans hshelf)
  exact ⟨plain, hplain, hpasses⟩

theorem z_of_mem_thinLipPasses (hfit : j.FitsPart) (hshelf : j.shelfZ hub = .ok shelf)
    (h : j.thinLipPasses hub = .ok passes) {p : Pass Rat} (hp : p ∈ passes)
    (hkind : p.isChamfer = false) :
    p.z = if max (j.part.bore - 0.625) 2.3 < p.diameter then shelf else j.depths.drill := by
  obtain ⟨plain, hplain, rfl⟩ := exists_plainPasses hshelf h
  obtain ⟨q, hq, rfl⟩ := List.mem_map.1 hp
  rw [isChamfer_stopAtShelf] at hkind
  rw [z_stopAtShelf hkind, diameter_stopAtShelf, z_of_mem_plainPasses hfit.placed hplain hq hkind,
    shelfLimit_eq hfit.constants]

/-- Below the shelf there is only the drill depth. -/
theorem lt_shelf_iff (hfit : j.FitsPart) (hheight : 0 ≤ hub.height)
    (hshelf : j.shelfZ hub = .ok shelf) (h : j.thinLipPasses hub = .ok passes) {p : Pass Rat}
    (hp : p ∈ passes) (hkind : p.isChamfer = false) : p.z < shelf ↔ p.z = j.depths.drill := by
  have hdeeper := drill_lt_shelf hfit hheight hshelf
  rw [z_of_mem_thinLipPasses hfit hshelf h hp hkind]
  split
  · exact iff_of_false (lt_irrefl _) hdeeper.ne'
  · exact iff_of_true hdeeper rfl

theorem isPlaced_of_mem_thinLipPasses (hshelf : j.shelfZ hub = .ok shelf)
    (h : j.thinLipPasses hub = .ok passes) {p : Pass Rat} (hp : p ∈ passes) :
    IsPlaced p.diameter := by
  obtain ⟨plain, hplain, rfl⟩ := exists_plainPasses hshelf h
  obtain ⟨q, hq, rfl⟩ := List.mem_map.1 hp
  rw [diameter_stopAtShelf]
  exact isPlaced_of_mem_plainPasses hplain hq

/-- The bore is opened to its diameter as deep as the shelf. -/
theorem exists_mem_thinLipPasses (hfit : j.FitsPart) (hheight : 0 ≤ hub.height)
    (hshelf : j.shelfZ hub = .ok shelf) (h : j.thinLipPasses hub = .ok passes) :
    ∃ p ∈ passes, p.isChamfer = false ∧ |p.diameter - j.part.bore| ≤ 0.00005 ∧ p.z ≤ shelf := by
  obtain ⟨plain, hplain, hpasses⟩ := exists_plainPasses hshelf h
  obtain ⟨q, hq, hkind, hdiameter⟩ := exists_mem_plainPasses hplain
  have hp : j.stopAtShelf shelf q ∈ passes := hpasses ▸ List.mem_map_of_mem hq
  have hkind : (j.stopAtShelf shelf q).isChamfer = false := by rwa [isChamfer_stopAtShelf]
  refine ⟨_, hp, hkind, ?_, ?_⟩
  · rw [diameter_stopAtShelf, hdiameter]
    norm_num
    exact abs_round4_sub_le _
  · rw [z_of_mem_thinLipPasses hfit hshelf h hp hkind]
    split
    · exact le_rfl
    · exact (drill_lt_shelf hfit hheight hshelf).le

/-! ### The second side -/

/-- The second side widens the bore from where it is to its diameter, without a chamfer. -/
theorem of_continuation (hstandard : j.constants = .standard) (hstart : IsPlaced start) {z : Rat}
    (h : Boring.continuation j.constants start j.part.bore z false = .ok cleanup) :
    Widens 0.305 start (Pass.diameters cleanup) ∧
      (∃ d, (Pass.diameters cleanup).getLast? = some d ∧ |d - j.part.bore| ≤ 0.00005) ∧
      ∀ p ∈ cleanup, p.isChamfer = false ∧ p.z = Scalar.round4 z := by
  rw [hstandard] at h
  obtain ⟨hwider, -, hopening⟩ := Boring.continuation_eq_ok h
  have hzone := (Boring.opens_standard hwider.le).zone hopening
  obtain ⟨ds, -, hdiameters⟩ := Boring.diameters_opening hopening
  refine ⟨?_, ⟨Scalar.round4 j.part.bore, ?_, ?_⟩, fun p hp => ?_⟩
  · have hwidens := hzone.widens
    rw [hstart.round4, Boring.standard_eq.1] at hwidens
    exact hwidens.mono (by norm_num)
  · rw [hdiameters, List.getLast?_concat]
  · norm_num
    exact abs_round4_sub_le _
  · have hkind : p.isChamfer = false := by
      by_contra hchamfer
      have hedge := hzone.edge.1 ⟨p, hp, by simpa using hchamfer⟩
      cases hedge
    exact ⟨hkind, hzone.height p hp hkind⟩

/-- What is planned for both sides of a thin lip meets at the shelf. -/
theorem meetsAtShelf (hfit : j.FitsPart) (hvariant : j.part.variant = .thinLip hub)
    (hshelf : j.shelfZ hub = .ok shelf) (hpasses : j.thinLipPasses hub = .ok passes)
    (hstart : fullDepthDiameter shelf passes = .ok start)
    (hcleanup : Boring.continuation j.constants start j.part.bore
      (-Scalar.round4 (j.part.totalHeight + shelf + edgeBreak)) false = .ok cleanup) :
    j.MeetsAtShelf shelf start passes cleanup := by
  have hheight : 0 ≤ hub.height := hubHeight_of_thinLip hvariant ▸ hfit.hub
  have hbelow {p : Pass Rat} (hp : p ∈ passes) (hkind : p.isChamfer = false) :=
    lt_shelf_iff hfit hheight hshelf hpasses hp hkind
  obtain ⟨⟨p, hp, hkind, hthrough, hdiameter⟩, hwidest⟩ := fullDepthDiameter_eq_ok hstart
  have hplaced : IsPlaced start := hdiameter ▸ isPlaced_of_mem_thinLipPasses hshelf hpasses hp
  obtain ⟨hwidens, hfinish, hcuts⟩ := of_continuation hfit.constants hplaced hcleanup
  exact {
    height := fun p hp hkind => z_of_mem_thinLipPasses hfit hshelf hpasses hp hkind
    above_shoulder := shelf_above_shoulder hfit hvariant hshelf
    reaches := exists_mem_thinLipPasses hfit hheight hshelf hpasses
    start_through := ⟨p, hp, hkind, (hbelow hp hkind).1 hthrough, hdiameter⟩
    start_widest := fun p hp hkind hdepth => hwidest p hp hkind ((hbelow hp hkind).2 hdepth)
    widens := hwidens
    finish := hfinish
    meet := fun p hp => by
      obtain ⟨hkind, hz⟩ := hcuts p hp
      rw [hz, (isPlaced_round4 _).neg.round4, neg_neg]
      exact ⟨hkind, le_cleanup_depth⟩ }

end Job

/-- With the constants of the shop, the two sides of a thin lip that was built from an order meet at its
shelf. -/
theorem Program.meets_at_shelf {o : Order Rat} {part : Part Rat} (hpart : o.build .standard = .ok part)
    {hub : Hub Rat} (hthin : part.variant = .thinLip hub) (lathes : Lathes Rat)
    (templates : Templates Rat) {p : Program Rat}
    (h : build lathes .standard templates part = .ok p) :
    ∃ (lathe : Lathe Rat) (j : Job Rat) (settings : CutSettings Rat) (shelf start : Rat)
        (passes cleanup : List (Pass Rat)),
      Job.resolve part lathe .standard templates = .ok j ∧ j.part = part ∧
        j.shelfZ hub = .ok shelf ∧
        p.section? .op1Drill = some j.drillSection ∧
        p.section? .op1Bore = some (j.boreSection passes) ∧
        p.section? .op2Chamfer = some {
          kind := .op2Chamfer
          blocks := j.toolRun j.lathe.tools.bore "SHELF CLEANUP" settings .op2
              (Job.boringMoves j.clearance settings.feeds none cleanup) ++ j.boreChamferRun } ∧
        j.MeetsAtShelf shelf start passes cleanup := by
  obtain ⟨lathe, j, hcheck, -, hj, hp⟩ := of_build h
  obtain ⟨hjpart, -⟩ := Job.asked_of_resolve hj
  have hvariant : j.part.variant = .thinLip hub := hjpart ▸ hthin
  obtain ⟨drilling, hdrilling, hdrillSection⟩ := section?_eq hp .op1Drill
  obtain ⟨boring, hboring, hboreSection⟩ := section?_eq hp .op1Bore
  obtain ⟨chamfer, hchamfer, hchamferSection⟩ := section?_eq hp .op2Chamfer
  cases hdrilling
  simp only [Job.sectionOf, Job.borePasses, hvariant] at hboring
  obtain ⟨passes, hpasses, rfl⟩ := map_eq_ok.1 hboring
  simp only [Job.sectionOf, Job.op2ChamferSection, hvariant] at hchamfer
  obtain ⟨shelf, passes', start, cleanup, hshelf, hpasses', hstart, hcleanup, rfl⟩ :=
    Job.of_shelfCleanupSection hchamfer
  obtain rfl : passes' = passes := Except.ok.inj (hpasses'.symm.trans hpasses)
  exact ⟨lathe, j, _, shelf, start, passes', cleanup, hj, hjpart, hshelf, hdrillSection, hboreSection,
    hchamferSection,
    Job.meetsAtShelf (Job.fitsPart hpart hcheck hj) hvariant hshelf hpasses hstart hcleanup⟩

/-- An order whose lip is thin enough for a shelf. -/
def Order.thinLipSample : Order Rat := {
  programNumber := some 7, title := some "THIN LIP", round := some 5.75, thickness := some "15MM"
  boreMm := some 74, lathe := some "L1", fitted := true, kind := some .hubCentric
  hubMm := some 78, hubHeight := some 0.5 }

theorem Program.meets_at_shelf_thinLip :
    ∃ part hub p, Order.thinLipSample.build .standard = .ok part ∧ part.variant = .thinLip hub ∧
      build .standard .standard (fun _ => none) part = .ok p ∧
      ∃ (lathe : Lathe Rat) (j : Job Rat) (settings : CutSettings Rat) (shelf start : Rat)
          (passes cleanup : List (Pass Rat)),
        Job.resolve part lathe .standard (fun _ => none) = .ok j ∧ j.part = part ∧
          j.shelfZ hub = .ok shelf ∧
          p.section? .op1Drill = some j.drillSection ∧
          p.section? .op1Bore = some (j.boreSection passes) ∧
          p.section? .op2Chamfer = some {
            kind := .op2Chamfer
            blocks := j.toolRun j.lathe.tools.bore "SHELF CLEANUP" settings .op2
                (Job.boringMoves j.clearance settings.feeds none cleanup) ++ j.boreChamferRun } ∧
          j.MeetsAtShelf shelf start passes cleanup := by
  let hub : Hub Rat :=
    { nominalMm := 78, fittedMm := 78 - 0.1, diameter := toInches (78 - 0.1), height := 0.5 }
  let part : Part Rat := {
    programNumber := 7, title := "THIN LIP", round := 5.75, thickness := .ofMillimetres 15
    boreMm := 74, fittedBoreMm := 74 + 0.1, bore := toInches (74 + 0.1), lathe := .l1, fitted := true
    feedMode := .proven, variant := .thinLip hub }
  have hpart : Order.thinLipSample.build .standard = .ok part := by decide +kernel
  have hbuilt : (build .standard .standard (fun _ => none) part).isOk = true := by decide +kernel
  obtain ⟨p, hp⟩ := exists_eq_ok hbuilt
  exact ⟨part, hub, p, hpart, rfl, hp, meets_at_shelf hpart rfl _ _ hp⟩

end SpacerTurning
