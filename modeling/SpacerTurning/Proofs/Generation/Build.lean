import SpacerTurning.Generation.Build
import SpacerTurning.Proofs.Part.Refusal

/-!
What a program that was built is made of.

Building stops at the first refusal.  A program that comes out of it therefore had every step
succeed, and each step can be read off.
-/

namespace SpacerTurning

variable {α : Type} [Scalar α]

/-- A part that passes its check has a hub of some height, if it has one. -/
theorem Part.isLength_of_check {part : Part α} (h : part.check = .ok ()) {hub : Hub α}
    (hhub : part.variant.hub? = some hub) : isLength hub.height = true := by
  obtain ⟨-, -, -, -, -, hhubs, -⟩ := check_eq_ok.1 h
  exact (hhubs hub hhub).1

/-- A job holds what it was resolved from, and the drill goes through the hub. -/
theorem Job.of_resolve {part : Part α} {lathe : Lathe α} {constants : CuttingConstants α}
    {templates : Templates α} {j : Job α}
    (h : Job.resolve part lathe constants templates = .ok j) :
    ∃ found source, Depths.lookup part.thickness.key (some part.thickness.inches)
        constants.drillBreakthrough = .ok (found, source) ∧
      WorkOffsets.get? part.lathe part.thickness.key = some j.offsets ∧
      j = { part, lathe, constants, offsets := j.offsets, templates
            depths := { found with drill := Scalar.round4 (found.drill - part.hubHeight) } } := by
  simp only [Job.resolve, bind_eq_ok] at h
  obtain ⟨⟨found, source⟩, hlookup, offsets, hoffsets, h⟩ := h
  cases h
  refine ⟨found, source, hlookup, ?_, rfl⟩
  unfold WorkOffsets.find at hoffsets
  split at hoffsets
  · cases hoffsets
    assumption
  · cases hoffsets

/-- What was not looked up for a job is what it was asked for. -/
theorem Job.asked_of_resolve {part : Part α} {lathe : Lathe α} {constants : CuttingConstants α}
    {templates : Templates α} {j : Job α}
    (h : Job.resolve part lathe constants templates = .ok j) :
    j.part = part ∧ j.lathe = lathe ∧ j.constants = constants ∧ j.templates = templates := by
  obtain ⟨found, source, -, -, hj⟩ := of_resolve h
  rw [hj]
  exact ⟨rfl, rfl, rfl, rfl⟩

/-- A part of any kind has a section of every kind. -/
theorem SpacerKind.mem_sectionOrder (kind : SpacerKind) (s : SectionKind) :
    s ∈ kind.sectionOrder := by
  cases kind <;> cases s <;> decide

/-- Sections that were made of kinds are made one by one. -/
theorem Job.exists_kind_of_map_eq {j : Job α} {kinds : List SectionKind}
    {sections : List (Section α)} (h : sections.map .ok = kinds.map j.sectionOf) {s : Section α}
    (hs : s ∈ sections) : ∃ kind ∈ kinds, j.sectionOf kind = .ok s := by
  have hmem : (.ok s : Except (Refusal α) (Section α)) ∈ sections.map .ok :=
    List.mem_map.2 ⟨s, hs, rfl⟩
  rw [h] at hmem
  exact List.mem_map.1 hmem

/-! ## Sections of the second side -/

namespace Job

variable {j : Job α} {s : Section α}

/-- The moves of a boring bar are those of its passes. -/
theorem exists_pass_of_mem_boringMoves {clearance : α} {feeds : FeedRates α}
    {mark : Option (α × DiameterMarker)} {passes : List (Pass α)} {m : Motion α}
    (hm : m ∈ boringMoves clearance feeds mark passes) :
    ∃ first, ∃ pass ∈ passes, m ∈ passMoves clearance feeds mark first pass := by
  cases passes with
  | nil => cases hm
  | cons pass rest =>
    rcases List.mem_append.1 hm with hm | hm
    · exact ⟨true, pass, List.mem_cons_self, hm⟩
    · obtain ⟨pass', hpass', hm⟩ := List.mem_flatMap.1 hm
      exact ⟨false, pass', List.mem_cons_of_mem _ hpass', hm⟩

/-- The boring bar at work on the second side. -/
def reboreRun (j : Job α) (comment : String) (diameter depth : α) (passes : List (Pass α)) :
    List (Block α) :=
  j.toolRun j.lathe.tools.bore comment (j.settings .bore diameter depth) .op2
    (boringMoves j.clearance (j.settings .bore diameter depth).feeds none passes)

/-- All the moves around a hub: over its face, down its levels and along its wall. -/
def hubMoves (j : Job α) (feeds : FeedRates α) (hub : Hub α) (increment : α) : List (Motion α) :=
  [.rapidXZ j.outsideStock j.clearance, .feedZ feeds.finish 0.0, .feedX feeds.rough j.insideBore,
      .rapidZ j.clearance]
    ++ j.hubRoughMoves feeds hub increment ++ j.hubFinishMoves feeds hub

theorem of_hubSection {hub : Hub α} {increment : α} {comment : String}
    (h : j.hubSection hub increment comment = .ok s) :
    s = {
      kind := .op2Turn
      blocks := j.toolRun j.lathe.tools.turn comment (j.settings .turnOp2 hub.diameter hub.height)
        .op2 (j.hubMoves (j.settings .turnOp2 hub.diameter hub.height).feeds hub increment) } := by
  simp only [hubSection, bind_eq_ok] at h
  obtain ⟨_, -, h⟩ := h
  exact (Except.ok.inj h).symm

/-- What the turning tool is taken up for where there is a hub. -/
def hubWork : List String := ["TURN HUB", "TURN HUB THIN LIP", "TURN STUD"]

/-- The second side is turned around the hub of the part, or faced if the part has none. -/
theorem of_op2TurnSection (h : j.op2TurnSection = .ok s) :
    (∃ hub increment comment, j.part.variant.hub? = some hub ∧ comment ∈ hubWork ∧
        j.hubSection hub increment comment = .ok s) ∨
      j.part.variant.hub? = none ∧ s = j.op2FaceSection := by
  unfold op2TurnSection at h
  cases hvariant : j.part.variant <;> rw [hvariant] at h
  case hubCentric hub => exact .inl ⟨hub, _, _, rfl, by decide, h⟩
  case thinLip hub => exact .inl ⟨hub, _, _, rfl, by decide, h⟩
  case twoPieceStud hub => exact .inl ⟨hub, _, _, rfl, by decide, h⟩
  all_goals exact .inr ⟨rfl, (Except.ok.inj h).symm⟩

theorem of_shelfCleanupSection {hub : Hub α} (h : j.shelfCleanupSection hub = .ok s) :
    ∃ shelf passes start cleanup, j.shelfZ hub = .ok shelf ∧ j.thinLipPasses hub = .ok passes ∧
      fullDepthDiameter shelf passes = .ok start ∧
      Boring.continuation j.constants start j.part.bore
        (-Scalar.round4 (j.part.totalHeight + shelf + edgeBreak)) false = .ok cleanup ∧
      s = {
        kind := .op2Chamfer
        blocks := j.reboreRun "SHELF CLEANUP" j.part.bore
            (-Scalar.round4 (j.part.totalHeight + shelf + edgeBreak)) cleanup
          ++ j.boreChamferRun } := by
  simp only [shelfCleanupSection, bind_eq_ok] at h
  obtain ⟨shelf, hshelf, passes, hpasses, start, hstart, cleanup, hcleanup, h⟩ := h
  exact ⟨shelf, passes, start, cleanup, hshelf, hpasses, hstart, hcleanup, (Except.ok.inj h).symm⟩

theorem of_ringPocketSection (h : j.ringPocketSection = .ok s) :
    ¬ j.constants.ringPocketDepth ≥ j.part.totalHeight ∧ ∃ passes,
      Boring.continuation j.constants j.part.bore
        (Scalar.round4 (j.part.bore + j.constants.steelRingStepInset))
        (-j.constants.ringPocketDepth) false = .ok passes ∧
      s = {
        kind := .op2Chamfer
        blocks := j.reboreRun "RING POCKET"
          (Scalar.round4 (j.part.bore + j.constants.steelRingStepInset))
          j.constants.ringPocketDepth passes } := by
  simp only [ringPocketSection, bind_eq_ok, demand_eq_ok] at h
  obtain ⟨_, hheight, passes, hpasses, h⟩ := h
  exact ⟨by simpa using hheight, passes, hpasses, (Except.ok.inj h).symm⟩

/-- Behind the turning of the second side a shelf is taken out, or a pocket is bored, or there is
only the edge of the bore to break. -/
theorem of_op2ChamferSection (h : j.op2ChamferSection = .ok s) :
    s.kind = .op2Chamfer ∧
      ((∃ diameter depth passes,
          s.blocks = j.reboreRun "SHELF CLEANUP" diameter depth passes ++ j.boreChamferRun) ∨
        (∃ diameter depth passes, s.blocks = j.reboreRun "RING POCKET" diameter depth passes) ∨
        s.blocks = j.boreChamferRun) := by
  unfold op2ChamferSection at h
  split at h
  · obtain ⟨shelf, passes, start, cleanup, -, -, -, -, rfl⟩ := of_shelfCleanupSection h
    exact ⟨rfl, .inl ⟨_, _, _, rfl⟩⟩
  · obtain ⟨-, passes, -, rfl⟩ := of_ringPocketSection h
    exact ⟨rfl, .inr (.inl ⟨_, _, _, rfl⟩)⟩
  · cases h
    exact ⟨rfl, .inr (.inr rfl)⟩

end Job

/-! ## Programs -/

namespace Program

theorem of_build {lathes : Lathes α} {constants : CuttingConstants α} {templates : Templates α}
    {part : Part α} {p : Program α} (h : build lathes constants templates part = .ok p) :
    ∃ lathe j, part.check = .ok () ∧ lathes.get? part.lathe = some lathe ∧
      Job.resolve part lathe constants templates = .ok j ∧ ofJob j = .ok p := by
  simp only [build, bind_eq_ok] at h
  obtain ⟨_, hcheck, h⟩ := h
  split at h
  · cases h
  · next lathe hlathe =>
    simp only [bind_eq_ok] at h
    obtain ⟨j, hj, h⟩ := h
    exact ⟨lathe, j, hcheck, hlathe, hj, h⟩

theorem of_ofJob {j : Job α} {p : Program α} (h : ofJob j = .ok p) :
    j.part.kind.sectionOrder.map j.sectionOf = p.sections.map .ok ∧
      p.number = j.part.programNumber ∧ p.title = j.part.title := by
  simp only [ofJob, bind_eq_ok] at h
  obtain ⟨sections, hsections, h⟩ := h
  cases h
  exact ⟨mapM_eq_ok.1 hsections, rfl, rfl⟩

/-- Every section of a program is the one that its job has for some kind. -/
theorem exists_sectionOf {j : Job α} {p : Program α} (h : ofJob j = .ok p) {s : Section α}
    (hs : s ∈ p.sections) : ∃ kind ∈ j.part.kind.sectionOrder, j.sectionOf kind = .ok s :=
  Job.exists_kind_of_map_eq (of_ofJob h).1.symm hs

end Program

end SpacerTurning
