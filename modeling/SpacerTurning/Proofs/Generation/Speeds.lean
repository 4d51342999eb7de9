import SpacerTurning.Proofs.Cutting.Feeds
import SpacerTurning.Proofs.Generation.Work

/-!
Spindle speeds of a whole program.

A spindle block comes from the settings of its run, and those are held under what the lathe can do,
whether a template or a formula is where they come from.
-/

namespace SpacerTurning

/-- A spindle block asks for no more than the lathe can do. -/
def Block.TurnsWithin {α β : Type} (lathe : Lathe β) : Block α → Prop
  | .constantSurfaceSpeed maxRpm css => maxRpm ≤ lathe.maxRpm ∧ css ≤ lathe.maxCss
  | .fixedSpeed rpm => rpm ≤ lathe.maxRpm
  | _ => True

theorem Block.turnsWithin_of_isIdle {α β : Type} {lathe : Lathe β} {b : Block α}
    (h : b.isIdle = true) : b.TurnsWithin lathe := by
  cases b with
  | constantSurfaceSpeed | fixedSpeed => cases h
  | percent | programNumber | comment | toolChange | workOffset | coolantOn | coolantOff | motion
  | machineHome | programStop | optionalStop | programEnd => trivial

namespace Job

variable {α : Type} [Scalar α]

theorem within_settings (j : Job α) (op : Operation) (diameter depth : α) :
    (j.settings op diameter depth).spindle.Within j.lathe := by
  unfold settings
  cases j.templates { round := j.part.round, boreMm := j.part.boreMm, operation := op } with
  | none => exact CutSetup.within_finish (CutSetup.ofPart j.lathe j.part) _
  | some found => exact CutSetup.within_finish (CutSetup.ofPart j.lathe j.part) found

omit [Scalar α] in
theorem turnsWithin_spindleBlock {s : Spindle} {lathe : Lathe α} (h : s.Within lathe) :
    (spindleBlock s : Block α).TurnsWithin lathe := by
  unfold spindleBlock
  split
  · next css hcss => exact ⟨h.maxRpm, h.css css hcss⟩
  · exact h.rpm

omit [Scalar α] in
theorem turnsWithin_runBlocks {j : Job α} {r : Run α} (h : r.settings.spindle.Within j.lathe) :
    ∀ b ∈ j.runBlocks r, b.TurnsWithin j.lathe := by
  have hspindle : (spindleBlock r.settings.spindle : Block α).TurnsWithin j.lathe :=
    turnsWithin_spindleBlock h
  intro b hb
  simp only [runBlocks, toolRun, List.cons_append, List.nil_append, List.mem_cons, List.mem_append,
    List.mem_map, List.not_mem_nil, or_false] at hb
  rcases hb with rfl | rfl | rfl | rfl | ⟨m, -, rfl⟩ | rfl | rfl | rfl
  · trivial
  · exact hspindle
  all_goals trivial

theorem turnsWithin_sectionOf {j : Job α} {kind : SectionKind} {s : Section α}
    (h : j.sectionOf kind = .ok s) : ∀ b ∈ s.blocks, b.TurnsWithin j.lathe := by
  cases hside : kind.side? with
  | none =>
    intro b hb
    exact Block.turnsWithin_of_isIdle (isIdle_of_mem h (SectionKind.isIdle_of_side? hside) b hb)
  | some side =>
    obtain ⟨runs, -, hblocks, hruns⟩ := works_sectionOf h hside
    intro b hb
    rw [hblocks] at hb
    obtain ⟨r, hr, hb⟩ := List.mem_flatMap.1 hb
    obtain ⟨-, op, diameter, depth, hsettings⟩ := hruns r hr
    exact turnsWithin_runBlocks (hsettings ▸ j.within_settings op diameter depth) b hb

end Job

theorem Program.turnsWithin_of_build {α : Type} [Scalar α] {lathes : Lathes α}
    {constants : CuttingConstants α} {templates : Templates α} {part : Part α} {p : Program α}
    (h : build lathes constants templates part = .ok p) :
    ∃ lathe, lathes.get? part.lathe = some lathe ∧ ∀ b ∈ p.blocks, b.TurnsWithin lathe := by
  obtain ⟨lathe, j, -, hlathe, hj, hp⟩ := of_build h
  obtain ⟨-, hsame, -⟩ := Job.asked_of_resolve hj
  refine ⟨lathe, hlathe, fun b hb => ?_⟩
  obtain ⟨s, hs, hb⟩ := List.mem_flatMap.1 hb
  obtain ⟨kind, -, hkind⟩ := exists_sectionOf hp hs
  exact hsame ▸ Job.turnsWithin_sectionOf hkind b hb

/-- Whatever the templates ask for, a spindle block of a program asks for no more than the lathe of
the part can do; and a cut of a thin wall is no faster than the same cut of a thick one. -/
theorem Program.within_ceilings (lathes : Lathes Float) (constants : CuttingConstants Float)
    (templates : Templates Float) (part : Part Float) (p : Program Float)
    (h : build lathes constants templates part = .ok p) :
    (∃ lathe, lathes.get? part.lathe = some lathe ∧ ∀ b ∈ p.blocks, b.TurnsWithin lathe) ∧
      ∀ (s : CutSetup Float) (op : Operation) (diameter depth : Float),
        ({ s with thinLip := true }.settings op diameter depth).spindle.NoFaster
          ({ s with thinLip := false }.settings op diameter depth).spindle :=
  ⟨turnsWithin_of_build h, CutSetup.noFaster_settings⟩

/-- A part with a thin lip, in machine numbers. -/
def Part.thinWallSample : Part Float where
  programNumber := 7
  title := "5.75 THIN LIP"
  round := 5.75
  thickness := { key := "0.75", inches := 0.75 }
  boreMm := 74.0
  fittedBoreMm := 74.1
  bore := 2.9173
  lathe := .l1
  fitted := true
  feedMode := .proven
  variant := .thinLip { nominalMm := 78.0, fittedMm := 77.9, diameter := 3.0669, height := 0.5 }

/-- A source of templates that asks for more than any lathe of the shop can do. -/
def Templates.overspeed : Templates Float := fun _ =>
  some {
    spindle := { maxRpm := 9000, rpm := 8000, css := some 5000 }
    feeds := { rough := 0.01, finish := 0.005, chamfer := 0.004 } }

theorem Program.within_ceilings_overspeed :
    ∃ p lathe, build .standard .standard .overspeed Part.thinWallSample = .ok p ∧
      (Lathes.standard : Lathes Float).get? .l1 = some lathe ∧
        ∀ b ∈ p.blocks, b.TurnsWithin lathe := by
  have hbuilt : (build .standard .standard .overspeed Part.thinWallSample).isOk = true := by
    decide +kernel
  obtain ⟨p, hp⟩ := exists_eq_ok hbuilt
  obtain ⟨⟨lathe, hlathe, hblocks⟩, -⟩ := within_ceilings _ _ _ _ p hp
  exact ⟨p, lathe, hp, hlathe, hblocks⟩

end SpacerTurning
