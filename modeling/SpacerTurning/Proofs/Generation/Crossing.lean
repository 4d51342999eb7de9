import SpacerTurning.Proofs.Generation.Agreement

/-!
Rapid moves of a whole program.

Every tool run forgets where the tool before it stood, so that a program is clear as soon as each
run is clear from the moment at which its tool is taken up.  A rapid move then names no height but
the clearance height, and no diameter is crossed anywhere else.
-/

namespace SpacerTurning

section

variable {α : Type}

namespace Travel

variable {clearance : α} {t : Travel α} {a b : List (Block α)}

/-- Every move among the blocks is clear where it is made. -/
def ClearBlocks (clearance : α) : Travel α → List (Block α) → Prop
  | _, [] => True
  | t, b :: blocks =>
    (∀ m, b = .motion m → m.IsClear clearance t) ∧ ClearBlocks clearance (t.next b) blocks

theorem clearBlocks_append : ClearBlocks clearance t (a ++ b) ↔
    ClearBlocks clearance t a ∧ ClearBlocks clearance (a.foldl next t) b := by
  induction a generalizing t with
  | nil => simp [ClearBlocks]
  | cons block a ih =>
    rw [List.cons_append, ClearBlocks, ClearBlocks, ih, List.foldl_cons, and_assoc]

theorem clearBlocks_motions {moves : List (Motion α)} (h : Clear clearance t moves) :
    ClearBlocks clearance t (moves.map .motion) := by
  induction moves generalizing t with
  | nil => trivial
  | cons m moves ih =>
    refine ⟨?_, ih h.2⟩
    rintro _ ⟨⟩
    exact h.1

theorem clearBlocks_of_still (h : ∀ block ∈ a, ∀ m, block ≠ .motion m) :
    ClearBlocks clearance t a := by
  induction a generalizing t with
  | nil => trivial
  | cons block a ih =>
    refine ⟨?_, ih fun other hother => h other (List.mem_cons_of_mem block hother)⟩
    intro m hm
    exact absurd hm (h block List.mem_cons_self m)

/-- What is clear from anywhere can follow one another. -/
theorem clearBlocks_flatMap {β : Type} {f : β → List (Block α)} {bs : List β}
    (h : ∀ b ∈ bs, ∀ t, ClearBlocks clearance t (f b)) (t : Travel α) :
    ClearBlocks clearance t (bs.flatMap f) := by
  induction bs generalizing t with
  | nil => trivial
  | cons b bs ih =>
    rw [List.flatMap_cons, clearBlocks_append]
    exact ⟨h b List.mem_cons_self t, ih (fun c hc => h c (List.mem_cons_of_mem b hc)) _⟩

theorem ClearBlocks.isClear {m : Motion α} (h : ClearBlocks clearance {} (a ++ .motion m :: b)) :
    m.IsClear clearance (after a) :=
  (clearBlocks_append.1 h).2.1 m rfl

/-- Nothing is known of a tool that has not moved, if that was so before. -/
theorem z_foldl_of_fresh (ht : t.fresh = true → t.z = none) (blocks : List (Block α)) :
    (blocks.foldl next t).fresh = true → (blocks.foldl next t).z = none := by
  induction blocks generalizing t with
  | nil => exact ht
  | cons block blocks ih =>
    refine ih ?_
    cases block with
    | toolChange tool comment => exact fun _ => rfl
    | motion m => exact fun hfresh => by cases hfresh
    | percent | programNumber | comment | constantSurfaceSpeed | fixedSpeed | workOffset | coolantOn
    | coolantOff | machineHome | programStop | optionalStop | programEnd => exact ht

theorem z_after_of_fresh (h : (after a).fresh = true) : (after a).z = none :=
  z_foldl_of_fresh (fun hfresh => by cases hfresh) a h

end Travel

namespace Job

open Travel

/-- A run is clear wherever the tool before it stood. -/
theorem clearBlocks_runBlocks {j : Job α} {r : Run α} (h : Clear j.clearance takenUp r.moves)
    (t : Travel α) : ClearBlocks j.clearance t (j.runBlocks r) := by
  have hspindle : ∀ m, (spindleBlock r.settings.spindle : Block α) ≠ .motion m := by
    intro m
    unfold spindleBlock
    split <;> simp
  have hnext (t : Travel α) : t.next (spindleBlock r.settings.spindle) = t := by
    unfold spindleBlock
    split <;> rfl
  have hstart : ClearBlocks j.clearance t [.toolChange r.tool r.comment,
      spindleBlock r.settings.spindle, .workOffset (j.offsets.side r.side), .coolantOn] :=
    clearBlocks_of_still (by simpa using fun m => (hspindle m))
  rw [runBlocks, toolRun, clearBlocks_append, clearBlocks_append]
  refine ⟨⟨hstart, ?_⟩, clearBlocks_of_still (by simp)⟩
  -- the spindle, the work offset and the coolant leave the tool where it was taken up
  have hplace : [.toolChange r.tool r.comment, spindleBlock r.settings.spindle,
      .workOffset (j.offsets.side r.side), .coolantOn].foldl next t = takenUp := by
    rw [List.foldl_cons, List.foldl_cons, hnext]
    rfl
  rw [hplace]
  exact clearBlocks_motions h

variable [Scalar α]

theorem clearBlocks_sectionOf {j : Job α} {kind : SectionKind} {s : Section α}
    (h : j.sectionOf kind = .ok s) (t : Travel α) : ClearBlocks j.clearance t s.blocks := by
  by_cases hkind : kind.isIdle = true
  · refine clearBlocks_of_still fun block hblock m hmotion => ?_
    have hidle := isIdle_of_mem h hkind block hblock
    rw [hmotion] at hidle
    cases hidle
  · obtain ⟨runs, -, hblocks, -, -, hclear⟩ := isRuns_sectionOf h (by simpa using hkind)
    rw [hblocks]
    exact clearBlocks_flatMap (fun r hr => clearBlocks_runBlocks (hclear r hr)) t

end Job

/-- The tool is above the face after a move, and before it as far as that is known. -/
def Travel.StaysAbove [Scalar α] (t : Travel α) (m : Motion α) : Prop :=
  (∀ z ∈ t.z, 0 < z) ∧ ∃ z, (t.move m).z = some z ∧ 0 < z

/-- With whatever constants, lathes and templates a program is built, a rapid move in it names no
height but the clearance height.  It names a diameter only as the first move of a tool, on the way
to the clearance height, or at that height; so it stays above the face if the clearance height does.
-/
theorem Program.rapid_at_clearance [Scalar α] {lathes : Lathes α} {constants : CuttingConstants α}
    {templates : Templates α} {part : Part α} {p : Program α}
    (h : build lathes constants templates part = .ok p) {before rest : List (Block α)}
    {m : Motion α} (hm : p.blocks = before ++ .motion m :: rest) (hrapid : m.mode = some .rapid) :
    (∀ z ∈ m.z, z = constants.clearanceZ) ∧
      (m.x.isSome = true →
        ((Travel.after before).fresh = true ∧ m.z = some constants.clearanceZ) ∨
          (Travel.after before).z = some constants.clearanceZ) ∧
      (0 < constants.clearanceZ → m.x.isSome = true → (Travel.after before).StaysAbove m) := by
  obtain ⟨lathe, j, -, -, hj, hp⟩ := of_build h
  obtain ⟨-, -, hconstants, -⟩ := Job.asked_of_resolve hj
  have hclearance : j.clearance = constants.clearanceZ := by rw [Job.clearance, hconstants]
  have hblocks : Travel.ClearBlocks j.clearance {} p.blocks := by
    refine Travel.clearBlocks_flatMap (fun s hs => ?_) {}
    obtain ⟨kind, -, hkind⟩ := exists_sectionOf hp hs
    exact Job.clearBlocks_sectionOf hkind
  rw [hm, hclearance] at hblocks
  obtain ⟨hheight, hcrossing⟩ := hblocks.isClear
  have hheight := hheight hrapid
  have hcrossing := hcrossing hrapid
  refine ⟨hheight, hcrossing, fun hpos hx => ?_⟩
  rcases hcrossing hx with ⟨hfresh, hz⟩ | hz
  · have hnone := Travel.z_after_of_fresh hfresh
    refine ⟨fun z hmem => ?_, constants.clearanceZ, ?_, hpos⟩
    · rw [hnone] at hmem
      cases hmem
    · rw [Travel.move, hz]
      rfl
  · refine ⟨fun z hmem => ?_, constants.clearanceZ, ?_, hpos⟩
    · rw [hz] at hmem
      rwa [← Option.some.inj hmem]
    · rw [Travel.move, hz]
      cases hzm : m.z with
      | none => rfl
      | some z => rw [hheight z hzm]; rfl

end

/-- The second boring pass of a thin lip crosses to its diameter at the clearance height. -/
theorem Program.rapid_at_clearance_thinLip :
    ∃ (p : Program Rat) (before rest : List (Block Rat)) (m : Motion Rat),
      build .standard .standard (fun _ => none) Part.thinLipSample = .ok p ∧
        p.blocks = before ++ .motion m :: rest ∧ m.mode = some .rapid ∧ m.x = some 2.6 ∧
        (∀ z ∈ m.z, z = (CuttingConstants.standard : CuttingConstants Rat).clearanceZ) ∧
        (((Travel.after before).fresh = true ∧
            m.z = some (CuttingConstants.standard : CuttingConstants Rat).clearanceZ) ∨
          (Travel.after before).z
            = some (CuttingConstants.standard : CuttingConstants Rat).clearanceZ) ∧
        (Travel.after before).StaysAbove m := by
  have hpass : (build .standard .standard (fun _ => none) Part.thinLipSample).toOption.bind
      (·.blocks[22]?) = some (.motion (.rapidX 2.6)) := by
    decide +kernel
  cases hbuilt : build .standard .standard (fun _ => none) Part.thinLipSample with
  | error refusal =>
    rw [hbuilt] at hpass
    cases hpass
  | ok p =>
    rw [hbuilt] at hpass
    obtain ⟨hindex, hblock⟩ := List.getElem?_eq_some_iff.1 (show p.blocks[22]? = _ from hpass)
    have hsplit : p.blocks = p.blocks.take 22 ++ .motion (.rapidX 2.6) :: p.blocks.drop 23 := by
      rw [← hblock, List.getElem_cons_drop, List.take_append_drop]
    obtain ⟨hheight, hcrossing, habove⟩ := rapid_at_clearance hbuilt hsplit rfl
    exact ⟨p, _, _, _, rfl, hsplit, rfl, rfl, hheight, hcrossing rfl,
      habove (by decide +kernel) rfl⟩

end SpacerTurning
