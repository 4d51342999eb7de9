import SpacerTurning.Check.Report
import SpacerTurning.Proofs.Generation.Made
import SpacerTurning.Proofs.Generation.Marks

/-!
Reading a program back.

What is found in the text of a program is what its blocks have.  The title may say that it is a mark: it
stands where no diameter is known yet, and so marks none.  The diameters that are marked are those of
the finished bore and of the hub, each as near as a word can say it.
-/

namespace SpacerTurning

open Number Exact

/-! ## What a program marks -/

namespace Job

variable {j : Job Rat}

theorem of_mem_marks_op1Bore {found : DiameterMarker × Option Rat} (h : found ∈ j.marks .op1Bore) :
    ∃ d, found = (.centerBore, some d) := by
  obtain ⟨pass, -, hpass⟩ := List.mem_filterMap.1 h
  exact ⟨_, Pass.mark?_eq_some hpass⟩

theorem of_mem_marks_op2Turn {found : DiameterMarker × Option Rat} (h : found ∈ j.marks .op2Turn) :
    ∃ hub ∈ j.part.variant.hub?, found = (.outerBore, some hub.diameter) := by
  rw [marks, Option.mem_toList, Option.map_eq_some_iff] at h
  obtain ⟨hub, hhub, rfl⟩ := h
  exact ⟨hub, hhub, rfl⟩

end Job

theorem Block.marked?_eq (marker : DiameterMarker) (b : Block Rat) :
    b.marked? marker = b.mark?.bind fun found =>
      if found.1 = marker then found.2.map Scalar.round4 else none := by
  cases b with
  | motion m =>
    simp only [marked?, mark?, Motion.mark?]
    cases m.marker <;> simp
  | percent | programNumber _ _ | comment _ | toolChange _ _ | constantSurfaceSpeed _ _
  | fixedSpeed _ | workOffset _ | coolantOn | coolantOff | machineHome _ _ | programStop _
  | optionalStop | programEnd => rfl

namespace Program

variable {j : Job Rat} {p : Program Rat}

theorem filterMap_marked? (h : ofJob j = .ok p) (marker : DiameterMarker) :
    p.blocks.filterMap (Block.marked? marker)
      = (j.marks .op1Bore ++ j.marks .op2Turn).filterMap fun found =>
          if found.1 = marker then found.2.map Scalar.round4 else none := by
  rw [← marks_eq h, List.filterMap_filterMap]
  exact List.filterMap_congr fun b _ => b.marked?_eq marker

theorem head?_centerBore (hstandard : j.constants = .standard) (h : ofJob j = .ok p) :
    (p.blocks.filterMap (Block.marked? .centerBore)).head? = some (Scalar.round4 j.part.bore) := by
  obtain ⟨s, hs, -⟩ := section?_eq h .op1Bore
  obtain ⟨passes, hpasses, -⟩ := map_eq_ok.1 hs
  obtain ⟨rest, hrest⟩ := Job.exists_marks_borePasses hstandard hpasses
  have hmarks : j.marks .op1Bore = (.centerBore, some (Scalar.round4 j.part.bore)) :: rest := by
    rw [Job.marks, hpasses]
    exact hrest
  rw [filterMap_marked? h, hmarks]
  simp [(isPlaced_round4 j.part.bore).round4]

theorem head?_outerBore (h : ofJob j = .ok p) :
    (p.blocks.filterMap (Block.marked? .outerBore)).head?
      = j.part.variant.hub?.map fun hub => Scalar.round4 hub.diameter := by
  have hbore : (j.marks .op1Bore).filterMap (fun found =>
      if found.1 = .outerBore then found.2.map Scalar.round4 else none) = ([] : List Rat) := by
    rw [List.filterMap_eq_nil_iff]
    intro found hfound
    obtain ⟨d, rfl⟩ := Job.of_mem_marks_op1Bore hfound
    rfl
  rw [filterMap_marked? h, List.filterMap_append, hbore, List.nil_append, Job.marks]
  cases j.part.variant.hub? <;> rfl

/-- Every block of a program is made by its job, and none behind the head says what somebody wrote. -/
theorem exists_blocks_eq_header (hfit : j.lathe.tools.Fit)
    (hoffsets : ∀ side, j.offsets.side side ≤ WorkOffsets.last) (h : ofJob j = .ok p) :
    ∃ rest, p.blocks = j.header.blocks ++ rest ∧ (∀ b ∈ rest, b.isHeading = false) ∧
      ∀ b ∈ p.blocks, b.IsMade := by
  have hmarks : ∀ m, .motion m ∈ p.blocks → m.marker.isSome = true → m.x.isSome = true := by
    intro m hm hmarker
    obtain ⟨marker, hmarker⟩ := Option.isSome_iff_exists.1 hmarker
    have hmem : (marker, m.x) ∈ p.blocks.filterMap Block.mark? :=
      List.mem_filterMap.2 ⟨_, hm, by simp [Block.mark?, Motion.mark?, hmarker]⟩
    rw [marks_eq h] at hmem
    rcases List.mem_append.1 hmem with hmem | hmem
    · obtain ⟨d, heq⟩ := Job.of_mem_marks_op1Bore hmem
      rw [(Prod.mk.inj heq).2]
      rfl
    · obtain ⟨hub, -, heq⟩ := Job.of_mem_marks_op2Turn hmem
      rw [(Prod.mk.inj heq).2]
      rfl
  have hmade {kind : SectionKind} {s : Section Rat} (hs : s ∈ p.sections)
      (hsection : j.sectionOf kind = .ok s) :
      ∀ b ∈ s.blocks, b.IsMade ∧ (kind ≠ .header → b.isHeading = false) :=
    Job.isMade_sectionOf hfit hoffsets hsection fun m hm =>
      hmarks m (List.mem_flatMap.2 ⟨s, hs, hm⟩)
  obtain ⟨kinds, hkinds, hheader⟩ : ∃ kinds,
      j.part.kind.sectionOrder = .header :: kinds ∧ .header ∉ kinds := by
    cases j.part.kind <;> exact ⟨_, rfl, by decide⟩
  have horder := (of_ofJob h).1
  rw [hkinds, List.map_cons] at horder
  obtain ⟨head, rest, hsections, hhead, hrest⟩ := List.map_eq_cons_iff.1 horder.symm
  cases hhead
  refine ⟨rest.flatMap (·.blocks), by rw [blocks, hsections]; rfl, fun b hb => ?_, fun b hb => ?_⟩
  · obtain ⟨s, hs, hb⟩ := List.mem_flatMap.1 hb
    have hmem : (.ok s : Except (Refusal Rat) (Section Rat)) ∈ kinds.map j.sectionOf := by
      rw [← hrest]
      exact List.mem_map.2 ⟨s, hs, rfl⟩
    obtain ⟨kind, hkind, hsection⟩ := List.mem_map.1 hmem
    refine (hmade (by rw [hsections]; exact List.mem_cons_of_mem _ hs) hsection b hb).2 ?_
    rintro rfl
    exact hheader hkind
  · obtain ⟨s, hs, hb⟩ := List.mem_flatMap.1 hb
    obtain ⟨kind, -, hsection⟩ := exists_sectionOf h hs
    exact (hmade hs hsection b hb).1

end Program

/-! ## What is found in the text -/

namespace Features

/-- Where no diameter is known, comments mark nothing. -/
theorem marks_still (mark : Mark) {lines : List (Line Rat)} (hlines : ∀ l ∈ lines, l.IsStill)
    {s : ModalState Rat} (hs : s.x = none) : (s.steps lines).findSome? (marked? mark) = none := by
  induction lines generalizing s with
  | nil => rfl
  | cons l lines ih =>
    have hstill := hlines l List.mem_cons_self
    have hnext := hstill.next s
    have hl : marked? mark ⟨l, s, s.next l⟩ = none := by
      simp [marked?, hstill.x, hnext, hs]
    rw [ModalState.steps, List.findSome?_cons, hl]
    exact ih (fun l' hl' => hlines l' (List.mem_cons_of_mem _ hl')) (by rw [hnext]; exact hs)

/-- The number and the title are those of the second line, behind the percent sign. -/
theorem identity_parseAll {number : Nat} (hnumber : number ≤ Scalar.codeLimit) (title : String)
    (rest : List String) :
    identity (Line.parseAll ("%" :: withComment (numberWord number) title :: rest) : List (Line Rat))
      = (some number, remark (commentBody title)) := by
  have hpercent : numberOf? (Line.parse 1 "%" : Line Rat) = none := by decide +kernel
  obtain ⟨tail, htail⟩ : ∃ tail, (withComment (numberWord number) title).toList = 'O' :: tail := by
    unfold withComment
    split <;> simp [numberWord]
  have hread := (List.forall₂_cons.1 (Block.programNumber number title).lineReads).1.reading
  have hline : numberOf? (Line.parse 2 (withComment (numberWord number) title) : Line Rat)
      = some (some number, remark (commentBody title)) := by
    have htrim := Text.trimStart_cons_of_not_blank (c := 'O') (by decide) tail
    rw [Line.parse_eq, hread]
    simp [numberOf?, isNumberLine, htail, htrim, hnumber]
  rw [Line.parseAll, Line.parseFrom, Line.parseFrom, identity, hpercent]
  simp only
  rw [identity, hline]

theorem checkMark_eq_none {mark : Mark} {d : MarkedDiameter Rat} {mm : Rat}
    (h : |d.diameter - toInches mm| ≤ 0.00005) :
    checkMark mark (some d) (some mm)
      (CheckingConstants.standard : CheckingConstants Rat).dimensionToleranceMm = none := by
  have hinch : (millimetresPerInch : Rat) = 25.4 := rfl
  have htolerance : (CheckingConstants.standard : CheckingConstants Rat).dimensionToleranceMm = 0.15 :=
    rfl
  have hnear : ¬ Scalar.magnitude (toMillimetres d.diameter - mm) > 0.15 := by
    rw [toInches, hinch, abs_le] at h
    rw [Scalar.magnitude_rat, toMillimetres, hinch, gt_iff_lt, not_lt, abs_le]
    norm_num at h ⊢
    constructor <;> linarith
  rw [checkMark, htolerance]
  exact if_neg hnear

end Features

namespace Program

variable {j : Job Rat} {p : Program Rat} {lines : List (Line Rat)}

/-- The first diameter that the lines of a program mark is the first that its blocks mark. -/
theorem findSome?_marked? {rest : List (Block Rat)} (hblocks : p.blocks = j.header.blocks ++ rest)
    (hheading : ∀ b ∈ rest, b.isHeading = false) (hmade : ∀ b ∈ p.blocks, b.IsMade)
    (hlines : Line.Spell lines p.blocks) (marker : DiameterMarker) :
    ((steps lines).findSome? (Features.marked? marker.mark)).map (·.diameter)
      = (p.blocks.filterMap (Block.marked? marker)).head? := by
  have hhead : ∀ b ∈ j.header.blocks, b.isStill = true ∧ b.marked? marker = none := by
    intro b hb
    simp only [Job.header, List.cons_append, List.nil_append, List.mem_cons, List.mem_append,
      Option.mem_toList, Option.map_eq_some_iff] at hb
    rcases hb with rfl | rfl | rfl | rfl | ⟨hub, -, rfl⟩ | ⟨shelf, -, rfl⟩ <;> exact ⟨rfl, rfl⟩
  rw [hblocks] at hlines
  obtain ⟨own, behind, rfl, hown, hbehind⟩ := hlines.append
  have hstill : ∀ l ∈ own, l.IsStill := by
    intro l hl
    obtain ⟨b, hb, hread⟩ := hown.mem hl
    exact Block.isStill_reading (hhead b hb).1 hread
  have hnone : j.header.blocks.filterMap (Block.marked? marker) = [] :=
    List.filterMap_eq_nil_iff.2 fun b hb => (hhead b hb).2
  have hrest := ModalState.filterMap_steps
    (f := fun st => (Features.marked? marker.mark st).map (·.diameter)) (g := Block.marked? marker)
    (fun b hb l hl s => Block.marked?_reading
      (hmade b (by rw [hblocks]; exact List.mem_append_right _ hb)) (hheading b hb) hl marker s)
    (fun b _ hb => by cases b <;> first | rfl | cases hb) hbehind (ModalState.afterLines {} own)
  -- Whatever the title says, the head is read before any diameter is known.
  rw [steps, ModalState.steps_append, List.findSome?_append,
    Features.marks_still marker.mark hstill rfl, Option.none_or, hblocks, List.filterMap_append, hnone,
    List.nil_append, ← hrest, List.head?_filterMap, List.map_findSome?]
  rfl

/-- What is found in the text of a program is what its part and its blocks say. -/
structure FoundIn (f : Features Rat) (part : Part Rat) (p : Program Rat) : Prop where
  number : f.programNumber = some part.programNumber
  tools : f.tools.map (fun use => (use.tool, use.comment)) = p.blocks.filterMap Block.toolUse?
  workOffsets : f.workOffsets = p.blocks.filterMap Block.workOffset?
  deepestZ : ∃ z, f.deepestZ = some z ∧
    IsLeast {z | ∃ s ∈ p.sections, ∃ m ∈ s.motions, m.z = some z} z
  centerBore : ∃ d, f.centerBore = some d ∧ |d.diameter - part.bore| ≤ 0.00005
  outerBore : Option.Rel (fun d hub => |d.diameter - hub.diameter| ≤ 0.00005) f.outerBore
    part.variant.hub?

theorem filterMap_z_blocks (p : Program Rat) (z : Rat) :
    z ∈ p.blocks.filterMap Block.z? ↔ ∃ s ∈ p.sections, ∃ m ∈ s.motions, m.z = some z := by
  have hmotions (b : Block Rat) : b.z? = some z ↔ ∃ m, b = .motion m ∧ m.z = some z := by
    cases b <;> simp [Block.z?]
  simp only [List.mem_filterMap, blocks, List.mem_flatMap, Section.motions, hmotions]
  constructor
  · rintro ⟨b, ⟨s, hs, hb⟩, m, rfl, hz⟩
    exact ⟨s, hs, m, ⟨_, hb, rfl⟩, hz⟩
  · rintro ⟨s, hs, m, ⟨b, hb, hm⟩, hz⟩
    cases b <;> cases hm
    exact ⟨_, ⟨s, hs, hb⟩, m, rfl, hz⟩

/-- What is found in lines that spell a program of a job and begin with its number. -/
theorem foundIn_ofLines (hfits : j.FitsPart) (hfit : j.lathe.tools.Fit)
    (hoffsets : ∀ side, j.offsets.side side ≤ WorkOffsets.last) (h : ofJob j = .ok p)
    (hlines : Line.Spell lines p.blocks)
    (hidentity : (Features.identity lines).1 = some j.part.programNumber) :
    FoundIn (Features.ofLines lines) j.part p := by
  obtain ⟨rest, hblocks, hheading, hmade⟩ := exists_blocks_eq_header hfit hoffsets h
  have hfind {β : Type} {f : Line Rat → Option β} {g : Block Rat → Option β}
      (hread : ∀ b ∈ p.blocks, ∀ l : Line Rat, l.reading ∈ b.readings → f l = g b)
      (hone : ∀ b, (g b).isSome = true → b.readings.length = 1) :
      lines.filterMap f = p.blocks.filterMap g := by
    rw [← ModalState.map_line_steps {} lines, List.filterMap_map]
    exact ModalState.filterMap_steps (fun b hb l hl _ => hread b hb l hl) (fun b _ => hone b) hlines {}
  have hheights : (steps lines).filterMap Features.height?
      = (p.blocks.filterMap Block.z?).map Scalar.round4 := by
    rw [List.map_filterMap]
    exact ModalState.filterMap_steps (fun b hb l hl s => Block.height?_reading (hmade b hb) hl s)
      (fun b _ hb => by cases b <;> first | rfl | cases hb) hlines {}
  have hmark := findSome?_marked? hblocks hheading hmade hlines
  refine ⟨hidentity, ?_, ?_, ?_, ?_, ?_⟩
  · show (lines.filterMap Features.toolUse?).map _ = _
    rw [List.map_filterMap]
    exact hfind (fun b hb l hl => Block.toolUse?_reading (hmade b hb) hl)
      fun b hb => by cases b <;> first | rfl | cases hb
  · exact hfind (fun b hb l hl => Block.workOffset?_reading (hmade b hb) hl)
      fun b hb => by cases b <;> first | rfl | cases hb
  · refine ⟨j.depths.drill, ?_, (p.filterMap_z_blocks _).1 (drill_mem h), fun z hz => ?_⟩
    · show Scalar.least? ((steps lines).filterMap Features.height?) = _
      rw [hheights, (least?_z hfits h).2]
    · exact drill_le_of_mem hfits h z ((p.filterMap_z_blocks z).2 hz)
  · have hcenter := hmark .centerBore
    rw [head?_centerBore hfits.constants h, Option.map_eq_some_iff] at hcenter
    obtain ⟨d, hd, hdiameter⟩ := hcenter
    refine ⟨d, hd, ?_⟩
    rw [hdiameter]
    norm_num
    exact abs_round4_sub_le _
  · have houter := hmark .outerBore
    rw [head?_outerBore h] at houter
    show Option.Rel _ ((steps lines).findSome? (Features.marked? .outerBore)) _
    rw [DiameterMarker.mark] at houter
    generalize (steps lines).findSome? (Features.marked? .outerBore) = found at houter ⊢
    cases hhub : j.part.variant.hub? with
    | none =>
      rw [hhub, Option.map_none, Option.map_eq_none_iff] at houter
      rw [houter]
      exact .none
    | some hub =>
      rw [hhub, Option.map_some, Option.map_eq_some_iff] at houter
      obtain ⟨d, rfl, hdiameter⟩ := houter
      refine .some ?_
      rw [hdiameter]
      norm_num
      exact abs_round4_sub_le _

/-- What is found in a program agrees with the dimensions that the part was built with. -/
theorem FoundIn.check_eq_nil {f : Features Rat} {o : Order Rat} {part : Part Rat}
    (h : FoundIn f part p) (hpart : o.build .standard = .ok part) :
    f.check (PartFacts.ofPart part).boreMm (PartFacts.ofPart part).hubMm
      (CheckingConstants.standard : CheckingConstants Rat).dimensionToleranceMm = [] := by
  obtain ⟨-, -, -, -, hbore, -⟩ := Order.of_build hpart
  obtain ⟨d, hd, hnear⟩ := h.centerBore
  have hcenter : Features.checkMark .centerBore (some d) (some part.fittedBoreMm)
      (CheckingConstants.standard : CheckingConstants Rat).dimensionToleranceMm = none :=
    Features.checkMark_eq_none (hbore ▸ hnear)
  have houter : Features.checkMark .outerBore f.outerBore (part.variant.hub?.map (·.fittedMm))
      (CheckingConstants.standard : CheckingConstants Rat).dimensionToleranceMm = none := by
    have hrel := h.outerBore
    cases hhub : part.variant.hub? with
    | none => rfl
    | some hub =>
      obtain ⟨-, -, hdiameter, -⟩ := Order.hub_of_build hpart hhub
      rw [hhub] at hrel
      generalize f.outerBore = found at hrel ⊢
      cases hrel with
      | some hnear => exact Features.checkMark_eq_none (hdiameter ▸ hnear)
  rw [Features.check, hd, PartFacts.ofPart, hcenter, houter]
  rfl

/-- With the constants of the shop, a program that was built from an order under a title of one line can
be read back. -/
theorem reads_back {o : Order Rat} {part : Part Rat} (hpart : o.build .standard = .ok part)
    (htitle : '\n' ∉ part.title.toList) {lathes : Lathes Rat}
    (hlathes : ∀ lathe ∈ lathes, lathe.tools.Fit) (templates : Templates Rat)
    (h : build lathes .standard templates part = .ok p) :
    FoundIn (Features.ofText p.text) part p ∧
      (Features.ofText p.text).check (PartFacts.ofPart part).boreMm (PartFacts.ofPart part).hubMm
        (CheckingConstants.standard : CheckingConstants Rat).dimensionToleranceMm = [] := by
  obtain ⟨lathe, j, hcheck, hlathe, hj, hp⟩ := of_build h
  obtain ⟨found, source, -, hoffsets, -⟩ := Job.of_resolve hj
  obtain ⟨hjpart, hjlathe, -⟩ := Job.asked_of_resolve hj
  have hnumber : part.programNumber ≤ Scalar.codeLimit :=
    (Order.programNumber_of_build hpart).trans (by decide)
  have hremarked := remarked hp (hjpart ▸ htitle) (hjpart ▸ (WorkOffsets.of_get? hoffsets).1)
  have hfit : j.lathe.tools.Fit := hjlathe ▸ hlathes lathe (List.mem_of_find?_eq_some hlathe)
  have hslots := WorkOffsets.side_le_last hoffsets
  have hidentity : (Features.identity (Line.parseText p.text : List (Line Rat))).1
      = some j.part.programNumber := by
    obtain ⟨rest, hblocks, -, -⟩ := exists_blocks_eq_header hfit hslots hp
    have hhead : p.lines = "%" :: withComment (numberWord j.part.programNumber) j.part.title
        :: (j.header.blocks.drop 2 ++ rest).flatMap Block.lines := by
      rw [lines, hblocks]
      rfl
    rw [Line.parseText, p.splitLines_text hremarked, hhead,
      Features.identity_parseAll (hjpart ▸ hnumber)]
  have hfound := foundIn_ofLines (Job.fitsPart hpart hcheck hj) hfit hslots hp
    (p.map_reading_parseText hremarked) hidentity
  rw [hjpart] at hfound
  exact ⟨hfound, hfound.check_eq_nil hpart⟩

end Program

/-- An order whose title looks like a mark. -/
def Order.hubSample : Order Rat := {
  programNumber := some 99999, title := some "X IS CB", round := some 5.75, thickness := some "15MM"
  boreMm := some 74, lathe := some "L1", fitted := true, kind := some .hubCentric
  hubMm := some 108, hubHeight := some 0.5 }

theorem Program.reads_back_hub :
    ∃ part p, Order.hubSample.build .standard = .ok part ∧ '\n' ∉ part.title.toList ∧
      (∀ lathe ∈ (Lathes.standard : Lathes Rat), lathe.tools.Fit) ∧
      build .standard .standard (fun _ => none) part = .ok p ∧
      FoundIn (Features.ofText p.text) part p ∧
      (Features.ofText p.text).check (PartFacts.ofPart part).boreMm (PartFacts.ofPart part).hubMm
        (CheckingConstants.standard : CheckingConstants Rat).dimensionToleranceMm = [] := by
  let hub : Hub Rat :=
    { nominalMm := 108, fittedMm := 108 - 0.1, diameter := toInches (108 - 0.1), height := 0.5 }
  let part : Part Rat := {
    programNumber := 99999, title := "X IS CB", round := 5.75, thickness := .ofMillimetres 15
    boreMm := 74, fittedBoreMm := 74 + 0.1, bore := toInches (74 + 0.1), lathe := .l1, fitted := true
    feedMode := .proven, variant := .hubCentric hub }
  have hpart : Order.hubSample.build .standard = .ok part := by decide +kernel
  have htitle : '\n' ∉ part.title.toList := by decide
  have hlathes : ∀ lathe ∈ (Lathes.standard : Lathes Rat), lathe.tools.Fit := by
    intro lathe hlathe
    simp only [Lathes.standard, List.mem_cons, List.not_mem_nil, or_false] at hlathe
    rcases hlathe with rfl | rfl | rfl <;> constructor <;> decide
  have hbuilt : (build .standard .standard (fun _ => none) part).isOk = true := by decide +kernel
  obtain ⟨p, hp⟩ := exists_eq_ok hbuilt
  exact ⟨part, p, hpart, htitle, hlathes, hp, reads_back hpart htitle hlathes _ hp⟩

end SpacerTurning
