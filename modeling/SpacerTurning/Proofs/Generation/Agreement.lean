import SpacerTurning.Proofs.Generation.BoreLines

/-!
Generated programs pass the checks.

A program that was built has only safe lines, so that no detector finds anything in it.  One section
of it opens the bore, and the lines of no other section take up a boring tool: the cuts of that one
section are the cuts of its passes, which begin at the entry and widen the bore step by step.
-/

namespace SpacerTurning

open Number

/-! ## The section that opens the bore -/

/-- A tool in the block is taken up for other work than opening the bore. -/
def Block.worksElse {α : Type} : Block α → Bool
  | .toolChange _ text => Job.otherWork.contains text
  | _ => true

theorem Block.takesBoreTool_reading {b : Block Rat} (hb : b.worksElse = true) {l : Line Rat}
    (hl : l.reading ∈ b.readings) : Bore.takesBoreTool l = false := by
  by_cases htool : ∃ tool text, b = .toolChange tool text
  · obtain ⟨tool, text, rfl⟩ := htool
    have hother : ∀ text ∈ Job.otherWork,
        let comment := Text.capitalize ((remark (commentBody text)).getD "").toList
        (holds "BORE".toList comment && !holds "CHAMFER".toList comment) = false := by
      decide +kernel
    have hcomment : l.comment = remark (commentBody text) :=
      congrArg Reading.comment (List.mem_singleton.1 hl)
    have hbore : Bore.isBoreTool l = false := by
      rw [Bore.isBoreTool, Line.commentCapitals, hcomment]
      exact hother text (by simpa [Block.worksElse] using hb)
    simp [Bore.takesBoreTool, hbore]
  · have hnone : l.tool? = none :=
      Block.tool?_reading (fun tool text h => htool ⟨tool, text, h⟩) hl
    simp [Bore.takesBoreTool, hnone]

theorem Block.boreTool_reading {tool : Nat} {l : Line Rat}
    (hl : l.reading ∈ Block.readings (.toolChange tool "BORE")) :
    l.tool? = some (min tool Scalar.codeLimit) ∧ Bore.isBoreTool l = true := by
  obtain ⟨number, raw, words, comment⟩ := l
  obtain ⟨rfl, rfl⟩ : _ ∧ _ := by simpa [Block.readings, Line.reading] using hl
  refine ⟨by simp [Line.tool?], ?_⟩
  have hremark : remark (commentBody "BORE") = some "BORE" := by decide
  rw [Bore.isBoreTool, Line.commentCapitals]
  simp only [hremark]
  decide +kernel

variable {α : Type}

/-- A run takes up no tool but its own. -/
theorem Job.worksElse_tail_toolRun (j : Job α) (tool : Nat) (comment : String)
    (settings : CutSettings α) (side : Side) (moves : List (Motion α)) :
    ∀ b ∈ (j.toolRun tool comment settings side moves).tail, b.worksElse = true := by
  intro b hb
  simp only [toolRun, List.cons_append, List.nil_append, List.tail_cons, List.mem_cons,
    List.mem_append, List.mem_map, List.not_mem_nil, or_false] at hb
  rcases hb with rfl | rfl | rfl | ⟨m, hm, rfl⟩ | rfl | rfl | rfl
  · unfold spindleBlock
    split <;> rfl
  all_goals rfl

theorem Job.worksElse_runBlocks (j : Job α) {r : Run α} (h : r.comment ∈ otherWork) :
    ∀ b ∈ j.runBlocks r, b.worksElse = true := by
  intro b hb
  rcases List.mem_cons.1 hb with rfl | hb
  · simpa [Block.worksElse] using h
  · exact j.worksElse_tail_toolRun r.tool r.comment r.settings r.side r.moves b hb

theorem Job.IsRuns.endCuts {j : Job α} {boring : Prop} {blocks : List (Block α)}
    (h : j.IsRuns boring blocks) (rest : List (Block α)) :
    Block.endCuts (blocks ++ rest) = true := by
  obtain ⟨runs, hne, rfl, -, -⟩ := h
  cases runs with
  | nil => exact absurd rfl hne
  | cons r runs => rfl

variable [Scalar α]

/-- No section but the one that opens the bore takes up a boring tool. -/
theorem Job.worksElse_sectionOf {j : Job α} {kind : SectionKind} {s : Section α}
    (h : j.sectionOf kind = .ok s) (hkind : kind ≠ .op1Bore) :
    ∀ b ∈ s.blocks, b.worksElse = true := by
  intro b hb
  by_cases hidle : kind.isIdle = true
  · have hblock := isIdle_of_mem h hidle b hb
    cases b <;> first | rfl | cases hblock
  · obtain ⟨runs, -, hblocks, -, hcomment, -⟩ := isRuns_sectionOf h (by simpa using hidle)
    rw [hblocks] at hb
    obtain ⟨r, hr, hb⟩ := List.mem_flatMap.1 hb
    rcases hcomment r hr with hmem | ⟨-, hbore⟩
    · exact j.worksElse_runBlocks hmem b hb
    · exact absurd hbore hkind

/-- The bore is opened once, and the tool is left before anything else moves. -/
theorem SpacerKind.exists_sectionOrder_eq (kind : SpacerKind) :
    ∃ pre post, kind.sectionOrder = pre ++ .op1Bore :: post ∧ .op1Bore ∉ pre ∧ .op1Bore ∉ post ∧
      ∃ more, post = .op1Turn :: more ∨ post = .flip :: .op2Turn :: more := by
  cases kind with
  | steelRing =>
    exact ⟨[.header, .op1Turn, .op1Drill], [.flip, .op2Turn, .op2Chamfer, .footer], rfl, by decide,
      by decide, [.op2Chamfer, .footer], .inr rfl⟩
  | standard | hubCentric | thinLip | step | twoPieceLug | twoPieceStud =>
    exact ⟨[.header, .op1Drill], [.op1Turn, .flip, .op2Turn, .op2Chamfer, .footer], rfl, by decide,
      by decide, [.flip, .op2Turn, .op2Chamfer, .footer], .inl rfl⟩

omit [Scalar α] in
theorem endCuts_flatMap_of_runs {j : Job α} {boring : Prop} {s : Section α}
    (h : j.IsRuns boring s.blocks) (sections : List (Section α)) :
    Block.endCuts ((s :: sections).flatMap (·.blocks)) = true := h.endCuts _

/-- A program, taken apart at the section that opens the bore. -/
theorem Program.exists_blocks_eq {j : Job α} {p : Program α} (h : ofJob j = .ok p) :
    ∃ pre post passes, p.blocks = pre ++ ((j.boreSection passes).blocks ++ post) ∧
      j.borePasses = .ok passes ∧ (∀ b ∈ pre, b.worksElse = true) ∧
      (∀ b ∈ post, b.worksElse = true) ∧ Block.endCuts post = true := by
  obtain ⟨horder, -, -⟩ := of_ofJob h
  obtain ⟨pre, post, hsplit, hpre, hpost, more, hmore⟩ := j.part.kind.exists_sectionOrder_eq
  rw [hsplit, List.map_append, List.map_cons] at horder
  obtain ⟨spre, tail, hsections, hspre, htail⟩ := List.map_eq_append_iff.1 horder.symm
  obtain ⟨bore, spost, rfl, hbore, hspost⟩ := List.map_eq_cons_iff.1 htail
  obtain ⟨passes, hpasses, rfl⟩ := map_eq_ok.1 hbore.symm
  have hwork {kinds : List SectionKind} {sections : List (Section α)}
      (hmap : sections.map .ok = kinds.map j.sectionOf) (hkinds : .op1Bore ∉ kinds) :
      ∀ b ∈ sections.flatMap (·.blocks), b.worksElse = true := by
    intro b hb
    obtain ⟨s, hs, hb⟩ := List.mem_flatMap.1 hb
    obtain ⟨kind, hkind, hsection⟩ := Job.exists_kind_of_map_eq hmap hs
    exact Job.worksElse_sectionOf hsection (fun heq => hkinds (heq ▸ hkind)) b hb
  refine ⟨_, spost.flatMap (·.blocks), passes, ?_, hpasses, hwork hspre hpre, hwork hspost hpost,
    ?_⟩
  · rw [blocks, hsections, List.flatMap_append, List.flatMap_cons]
  · rcases hmore with rfl | rfl
    · obtain ⟨turn, rest, rfl, hturn, -⟩ := List.map_eq_cons_iff.1 hspost
      exact endCuts_flatMap_of_runs (Job.isRuns_sectionOf hturn.symm rfl) rest
    · obtain ⟨flip, rest, rfl, hflip, hrest⟩ := List.map_eq_cons_iff.1 hspost
      obtain ⟨turn, rest, rfl, hturn, -⟩ := List.map_eq_cons_iff.1 hrest
      cases hflip
      exact endCuts_flatMap_of_runs (Job.isRuns_sectionOf hturn.symm rfl) rest

/-! ## Agreement -/

theorem Part.zero_le_hubHeight {part : Part Rat} (h : part.check = .ok ()) :
    0 ≤ part.hubHeight := by
  unfold Part.hubHeight
  cases hhub : part.variant.hub? with
  | none => exact Scalar.zero_rat.ge
  | some hub => exact (isLength_rat.1 (Part.isLength_of_check h hhub)).le

/-- The depths of a job are a row of the depth table, lowered by the hub, since every thickness that has
work offsets has a row. -/
theorem Job.exists_row {part : Part Rat} {lathe : Lathe Rat} {constants : CuttingConstants Rat}
    {templates : Templates Rat} {j : Job Rat}
    (h : resolve part lathe constants templates = .ok j) :
    ∃ row : Depths Rat, Depths.row? part.thickness.key = some row ∧ row.drill ≤ -0.54 ∧
      j.depths = { row with drill := Scalar.round4 (row.drill - part.hubHeight) } := by
  obtain ⟨found, source, hlookup, hoffsets, hj⟩ := of_resolve h
  obtain ⟨-, row, hrow, hdrill⟩ := WorkOffsets.of_get? hoffsets
  rw [Depths.lookup, hrow] at hlookup
  cases hlookup
  exact ⟨found, hrow, hdrill, by rw [hj]⟩

/-- Every part is drilled deep enough for its bore to be seen. -/
theorem Job.round4_drill_lt {part : Part Rat} {lathe : Lathe Rat}
    {constants : CuttingConstants Rat} {templates : Templates Rat} {j : Job Rat}
    (hcheck : part.check = .ok ()) (h : resolve part lathe constants templates = .ok j) :
    (Scalar.round4 j.depths.drill : Rat) < -0.2 := by
  obtain ⟨row, -, hdrill, hj⟩ := exists_row h
  have hhub := Part.zero_le_hubHeight hcheck
  have hnear := Exact.abs_round4_sub_le (row.drill - part.hubHeight)
  rw [abs_le] at hnear
  rw [hj, (Exact.isPlaced_round4 _).round4]
  norm_num at hdrill ⊢
  linarith

theorem CheckingConstants.standard_eq :
    (standard : CheckingConstants Rat).boreSurfaceDepth = 0.2 ∧
      (standard : CheckingConstants Rat).workOffsetMinClearance = 0.1 ∧
      (standard : CheckingConstants Rat).safeEntryDiameter = 2.3 ∧
      (standard : CheckingConstants Rat).maxBoreStep = 0.3 ∧
      (standard : CheckingConstants Rat).stepTolerance = 0.005 := by
  simp only [standard, CuttingConstants.standard]
  norm_num

theorem CuttingConstants.standard_chamfer :
    (standard : CuttingConstants Rat).clearanceZ = 0.2 ∧
      (standard : CuttingConstants Rat).chamferDepth = 0.15 := by
  simp only [standard]
  norm_num

/-- A bore that is opened from the entry on, step by step, has no diagnostics. -/
theorem Bore.checkLines_eq_nil {j : Job Rat} (hstandard : j.constants = .standard)
    (hdeep : (Scalar.round4 j.depths.drill : Rat) < -0.2) {passes : List (Pass Rat)}
    (hpasses : j.borePasses = .ok passes) {pre post : List (Block Rat)}
    (hpre : ∀ b ∈ pre, b.worksElse = true) (hpost : ∀ b ∈ post, b.worksElse = true)
    (hend : Block.endCuts post = true) {lines : List (Line Rat)}
    (hlines : Line.Spell lines (pre ++ ((j.boreSection passes).blocks ++ post))) :
    checkLines .standard lines = [] := by
  obtain ⟨hsurface, -, hentry, hstep, htolerance⟩ := CheckingConstants.standard_eq
  have hnone (blocks : List (Block Rat)) (hblocks : ∀ b ∈ blocks, b.worksElse = true)
      {lines : List (Line Rat)} (hlines : Line.Spell lines blocks) :
      ∀ l ∈ lines, takesBoreTool l = false := by
    intro l hl
    obtain ⟨b, hb, hread⟩ := hlines.mem hl
    exact Block.takesBoreTool_reading (hblocks b hb) hread
  obtain ⟨before, lines, rfl, hbefore, hlines⟩ := hlines.append
  obtain ⟨l, lines, rfl, hl, hrest⟩ := List.map_eq_cons_iff.1 hlines
  obtain ⟨htool, hbore⟩ := Block.boreTool_reading (List.mem_singleton.2 hl)
  -- only the line of the tool itself takes up a boring tool in the section
  have hafter : ∀ l ∈ lines, takesBoreTool l = false := by
    refine hnone ((j.boreSection passes).blocks.tail ++ post) (fun b hb => ?_) hrest
    exact (List.mem_append.1 hb).elim (j.worksElse_tail_toolRun _ _ _ _ _ b) (hpost b)
  have hchamfer : ∀ p ∈ passes, p.isChamfer = true →
      ¬ (Scalar.round4 p.z : Rat) < -(CheckingConstants.standard : CheckingConstants Rat).boreSurfaceDepth := by
    intro p hp hkind
    obtain ⟨-, hdepth⟩ := CuttingConstants.standard_chamfer
    have hnear := Exact.abs_round4_sub_le (-0.15 : Rat)
    rw [abs_le] at hnear
    rw [z_of_mem_borePasses hpasses hp hkind, (Exact.isPlaced_round4 _).round4, hstandard, hdepth,
      hsurface]
    norm_num at hnear ⊢
    linarith
  have hcuts := cutsFrom_boreRun .standard j _ _ _ (by rw [hsurface]; norm_num) hchamfer hend
    hlines (({} : ModalState Rat).afterLines before |>.next l)
  rw [hsurface] at hcuts
  obtain ⟨rest, hopen, hwidens⟩ := opensFromEntry_borePasses hstandard hdeep hpasses
  rw [checkLines, collect, steps, blocks_append .standard _ (hnone _ hpre hbefore),
    blocks_cons .standard _ htool hbore hafter, List.flatMap_cons, List.flatMap_nil,
    List.append_nil]
  refine checkBlock_of_widens ?_ ?_ (hcuts.trans hopen) hwidens
  · rw [hstep, htolerance]
    norm_num
  · rw [hentry, htolerance]
    norm_num

/-- The generator and the checks agree: with the constants of the shop, a program that is built from a
part whose title is one line has nothing that a detector reports or changes, and no cut of its bore
is too wide. -/
theorem Program.passes_checks (lathes : Lathes Rat) (templates : Templates Rat) (part : Part Rat)
    (p : Program Rat) (htitle : '\n' ∉ part.title.toList)
    (h : build lathes .standard templates part = .ok p) :
    (FixChain.standard (.standard : CheckingConstants Rat)).run p.text
        = { diagnostics := [], fixedText := none } ∧
      Bore.checkLines (.standard : CheckingConstants Rat) (Line.parseText p.text) = [] := by
  obtain ⟨lathe, j, hcheck, -, hj, hp⟩ := of_build h
  obtain ⟨found, source, -, hoffsets, -⟩ := Job.of_resolve hj
  obtain ⟨hpart, -, hstandard, -⟩ := Job.asked_of_resolve hj
  have hremarked := remarked hp (hpart ▸ htitle) (hpart ▸ (WorkOffsets.of_get? hoffsets).1)
  have hlines : Line.Spell (Line.parseText p.text) p.blocks := p.map_reading_parseText hremarked
  constructor
  · obtain ⟨-, hmin, -⟩ := CheckingConstants.standard_eq
    obtain ⟨hclearance, -⟩ := CuttingConstants.standard_chamfer
    have hplaced : Exact.IsPlaced (0.2 : Rat) := ⟨2000, by norm_num⟩
    have hsafe : ∀ l ∈ (Line.parseText p.text : List (Line Rat)), l.IsSafe (0.2 : Rat) := by
      intro l hl
      obtain ⟨b, hb, hread⟩ := hlines.mem hl
      have := Block.isSafe_reading (blocks_isSafe hp b hb) hread
      rwa [Job.clearance, hstandard, hclearance, hplaced.round4] at this
    refine FixChain.run_standard_of_safe ?_ ?_ hsafe
    · change (Scalar.ofNat 0 : Rat) ≤ 0.2
      rw [Scalar.ofNat_rat]
      norm_num
    · rw [hmin]
      norm_num
  · obtain ⟨pre, post, passes, hblocks, hpasses, hpre, hpost, hend⟩ := exists_blocks_eq hp
    rw [hblocks] at hlines
    exact Bore.checkLines_eq_nil hstandard (Job.round4_drill_lt hcheck hj) hpasses hpre hpost hend
      hlines

/-- A part with a thin lip, whose widest passes stop at a shelf. -/
def Part.thinLipSample : Part Rat where
  programNumber := 7
  title := "5.75 THIN LIP"
  round := 5.75
  thickness := { key := "0.75", inches := 0.75 }
  boreMm := 74.0
  fittedBoreMm := 74.1
  bore := 2.9173
  lathe := .l1
  fitted := true
  feedMode := .proven
  variant := .thinLip { nominalMm := 78.0, fittedMm := 77.9, diameter := 3.0669, height := 0.5 }

theorem Program.passes_checks_thinLip :
    '\n' ∉ Part.thinLipSample.title.toList ∧
      ∃ p, build .standard .standard (fun _ => none) Part.thinLipSample = .ok p ∧
        (FixChain.standard (.standard : CheckingConstants Rat)).run p.text
          = { diagnostics := [], fixedText := none } ∧
        Bore.checkLines (.standard : CheckingConstants Rat) (Line.parseText p.text) = [] := by
  have htitle : '\n' ∉ Part.thinLipSample.title.toList := by decide
  have hbuilt : (build .standard .standard (fun _ => none) Part.thinLipSample).isOk = true := by
    decide +kernel
  obtain ⟨p, hp⟩ := exists_eq_ok hbuilt
  exact ⟨htitle, p, hp, passes_checks _ _ _ p htitle hp⟩

end SpacerTurning
