import SpacerTurning.Proofs.Generation.Shelf
import SpacerTurning.Proofs.Generation.Work

/-!
The protocol of the machine.

What a machine may do next depends on what it did before.  A move needs a tool that was set up since
it was taken up, and a change of tools, a stop or the end of the program needs a machine at rest.  The
run of a tool can begin where no tool was taken up yet or the machine is at rest, does only what the
machine may do, and leaves the machine at rest; so runs can follow one another.
-/

namespace SpacerTurning

variable {α : Type}

namespace Block

def isMotion : Block α → Bool
  | .motion _ => true
  | _ => false

def isToolChange : Block α → Bool
  | .toolChange _ _ => true
  | _ => false

def isCoolant : Block α → Bool
  | .coolantOn | .coolantOff => true
  | _ => false

/-- The block is about a tool, but no move of it. -/
def isSetup : Block α → Bool
  | .toolChange _ _ | .constantSurfaceSpeed _ _ | .fixedSpeed _ | .workOffset _ | .coolantOn
  | .coolantOff => true
  | _ => false

/-- The block needs nothing before it. -/
def isFree : Block α → Bool
  | .motion _ | .toolChange _ _ | .programStop _ | .programEnd => false
  | _ => true

theorem isSetup_of_isSpindle {b : Block α} (h : b.isSpindle = true) : b.isSetup = true := by
  cases b <;> first | rfl | cases h

theorem isFree_of_isSpindle {b : Block α} (h : b.isSpindle = true) : b.isFree = true := by
  cases b <;> first | rfl | cases h

end Block

namespace Protocol

variable {before blocks more rest : List (Block α)} {b : Block α}

/-- Behind the last tool there are a spindle block, a work offset and the coolant, and nothing else
about a tool. -/
def IsSetUp (before : List (Block α)) : Prop :=
  ∃ earlier tool comment since spindle slot, before = earlier ++ .toolChange tool comment :: since ∧
    spindle.isSpindle = true ∧ since.filter Block.isSetup = [spindle, .workOffset slot, .coolantOn]

/-- The coolant is off, and the machine was sent home behind the last move. -/
structure AtRest (before : List (Block α)) : Prop where
  coolant : (before.filter Block.isCoolant).getLast? ≠ some .coolantOn
  home : ∃ earlier x z since, before = earlier ++ .machineHome x z :: since ∧
    since.all (fun b => !b.isMotion) = true

/-- The machine may take up a tool. -/
def IsReady (before : List (Block α)) : Prop := before.any Block.isToolChange = true → AtRest before

/-- What a block needs between the blocks before it and the blocks behind it. -/
def Allows (before : List (Block α)) (b : Block α) (rest : List (Block α)) : Prop :=
  match b with
  | .motion _ => IsSetUp before ∧ rest.find? (fun b => !b.isMotion) = some .coolantOff
  | .toolChange _ _ => IsReady before
  | .programStop _ | .programEnd => AtRest before
  | _ => True

/-- Every block has what it needs. -/
def Follows : List (Block α) → List (Block α) → Prop
  | _, [] => True
  | before, b :: rest => Allows before b rest ∧ Follows (before ++ [b]) rest

/-! ## Blocks behind one another -/

theorem Allows.append (h : Allows before b rest) (more : List (Block α)) :
    Allows before b (rest ++ more) := by
  cases b with
  | motion m =>
    refine ⟨h.1, ?_⟩
    rw [List.find?_append, h.2]
    rfl
  | toolChange | programStop | programEnd => exact h
  | percent | programNumber | comment | constantSurfaceSpeed | fixedSpeed | workOffset | coolantOn
  | coolantOff | machineHome | optionalStop => trivial

theorem Follows.append (h : Follows before blocks) (hmore : Follows (before ++ blocks) more) :
    Follows before (blocks ++ more) := by
  induction blocks generalizing before with
  | nil => simpa using hmore
  | cons b blocks ih =>
    refine ⟨h.1.append more, ih h.2 ?_⟩
    rwa [List.append_assoc, List.singleton_append]

theorem Follows.allows (h : Follows before (blocks ++ b :: rest)) :
    Allows (before ++ blocks) b rest := by
  induction blocks generalizing before with
  | nil =>
    rw [List.append_nil]
    exact h.1
  | cons first blocks ih =>
    have := ih h.2
    rwa [List.append_assoc, List.singleton_append] at this

theorem follows_of_free (h : ∀ b ∈ blocks, b.isFree = true) : Follows before blocks := by
  induction blocks generalizing before with
  | nil => trivial
  | cons b blocks ih =>
    refine ⟨?_, ih fun c hc => h c (List.mem_cons_of_mem b hc)⟩
    have hfree := h b List.mem_cons_self
    cases b with
    | motion | toolChange | programStop | programEnd => cases hfree
    | percent | programNumber | comment | constantSurfaceSpeed | fixedSpeed | workOffset | coolantOn
    | coolantOff | machineHome | optionalStop => trivial

/-! ## The run of a tool -/

theorem IsSetUp.motion (h : IsSetUp before) (m : Motion α) : IsSetUp (before ++ [.motion m]) := by
  obtain ⟨earlier, tool, comment, since, spindle, slot, rfl, hspindle, hsince⟩ := h
  refine ⟨earlier, tool, comment, since ++ [.motion m], spindle, slot, by simp, hspindle, ?_⟩
  rw [List.filter_append, hsince]
  rfl

/-- A tool that is set up can make its moves, until the coolant is turned off. -/
theorem follows_motions (h : IsSetUp before) (moves : List (Motion α)) :
    Follows before (moves.map .motion ++ .coolantOff :: rest) ↔
      Follows (before ++ moves.map .motion) (.coolantOff :: rest) := by
  induction moves generalizing before with
  | nil => simp
  | cons m moves ih =>
    -- however many moves are left, the coolant is turned off behind the last one
    have hnext : (moves.map Block.motion ++ .coolantOff :: rest).find? (fun b => !b.isMotion)
        = some .coolantOff := by
      rw [List.find?_append, List.find?_eq_none.2 (by simp [Block.isMotion])]
      rfl
    have hrest := ih (h.motion m)
    rw [List.append_assoc, List.singleton_append] at hrest
    rw [List.map_cons, List.cons_append, Follows, hrest]
    exact and_iff_right ⟨h, hnext⟩

/-- What can be done wherever a tool may be taken up, and leaves the machine at rest. -/
def Serves (blocks : List (Block α)) : Prop :=
  ∀ before, IsReady before → Follows before blocks ∧ AtRest (before ++ blocks)

theorem serves_flatMap {β : Type} {f : β → List (Block α)} {bs : List β} (hne : bs ≠ [])
    (h : ∀ b ∈ bs, Serves (f b)) : Serves (bs.flatMap f) := by
  induction bs with
  | nil => exact absurd rfl hne
  | cons b bs ih =>
    intro before hbefore
    obtain ⟨hfirst, hrest⟩ := h b List.mem_cons_self before hbefore
    rw [List.flatMap_cons]
    cases bs with
    | nil => simpa using ⟨hfirst, hrest⟩
    | cons c cs =>
      obtain ⟨hmore, hend⟩ := ih (by simp) (fun d hd => h d (List.mem_cons_of_mem b hd))
        (before ++ f b) fun _ => hrest
      rw [← List.append_assoc]
      exact ⟨hfirst.append hmore, hend⟩

/-- A tool is taken up and set up. -/
def runStart (j : Job α) (r : Run α) : List (Block α) :=
  [.toolChange r.tool r.comment, Job.spindleBlock r.settings.spindle,
    .workOffset (j.offsets.side r.side), .coolantOn]

/-- A tool is let rest. -/
def runEnd (j : Job α) : List (Block α) :=
  [.coolantOff, .machineHome j.lathe.homeX j.lathe.homeZ, .optionalStop]

theorem runBlocks_eq (j : Job α) (r : Run α) :
    j.runBlocks r = runStart j r ++ (r.moves.map .motion ++ runEnd j) := by
  rw [← List.append_assoc]
  rfl

theorem follows_runStart (j : Job α) (r : Run α) (h : IsReady before) :
    Follows before (runStart j r) ∧ IsSetUp (before ++ runStart j r) := by
  have hspindle : (Job.spindleBlock r.settings.spindle : Block α).isSpindle = true := by simp
  unfold runStart
  generalize (Job.spindleBlock r.settings.spindle : Block α) = spindle at hspindle ⊢
  constructor
  · refine ⟨h, follows_of_free (List.forall_mem_cons.2 ⟨Block.isFree_of_isSpindle hspindle, ?_⟩)⟩
    simp [Block.isFree]
  · refine ⟨before, r.tool, r.comment, _, spindle, j.offsets.side r.side, rfl, hspindle, ?_⟩
    rw [List.filter_cons_of_pos (Block.isSetup_of_isSpindle hspindle)]
    rfl

theorem atRest_runEnd (j : Job α) (before : List (Block α)) : AtRest (before ++ runEnd j) where
  coolant := by simp [runEnd, Block.isCoolant]
  home := ⟨before ++ [.coolantOff], _, _, [.optionalStop], by rw [List.append_assoc]; rfl, rfl⟩

theorem serves_runBlocks (j : Job α) (r : Run α) : Serves (j.runBlocks r) := by
  intro before hbefore
  obtain ⟨hstart, hsetup⟩ := follows_runStart j r hbefore
  have hend : ∀ b ∈ runEnd j, b.isFree = true := by simp [runEnd, Block.isFree]
  rw [runBlocks_eq]
  constructor
  · exact hstart.append ((follows_motions hsetup r.moves).2 (follows_of_free hend))
  · rw [← List.append_assoc, ← List.append_assoc]
    exact atRest_runEnd j _

theorem AtRest.goHome (h : AtRest before) (x z : α)
    (hmore : ∀ b ∈ more, b.isCoolant = false ∧ b.isMotion = false) :
    AtRest (before ++ .machineHome x z :: more) where
  coolant := by
    have hnone : more.filter Block.isCoolant = [] :=
      List.filter_eq_nil_iff.2 fun b hb => by simp [(hmore b hb).1]
    rw [List.filter_append, List.filter_cons_of_neg (by simp [Block.isCoolant]), hnone,
      List.append_nil]
    exact h.coolant
  home := ⟨before, x, z, more, rfl, List.all_eq_true.2 fun b hb => by simp [(hmore b hb).2]⟩

theorem follows_flip (j : Job α) (h : AtRest before) :
    Follows before j.flip.blocks ∧ AtRest (before ++ j.flip.blocks) :=
  ⟨⟨trivial, h.goHome _ _ (by simp), trivial⟩,
    h.goHome _ _ (by simp [Block.isCoolant, Block.isMotion])⟩

variable [Scalar α]

theorem serves_sectionOf {j : Job α} {kind : SectionKind} {s : Section α} {side : Side}
    (h : j.sectionOf kind = .ok s) (hside : kind.side? = some side) : Serves s.blocks := by
  obtain ⟨runs, hne, hblocks, -⟩ := Job.works_sectionOf h hside
  rw [hblocks]
  exact serves_flatMap hne fun r _ => serves_runBlocks j r

end Protocol

/-! ## Programs -/

/-- Every kind of spacer has its first side worked on, is turned over, and has its second side worked
on. -/
theorem SpacerKind.exists_sectionOrder_flip (kind : SpacerKind) :
    ∃ first second : List SectionKind,
      kind.sectionOrder = .header :: (first ++ .flip :: (second ++ [.footer])) ∧
      first ≠ [] ∧ second ≠ [] ∧ (∀ k ∈ first, k.side? = some .op1) ∧
      ∀ k ∈ second, k.side? = some .op2 := by
  cases kind with
  | steelRing =>
    exact ⟨[.op1Turn, .op1Drill, .op1Bore], [.op2Turn, .op2Chamfer], rfl, by decide, by decide,
      by decide, by decide⟩
  | standard | hubCentric | thinLip | step | twoPieceLug | twoPieceStud =>
    exact ⟨[.op1Drill, .op1Bore, .op1Turn], [.op2Turn, .op2Chamfer], rfl, by decide, by decide,
      by decide, by decide⟩

variable [Scalar α]

/-- Sections that work on one side of the part. -/
def Job.WorkOn (j : Job α) (side : Side) (sections : List (Section α)) : Prop :=
  sections ≠ [] ∧ ∀ s ∈ sections, ∃ kind : SectionKind, kind.side? = some side ∧
    j.sectionOf kind = .ok s

namespace Job

variable {j : Job α} {side : Side} {sections : List (Section α)}

theorem workOn_of_map_eq {kinds : List SectionKind} (h : sections.map .ok = kinds.map j.sectionOf)
    (hne : kinds ≠ []) (hkinds : ∀ k ∈ kinds, k.side? = some side) : j.WorkOn side sections := by
  constructor
  · rintro rfl
    exact hne (List.map_eq_nil_iff.1 h.symm)
  · intro s hs
    obtain ⟨kind, hkind, hsection⟩ := exists_kind_of_map_eq h hs
    exact ⟨kind, hkinds kind hkind, hsection⟩

theorem WorkOn.serves (h : j.WorkOn side sections) :
    Protocol.Serves (sections.flatMap (·.blocks)) := by
  refine Protocol.serves_flatMap h.1 fun s hs => ?_
  obtain ⟨kind, hside, hsection⟩ := h.2 s hs
  exact Protocol.serves_sectionOf hsection hside

theorem WorkOn.kind_ne_flip (h : j.WorkOn side sections) : ∀ s ∈ sections, s.kind ≠ .flip := by
  intro s hs hflip
  obtain ⟨kind, hside, hsection⟩ := h.2 s hs
  rw [← kind_of_sectionOf hsection, hflip] at hside
  cases hside

theorem WorkOn.workOffset_eq (h : j.WorkOn side sections) {slot : Nat}
    (hslot : .workOffset slot ∈ sections.flatMap (·.blocks)) : slot = j.offsets.side side := by
  obtain ⟨s, hs, hslot⟩ := List.mem_flatMap.1 hslot
  obtain ⟨kind, hside, hsection⟩ := h.2 s hs
  obtain ⟨runs, -, hblocks, hruns⟩ := works_sectionOf hsection hside
  rw [hblocks] at hslot
  obtain ⟨r, hr, hslot⟩ := List.mem_flatMap.1 hslot
  rw [← (hruns r hr).1]
  rcases of_mem_toolRun hslot with hslot | hslot | ⟨m, -, hslot⟩ | hslot
  · cases hslot
  · exact Block.workOffset.inj hslot
  · cases hslot
  · cases hslot

end Job

theorem Program.exists_sections_eq {j : Job α} {p : Program α} (h : ofJob j = .ok p) :
    ∃ first second, p.sections = j.header :: (first ++ j.flip :: (second ++ [Job.footer])) ∧
      j.WorkOn .op1 first ∧ j.WorkOn .op2 second := by
  obtain ⟨horder, -, -⟩ := of_ofJob h
  obtain ⟨kinds, kinds', hsplit, hne, hne', hside, hside'⟩ := j.part.kind.exists_sectionOrder_flip
  rw [hsplit, List.map_cons] at horder
  obtain ⟨header, tail, hsections, hheader, htail⟩ := List.map_eq_cons_iff.1 horder.symm
  rw [List.map_append, List.map_cons] at htail
  obtain ⟨first, tail, rfl, hfirst, htail⟩ := List.map_eq_append_iff.1 htail
  obtain ⟨flip, tail, rfl, hflip, htail⟩ := List.map_eq_cons_iff.1 htail
  rw [List.map_append, List.map_singleton] at htail
  obtain ⟨second, tail, rfl, hsecond, htail⟩ := List.map_eq_append_iff.1 htail
  obtain ⟨footer, rfl, hfooter⟩ := List.map_eq_singleton_iff.1 htail
  cases hheader
  cases hflip
  cases hfooter
  exact ⟨first, second, hsections, Job.workOn_of_map_eq hfirst hne hside,
    Job.workOn_of_map_eq hsecond hne' hside'⟩

/-- The head of a program asks for nothing. -/
theorem Job.of_mem_header {j : Job α} {b : Block α} (hb : b ∈ j.header.blocks) :
    b.isFree = true ∧ b.isSetup = false := by
  simp only [header, List.cons_append, List.nil_append, List.mem_cons, List.mem_append,
    Option.mem_toList, Option.map_eq_some_iff] at hb
  rcases hb with rfl | rfl | rfl | rfl | ⟨hub, -, rfl⟩ | ⟨shelf, -, rfl⟩ <;> exact ⟨rfl, rfl⟩

/-- A program does only what the machine may do. -/
theorem Program.follows {j : Job α} {p : Program α} (h : ofJob j = .ok p) :
    Protocol.Follows [] p.blocks := by
  obtain ⟨first, second, hsections, hfirst, hsecond⟩ := exists_sections_eq h
  have hready : Protocol.IsReady j.header.blocks := by
    intro htool
    obtain ⟨b, hb, htool⟩ := List.any_eq_true.1 htool
    have hsetup : b.isSetup = true := by cases b <;> first | rfl | cases htool
    cases (Job.of_mem_header hb).2.symm.trans hsetup
  obtain ⟨hfirst, hrest⟩ := hfirst.serves j.header.blocks hready
  obtain ⟨hflip, hrest⟩ := Protocol.follows_flip j hrest
  obtain ⟨hsecond, hrest⟩ := hsecond.serves _ fun _ => hrest
  have hblocks : p.blocks = j.header.blocks ++ (first.flatMap (·.blocks) ++ (j.flip.blocks
      ++ (second.flatMap (·.blocks) ++ (Job.footer : Section α).blocks))) := by
    simp [blocks, hsections]
  rw [hblocks]
  refine .append (Protocol.follows_of_free fun b hb => (Job.of_mem_header hb).1) ?_
  rw [List.nil_append]
  exact hfirst.append (hflip.append (hsecond.append ⟨hrest, trivial, trivial⟩))

/-- Every block of a program has what it needs before it and behind it, and the work offsets are those
of the first side until the part is turned over, and those of the second side from then on. -/
theorem Program.keeps_protocol {lathes : Lathes α} {constants : CuttingConstants α}
    {templates : Templates α} {part : Part α} {p : Program α}
    (h : build lathes constants templates part = .ok p) :
    (∀ before b rest, p.blocks = before ++ b :: rest → Protocol.Allows before b rest) ∧
      ∃ offsets before flip after,
        WorkOffsets.get? part.lathe part.thickness.key = some offsets ∧
        p.sections = before ++ flip :: after ∧ flip.kind = .flip ∧
        (∀ s ∈ before ++ after, s.kind ≠ .flip) ∧
        (∀ slot, .workOffset slot ∈ before.flatMap (·.blocks) → slot = offsets.op1) ∧
        (∀ slot, .workOffset slot ∉ flip.blocks) ∧
        ∀ slot, .workOffset slot ∈ after.flatMap (·.blocks) → slot = offsets.op2 := by
  obtain ⟨lathe, j, -, -, hj, hp⟩ := of_build h
  obtain ⟨found, source, -, hoffsets, -⟩ := Job.of_resolve hj
  obtain ⟨first, second, hsections, hfirst, hsecond⟩ := exists_sections_eq hp
  refine ⟨fun before b rest hsplit => ?_, j.offsets, j.header :: first, j.flip,
    second ++ [Job.footer], hoffsets, hsections, rfl, fun s hs => ?_, fun slot hslot => ?_,
    fun slot hslot => ?_, fun slot hslot => ?_⟩
  · exact (hsplit ▸ follows hp : Protocol.Follows [] (before ++ b :: rest)).allows
  · simp only [List.cons_append, List.mem_cons, List.mem_append, List.not_mem_nil, or_false] at hs
    rcases hs with rfl | hs | hs | rfl
    · exact (nomatch ·)
    · exact hfirst.kind_ne_flip s hs
    · exact hsecond.kind_ne_flip s hs
    · exact (nomatch ·)
  · rw [List.flatMap_cons] at hslot
    rcases List.mem_append.1 hslot with hslot | hslot
    · cases (Job.of_mem_header hslot).2
    · exact hfirst.workOffset_eq hslot
  · simp [Job.flip] at hslot
  · rw [List.flatMap_append] at hslot
    rcases List.mem_append.1 hslot with hslot | hslot
    · exact hsecond.workOffset_eq hslot
    · simp [Job.footer] at hslot

theorem Program.keeps_protocol_thinLip :
    ∃ p, build .standard .standard (fun _ => none) Part.thinLipSample = .ok p ∧
      ∀ before b rest, p.blocks = before ++ b :: rest → Protocol.Allows before b rest := by
  have hbuilt : (build .standard .standard (fun _ => none) Part.thinLipSample).isOk = true := by
    decide +kernel
  obtain ⟨p, hp⟩ := exists_eq_ok hbuilt
  exact ⟨p, hp, (keeps_protocol hp).1⟩

end SpacerTurning
