import SpacerTurning.Proofs.Check.BoreSteps
import SpacerTurning.Proofs.Generation.Bore
import SpacerTurning.Proofs.Generation.Safe

/-!
The lines of a bore.

The lines between a tool and the next one hold its moves and blocks that move no axis.  Read again,
the cuts among them are those of the passes that the moves were made of: a pass cuts straight down
at its diameter, and a chamfer is too shallow to be a cut.
-/

namespace SpacerTurning

open Number

/-! ## Blocks between the moves -/

/-- A line that has no tool, no motion and no place in it. -/
structure Line.IsStill (l : Line Rat) : Prop where
  machine : l.isMachine = false
  tool : l.tool? = none
  motion : l.motionWord? = none
  x : l.x? = none
  z : l.z? = none
  feed : l.feed? = none

namespace Block

/-- Neither a tool nor a move. -/
def isStill {α : Type} : Block α → Bool
  | .toolChange _ _ | .motion _ | .machineHome _ _ => false
  | _ => true

/-- Neither a tool nor a move, nor the end of the program. -/
def isPause {α : Type} : Block α → Bool
  | .toolChange _ _ | .motion _ | .programEnd => false
  | _ => true

/-- Another tool, or the end of the program. -/
def leavesTool {α : Type} : Block α → Bool
  | .toolChange _ _ | .programEnd => true
  | _ => false

/-- Nothing moves before the tool is left. -/
def endCuts {α : Type} : List (Block α) → Bool
  | [] => true
  | b :: rest => b.leavesTool || (b.isPause && endCuts rest)

variable {b : Block Rat} {l : Line Rat}

/-- A line of a block that is neither a tool nor a move changes nothing that holds on, and ends machine
coordinates. -/
theorem isStill_reading (hb : b.isStill = true) (hl : l.reading ∈ b.readings) : l.IsStill := by
  obtain ⟨number, raw, words, comment⟩ := l
  cases b with
  | toolChange _ _ | motion _ | machineHome _ _ => cases hb
  | constantSurfaceSpeed maxRpm css =>
    simp only [readings, Line.reading, List.mem_cons, List.not_mem_nil, or_false,
      Reading.mk.injEq] at hl
    rcases hl with ⟨rfl, -⟩ | ⟨rfl, -⟩ <;> constructor <;>
      simp [Line.isMachine, Line.has, Line.tool?, Line.motionWord?, Line.x?, Line.z?, Line.feed?,
        Line.value?, MotionWord.ofCode?, Scalar.codeLimit]
  | programStop message =>
    cases message <;>
    · obtain ⟨rfl, -⟩ : _ ∧ _ := by simpa [readings, Line.reading] using hl
      constructor <;>
        simp [Line.isMachine, Line.has, Line.tool?, Line.motionWord?, Line.x?, Line.z?, Line.feed?,
          Line.value?]
  | percent | programNumber _ _ | comment _ | fixedSpeed _ | workOffset _ | coolantOn | coolantOff
  | optionalStop | programEnd =>
    obtain ⟨rfl, -⟩ : _ ∧ _ := by simpa [readings, Line.reading] using hl
    constructor <;>
      simp [Line.isMachine, Line.has, Line.tool?, Line.motionWord?, Line.x?, Line.z?, Line.feed?,
        Line.value?, MotionWord.ofCode?, Scalar.codeLimit]

theorem tool?_reading (hb : ∀ tool text, b ≠ .toolChange tool text)
    (hl : l.reading ∈ b.readings) : l.tool? = none := by
  cases b with
  | toolChange tool text => exact absurd rfl (hb tool text)
  | motion m =>
    obtain ⟨number, raw, words, comment⟩ := l
    obtain ⟨mode, x, z, feed, marker⟩ := m
    obtain ⟨rfl, -⟩ : _ ∧ _ := by simpa [readings, Line.reading, Motion.reading] using hl
    cases mode <;> cases x <;> cases z <;> cases feed <;> simp [Line.tool?]
  | machineHome x z =>
    obtain ⟨number, raw, words, comment⟩ := l
    obtain ⟨rfl, -⟩ : _ ∧ _ := by simpa [readings, Line.reading] using hl
    simp [Line.tool?]
  | percent | programNumber _ _ | comment _ | constantSurfaceSpeed _ _ | fixedSpeed _
  | workOffset _ | coolantOn | coolantOff | programStop _ | optionalStop | programEnd =>
    exact (isStill_reading rfl hl).tool

theorem isMachine_reading (hb : ∀ x z, b ≠ .machineHome x z) (hl : l.reading ∈ b.readings) :
    l.isMachine = false := by
  cases b with
  | machineHome x z => exact absurd rfl (hb x z)
  | motion m =>
    obtain ⟨number, raw, words, comment⟩ := l
    obtain ⟨mode, x, z, feed, marker⟩ := m
    obtain ⟨rfl, -⟩ : _ ∧ _ := by simpa [readings, Line.reading, Motion.reading] using hl
    rcases mode with _ | _ | _ <;> cases x <;> cases z <;> cases feed <;>
      simp [Line.isMachine, Line.has, MotionMode.code, Scalar.codeLimit]
  | toolChange tool text =>
    obtain ⟨number, raw, words, comment⟩ := l
    obtain ⟨rfl, -⟩ : _ ∧ _ := by simpa [readings, Line.reading] using hl
    simp [Line.isMachine, Line.has]
  | percent | programNumber _ _ | comment _ | constantSurfaceSpeed _ _ | fixedSpeed _
  | workOffset _ | coolantOn | coolantOff | programStop _ | optionalStop | programEnd =>
    exact (isStill_reading rfl hl).machine

theorem staysWithTool_reading (hb : b.leavesTool = false) (hl : l.reading ∈ b.readings) :
    Bore.staysWithTool l = true := by
  have htool : l.tool? = none := by
    refine tool?_reading ?_ hl
    rintro tool text rfl
    cases hb
  have hend : l.has 'M' 30 = false := by
    obtain ⟨number, raw, words, comment⟩ := l
    cases b with
    | toolChange _ _ | programEnd => cases hb
    | motion m =>
      obtain ⟨mode, x, z, feed, marker⟩ := m
      obtain ⟨rfl, -⟩ : _ ∧ _ := by simpa [readings, Line.reading, Motion.reading] using hl
      cases mode <;> cases x <;> cases z <;> cases feed <;> simp [Line.has]
    | constantSurfaceSpeed maxRpm css =>
      simp only [readings, Line.reading, List.mem_cons, List.not_mem_nil, or_false,
        Reading.mk.injEq] at hl
      rcases hl with ⟨rfl, -⟩ | ⟨rfl, -⟩ <;> simp [Line.has, Scalar.codeLimit]
    | programStop message =>
      cases message <;>
      · obtain ⟨rfl, -⟩ : _ ∧ _ := by simpa [readings, Line.reading] using hl
        simp [Line.has, Scalar.codeLimit]
    | percent | programNumber _ _ | comment _ | fixedSpeed _ | workOffset _ | machineHome _ _
    | coolantOn | coolantOff | optionalStop =>
      obtain ⟨rfl, -⟩ : _ ∧ _ := by simpa [readings, Line.reading] using hl
      simp [Line.has, Scalar.codeLimit]
  simp [Bore.staysWithTool, htool, hend]

theorem still_reading (hb : b.isPause = true) (hl : l.reading ∈ b.readings) :
    l.isMachine = true ∨ l.hasAxis = false := by
  cases b with
  | toolChange _ _ | motion _ | programEnd => cases hb
  | machineHome x z =>
    obtain ⟨number, raw, words, comment⟩ := l
    obtain ⟨rfl, -⟩ : _ ∧ _ := by simpa [readings, Line.reading] using hl
    exact .inl (by simp [Line.isMachine, Line.has, Scalar.codeLimit])
  | percent | programNumber _ _ | comment _ | constantSurfaceSpeed _ _ | fixedSpeed _
  | workOffset _ | coolantOn | coolantOff | programStop _ | optionalStop =>
    have hstill := isStill_reading (b := _) rfl hl
    exact .inr (by simp [Line.hasAxis, hstill.x, hstill.z])

theorem leavesTool_reading (hb : b.leavesTool = true) (hl : l.reading ∈ b.readings) :
    Bore.staysWithTool l = false := by
  obtain ⟨number, raw, words, comment⟩ := l
  cases b with
  | toolChange tool text =>
    obtain ⟨rfl, -⟩ : _ ∧ _ := by simpa [readings, Line.reading] using hl
    simp [Bore.staysWithTool, Line.tool?]
  | programEnd =>
    obtain ⟨rfl, -⟩ : _ ∧ _ := by simpa [readings, Line.reading] using hl
    simp [Bore.staysWithTool, Line.has, Scalar.codeLimit]
  | percent | programNumber _ _ | comment _ | constantSurfaceSpeed _ _ | fixedSpeed _
  | workOffset _ | coolantOn | coolantOff | motion _ | machineHome _ _ | programStop _
  | optionalStop => cases hb

end Block

/-- Lines that are read as blocks. -/
def Line.Spell (lines : List (Line Rat)) (blocks : List (Block Rat)) : Prop :=
  lines.map Line.reading = blocks.flatMap Block.readings

namespace Line

variable {lines : List (Line Rat)} {blocks : List (Block Rat)}

theorem Spell.append {a b : List (Block Rat)} (h : Spell lines (a ++ b)) :
    ∃ la lb, lines = la ++ lb ∧ Spell la a ∧ Spell lb b := by
  unfold Spell at h
  rw [List.flatMap_append] at h
  obtain ⟨la, lb, rfl, ha, hb⟩ := List.map_eq_append_iff.1 h
  exact ⟨la, lb, rfl, ha, hb⟩

theorem Spell.cons {b : Block Rat} (h : Spell lines (b :: blocks)) :
    ∃ own rest, lines = own ++ rest ∧ own.map Line.reading = b.readings ∧ Spell rest blocks := by
  unfold Spell at h
  rw [List.flatMap_cons] at h
  obtain ⟨own, rest, rfl, hown, hrest⟩ := List.map_eq_append_iff.1 h
  exact ⟨own, rest, rfl, hown, hrest⟩

theorem Spell.mem (h : Spell lines blocks) {l : Line Rat} (hl : l ∈ lines) :
    ∃ b ∈ blocks, l.reading ∈ b.readings := by
  have hmem : l.reading ∈ lines.map Line.reading := List.mem_map_of_mem hl
  rw [h] at hmem
  exact List.mem_flatMap.1 hmem

theorem Spell.nil (h : Spell lines []) : lines = [] := List.map_eq_nil_iff.1 h

end Line

namespace Bore

open Line

variable (c : CheckingConstants Rat) {lines : List (Line Rat)} {blocks : List (Block Rat)}

theorem cutsFrom_pauses (hlines : Spell lines blocks) (hblocks : ∀ b ∈ blocks, b.isPause = true)
    (s : ModalState Rat) (rest : List (Line Rat)) :
    cutsFrom c s (lines ++ rest) = cutsFrom c (s.afterLines lines) rest := by
  have hstill : ∀ l ∈ lines, staysWithTool l = true ∧ (l.isMachine = true ∨ l.hasAxis = false) := by
    intro l hl
    obtain ⟨b, hb, hread⟩ := hlines.mem hl
    have hpause := hblocks b hb
    refine ⟨Block.staysWithTool_reading ?_ hread, Block.still_reading hpause hread⟩
    cases b <;> first | rfl | cases hpause
  clear hlines hblocks
  induction lines generalizing s with
  | nil => rfl
  | cons l lines ih =>
    obtain ⟨hstay, hnone⟩ := hstill l List.mem_cons_self
    rw [List.cons_append, cutsFrom_cons c s hstay, cut?_eq_none c s hnone,
      ih (s.next l) fun l' hl' => hstill l' (List.mem_cons_of_mem _ hl')]
    rfl

/-- Where the tool is left before anything moves, there are no cuts. -/
theorem cutsFrom_of_endCuts (hlines : Spell lines blocks) (hblocks : Block.endCuts blocks = true)
    (s : ModalState Rat) : cutsFrom c s lines = [] := by
  induction blocks generalizing lines s with
  | nil =>
    rw [hlines.nil]
    rfl
  | cons b blocks ih =>
    obtain ⟨lb, lines, rfl, hb, hrest⟩ := Spell.append (a := [b]) hlines
    rw [Block.endCuts, Bool.or_eq_true, Bool.and_eq_true] at hblocks
    rcases hblocks with hleave | ⟨hpause, hend⟩
    · cases lb with
      | nil =>
        have hone : b.readings = [] := by simpa [Spell] using hb.symm
        cases b <;> first | (cases hleave; done) | cases hone
      | cons l lb =>
        have hl : l.reading ∈ b.readings := by
          obtain ⟨b', hb', hl⟩ := hb.mem (List.mem_cons_self (a := l) (l := lb))
          rwa [List.mem_singleton.1 hb'] at hl
        exact cutsFrom_of_leaves c s (Block.leavesTool_reading hleave hl) _
    · rw [cutsFrom_pauses c hb (by simpa using hpause) s lines]
      exact ih hrest hend _

/-! ## Moves -/

/-- A move whose cut can be told from the diameter before it: a rapid move, or a cut that goes
straight down or stays above a height. -/
inductive IsPlainMove (limit : Rat) (m : Motion Rat) : Prop where
  | rapid : m.mode = some .rapid → IsPlainMove limit m
  | down (z : Rat) : m.mode = some .linear → m.x = none → m.z = some z → IsPlainMove limit m
  | above (z : Rat) : m.mode = some .linear → m.z = some z → ¬ (Scalar.round4 z : Rat) < limit →
    IsPlainMove limit m

def written (m : Motion Rat) : Motion Rat :=
  { m with x := m.x.map Scalar.round4, z := m.z.map Scalar.round4 }

theorem next_move {m : Motion Rat} {l : Line Rat} (hl : l.reading = m.reading) {mode : MotionMode}
    (hmode : m.mode = some mode) (s : ModalState Rat) :
    (s.next l).x = ((written m).x <|> s.x) ∧ (s.next l).z = ((written m).z <|> s.z) ∧
      (s.next l).motion = mode.asked.state ∧
      (s.next l).machine = false := by
  have hwords : l.words = m.reading.words := congrArg Reading.words hl
  obtain ⟨hx, hz, -⟩ := m.words_values hwords
  have hword := m.words_motionWord? hwords
  have htool : l.tool? = none :=
    Block.tool?_reading (b := .motion m) (by simp) (List.mem_singleton.2 hl)
  have hmachine : l.isMachine = false :=
    Block.isMachine_reading (b := .motion m) (by simp) (List.mem_singleton.2 hl)
  rw [hmode] at hword
  have hevent : l.event = .motion mode.asked := by simp [Line.event, hmachine, htool, hword]
  unfold ModalState.next
  rw [hevent]
  exact ⟨by simp [hx, written], by simp [hz, written], rfl, rfl⟩

theorem cut?_move {m : Motion Rat} {l : Line Rat} (hl : l.reading = m.reading)
    (hm : IsPlainMove (-c.boreSurfaceDepth) m) (s : ModalState Rat) (more : List (Motion Rat)) :
    ((cut? c { line := l, before := s, after := s.next l }).toList.map (·.diameter))
        ++ Section.feedDiametersBelow (-c.boreSurfaceDepth) (s.next l).x more
      = Section.feedDiametersBelow (-c.boreSurfaceDepth) s.x (written m :: more) := by
  have hwords : l.words = m.reading.words := congrArg Reading.words hl
  obtain ⟨hlx, hlz, -⟩ := m.words_values hwords
  rw [Section.feedDiametersBelow]
  cases hm with
  | rapid hmode =>
    obtain ⟨hx, -, hmotion, -⟩ := next_move hl hmode s
    have hnone := cut?_eq_none_of_motion c s (l := l) (by rw [hmotion]; simp [MotionMode.asked, MotionWord.state])
    simp [hnone, hx, Motion.isFeed, written, hmode]
  | down z hmode hmx hmz =>
    obtain ⟨hx, hz, hmotion, hmachine⟩ := next_move hl hmode s
    rw [hmx] at hlx
    rw [hmz] at hlz
    have hstep : Step.isFeedMove { line := l, before := s, after := s.next l } = true := by
      simp [Step.isFeedMove, hmotion, hmachine, hasAxis, hlz, MotionMode.asked, MotionWord.state]
    have hstraight : Step.isDiagonal { line := l, before := s, after := s.next l } = false := by
      simp [Step.isDiagonal, hlx, Step.moves]
    simp only [cut?, hstep, hstraight, hx, hz, written, hmx, hmz]
    cases s.x with
    | none => simp
    | some x =>
      by_cases hbelow : (Scalar.round4 z : Rat) < -c.boreSurfaceDepth <;>
        simp [hbelow, Motion.isFeed, hmode]
  | above z hmode hmz habove =>
    obtain ⟨hx, hz, -, -⟩ := next_move hl hmode s
    have hnone : cut? c { line := l, before := s, after := s.next l } = none := by
      unfold cut?
      split
      · simp only [hz, written, hmz]
        cases (s.next l).x <;> simp [habove]
      · rfl
    simp [hnone, hx, written, hmz, habove]

/-- The cuts of plain moves are the diameters at which they cut below the surface. -/
theorem cutsFrom_moves {moves : List (Motion Rat)} (hlines : Spell lines (moves.map .motion))
    (hmoves : ∀ m ∈ moves, IsPlainMove (-c.boreSurfaceDepth) m) (s : ModalState Rat)
    {rest : List (Line Rat)} (hrest : ∀ s, cutsFrom c s rest = []) :
    (cutsFrom c s (lines ++ rest)).map (·.diameter)
      = Section.feedDiametersBelow (-c.boreSurfaceDepth) s.x (moves.map written) := by
  induction moves generalizing lines s with
  | nil =>
    rw [hlines.nil, List.nil_append, hrest]
    rfl
  | cons m moves ih =>
    obtain ⟨l, lines, rfl, hl, hlines⟩ := List.map_eq_cons_iff.1 hlines
    have hstay := Block.staysWithTool_reading (b := .motion m) rfl (List.mem_singleton.2 hl)
    rw [List.cons_append, cutsFrom_cons c s hstay, List.map_append,
      ih hlines (fun m' hm' => hmoves m' (List.mem_cons_of_mem _ hm')),
      cut?_move c hl (hmoves m List.mem_cons_self)]
    rfl

/-! ## Passes -/

variable {limit : Rat}

theorem isPlainMove_passMoves (clearance : Rat) (feeds : FeedRates Rat)
    (mark : Option (Rat × DiameterMarker)) (first : Bool) {pass : Pass Rat} (hlimit : limit ≤ 0)
    (hchamfer : pass.isChamfer = true → ¬ (Scalar.round4 pass.z : Rat) < limit) :
    ∀ m ∈ Job.passMoves clearance feeds mark first pass, IsPlainMove limit m := by
  have happroach : (Motion.approach clearance first pass.diameter).mode = some .rapid := by
    cases first <;> rfl
  have hface : ¬ (Scalar.round4 (0.0 : Rat) : Rat) < limit := by
    rw [Exact.round4_zero]
    exact not_lt.2 hlimit
  intro m hm
  unfold Job.passMoves at hm
  cases hkind : pass.kind with
  | rough =>
    simp only [hkind, List.mem_cons, List.not_mem_nil, or_false] at hm
    rcases hm with rfl | rfl | rfl
    · exact .rapid happroach
    · exact .down pass.z rfl rfl rfl
    · exact .rapid rfl
  | finish =>
    simp only [hkind, List.mem_cons, List.not_mem_nil, or_false] at hm
    rcases hm with rfl | rfl | rfl
    · exact .rapid happroach
    · exact .down pass.z rfl rfl rfl
    · exact .rapid rfl
  | chamfer =>
    simp only [hkind, List.mem_cons, List.not_mem_nil, or_false] at hm
    rcases hm with rfl | rfl | rfl | rfl
    · exact .rapid happroach
    · exact .above 0.0 rfl rfl hface
    · exact .above pass.z rfl rfl (hchamfer (by simp [Pass.isChamfer, hkind]))
    · exact .rapid rfl

/-- The moves of a pass cut where the pass does. -/
theorem feedDiametersBelow_passMoves (clearance : Rat) (feeds : FeedRates Rat)
    (mark : Option (Rat × DiameterMarker)) (first : Bool) {pass : Pass Rat} (hlimit : limit ≤ 0)
    (hchamfer : pass.isChamfer = true → ¬ (Scalar.round4 pass.z : Rat) < limit) (x : Option Rat)
    (more : List (Motion Rat)) :
    ∃ x', Section.feedDiametersBelow limit x
        ((Job.passMoves clearance feeds mark first pass).map written ++ more)
      = Pass.cutDiameters limit [pass] ++ Section.feedDiametersBelow limit x' more := by
  have hface : ¬ (Scalar.round4 (0.0 : Rat) : Rat) < limit := by
    rw [Exact.round4_zero]
    exact not_lt.2 hlimit
  unfold Job.passMoves
  cases hkind : pass.kind with
  | rough =>
    refine ⟨some (Scalar.round4 pass.diameter), ?_⟩
    by_cases hbelow : (Scalar.round4 pass.z : Rat) < limit <;> cases first <;>
      simp [Section.feedDiametersBelow, Pass.cutDiameters, Pass.isChamfer, hkind, hbelow, written,
        Motion.approach, Motion.isFeed, Motion.rapidX, Motion.rapidXZ, Motion.rapidZ, Motion.feedZ]
  | finish =>
    refine ⟨some (Scalar.round4 pass.diameter), ?_⟩
    by_cases hbelow : (Scalar.round4 pass.z : Rat) < limit <;> cases first <;>
      simp [Section.feedDiametersBelow, Pass.cutDiameters, Pass.isChamfer, hkind, hbelow, written,
        Motion.approach, Motion.isFeed, Motion.rapidX, Motion.rapidXZ, Motion.rapidZ, Motion.feedZ]
  | chamfer =>
    refine ⟨some (Scalar.round4 (Scalar.round4 (pass.diameter + 2.0 * pass.z))), ?_⟩
    have habove := hchamfer (by simp [Pass.isChamfer, hkind])
    cases first <;>
      simp [Section.feedDiametersBelow, Pass.cutDiameters, Pass.isChamfer, hkind, habove, hface,
        written, Motion.approach, Motion.isFeed, Motion.rapidX, Motion.rapidXZ, Motion.rapidZ,
        Motion.feedZ, Motion.feedXZ]

theorem feedDiametersBelow_passes (clearance : Rat) (feeds : FeedRates Rat)
    (mark : Option (Rat × DiameterMarker)) (first : Bool) {passes : List (Pass Rat)}
    (hlimit : limit ≤ 0)
    (hchamfer : ∀ p ∈ passes, p.isChamfer = true → ¬ (Scalar.round4 p.z : Rat) < limit)
    (x : Option Rat) :
    Section.feedDiametersBelow limit x
        ((passes.flatMap (Job.passMoves clearance feeds mark first)).map written)
      = Pass.cutDiameters limit passes := by
  induction passes generalizing x with
  | nil => rfl
  | cons pass passes ih =>
    rw [List.flatMap_cons, List.map_append]
    obtain ⟨x', hpass⟩ := feedDiametersBelow_passMoves clearance feeds mark first hlimit
      (hchamfer pass List.mem_cons_self) x
      ((passes.flatMap (Job.passMoves clearance feeds mark first)).map written)
    rw [hpass, ih fun p hp => hchamfer p (List.mem_cons_of_mem _ hp), ← Pass.cutDiameters_append]
    rfl

/-- The moves of a bore cut where its passes do. -/
theorem feedDiametersBelow_boringMoves (clearance : Rat) (feeds : FeedRates Rat)
    (mark : Option (Rat × DiameterMarker)) {passes : List (Pass Rat)} (hlimit : limit ≤ 0)
    (hchamfer : ∀ p ∈ passes, p.isChamfer = true → ¬ (Scalar.round4 p.z : Rat) < limit)
    (x : Option Rat) :
    Section.feedDiametersBelow limit x ((Job.boringMoves clearance feeds mark passes).map written)
      = Pass.cutDiameters limit passes := by
  cases passes with
  | nil => rfl
  | cons pass passes =>
    rw [Job.boringMoves, List.map_append]
    obtain ⟨x', hpass⟩ := feedDiametersBelow_passMoves clearance feeds mark true hlimit
      (hchamfer pass List.mem_cons_self) x
      ((passes.flatMap (Job.passMoves clearance feeds mark false)).map written)
    rw [hpass, feedDiametersBelow_passes clearance feeds mark false hlimit
      fun p hp => hchamfer p (List.mem_cons_of_mem _ hp), ← Pass.cutDiameters_append]
    rfl

theorem isPlainMove_boringMoves (clearance : Rat) (feeds : FeedRates Rat)
    (mark : Option (Rat × DiameterMarker)) {passes : List (Pass Rat)} (hlimit : limit ≤ 0)
    (hchamfer : ∀ p ∈ passes, p.isChamfer = true → ¬ (Scalar.round4 p.z : Rat) < limit) :
    ∀ m ∈ Job.boringMoves clearance feeds mark passes, IsPlainMove limit m := by
  intro m hm
  obtain ⟨first, pass, hpass, hm⟩ := Job.exists_pass_of_mem_boringMoves hm
  exact isPlainMove_passMoves clearance feeds mark first hlimit (hchamfer pass hpass) m hm

/-- The cuts of a bore, from the line after its tool on, are those of its passes. -/
theorem cutsFrom_boreRun (j : Job Rat) (settings : CutSettings Rat) (side : Side)
    (mark : Option (Rat × DiameterMarker)) {passes : List (Pass Rat)}
    (hlimit : -c.boreSurfaceDepth ≤ 0)
    (hchamfer : ∀ p ∈ passes, p.isChamfer = true →
      ¬ (Scalar.round4 p.z : Rat) < -c.boreSurfaceDepth)
    {post : List (Block Rat)} (hpost : Block.endCuts post = true) {tool : Nat} {text : String}
    {l : Line Rat} (hlines : Spell (l :: lines) (j.toolRun tool text settings side
      (Job.boringMoves j.clearance settings.feeds mark passes) ++ post))
    (s : ModalState Rat) :
    (cutsFrom c s lines).map (·.diameter) = Pass.cutDiameters (-c.boreSurfaceDepth) passes := by
  have hblocks : j.toolRun tool text settings side
        (Job.boringMoves j.clearance settings.feeds mark passes) ++ post
      = .toolChange tool text
        :: ([Job.spindleBlock settings.spindle, .workOffset (j.offsets.side side), .coolantOn]
          ++ ((Job.boringMoves j.clearance settings.feeds mark passes).map .motion
            ++ ([.coolantOff, .machineHome j.lathe.homeX j.lathe.homeZ, .optionalStop] ++ post))) := by
    simp [Job.toolRun]
  rw [hblocks] at hlines
  have hlines := (List.cons.inj hlines).2
  obtain ⟨head, lines, rfl, hhead, hlines⟩ := Spell.append hlines
  obtain ⟨cutting, tail, rfl, hcutting, htail⟩ := hlines.append
  have hpauses : ∀ b ∈ ([Job.spindleBlock settings.spindle, .workOffset (j.offsets.side side),
      .coolantOn] : List (Block Rat)), b.isPause = true := by
    intro b hb
    simp only [List.mem_cons, List.not_mem_nil, or_false] at hb
    rcases hb with rfl | rfl | rfl
    · unfold Job.spindleBlock
      split <;> rfl
    · rfl
    · rfl
  have hend : ∀ s, cutsFrom c s tail = [] :=
    cutsFrom_of_endCuts c htail hpost
  rw [cutsFrom_pauses c hhead hpauses, cutsFrom_moves c hcutting
    (isPlainMove_boringMoves _ _ _ hlimit hchamfer) _ hend]
  exact feedDiametersBelow_boringMoves _ _ _ hlimit hchamfer _

end Bore

end SpacerTurning
