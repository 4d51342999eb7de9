import SpacerTurning.Proofs.Check.Home
import SpacerTurning.Proofs.Generation.BoreLines

/-!
Decoding a program from its text.

What a block does to the modal state can be said without its text: a move goes to the coordinates
that are written for it, a tool makes the position unknown, and moving in machine coordinates keeps
it.  The steps of the text follow this line by line, since each line of a block is read as the block
says and does all of what the block does; doing it twice, as the two lines of a constant surface
speed do, changes nothing.
-/

namespace SpacerTurning

open Number

/-! ## What blocks do -/

/-- The modal state after a move, with its numbers as they are written. -/
def Motion.act (m : Motion Rat) (s : ModalState Rat) : ModalState Rat where
  motion := (m.mode.map fun mode => mode.asked.state).getD s.motion
  tool := s.tool
  x := m.x.map Scalar.round4 <|> s.x
  z := m.z.map Scalar.round4 <|> s.z
  feed := m.feed.map Scalar.round4 <|> s.feed
  machine := false

/-- The modal state after a block. -/
def Block.act : Block Rat → ModalState Rat → ModalState Rat
  | .motion m, s => m.act s
  | .toolChange tool _, s => { motion := .unknown, tool := some tool, feed := s.feed }
  | .machineHome _ _, s => { s with motion := .unknown, machine := true }
  | _, s => { s with machine := false }

/-- The modal states after the lines of blocks, as the blocks have it: every line of a block is in
the state that the block leads to. -/
def ModalState.interpret : ModalState Rat → List (Block Rat) → List (ModalState Rat)
  | _, [] => []
  | s, b :: rest => List.replicate b.lines.length (b.act s) ++ interpret (b.act s) rest

/-- The number of a tool fits into a code. -/
def Block.ToolFits : Block Rat → Prop
  | .toolChange tool _ => tool ≤ Scalar.codeLimit
  | _ => True

/-! ## One block -/

theorem Motion.next_reading (m : Motion Rat) {l : Line Rat} (hl : l.reading = m.reading)
    (s : ModalState Rat) : s.next l = m.act s := by
  have hwords : l.words = m.reading.words := congrArg Reading.words hl
  have hmem : l.reading ∈ (Block.motion m).readings := List.mem_singleton.2 hl
  have hmachine := Block.isMachine_reading (by simp) hmem
  have htool := Block.tool?_reading (by simp) hmem
  have hword := m.words_motionWord? hwords
  obtain ⟨hx, hz, hfeed⟩ := m.words_values hwords
  unfold ModalState.next
  cases hmode : m.mode with
  | none =>
    have hevent : l.event = .inherit := by simp [Line.event, hmachine, htool, hword, hmode]
    simp [hevent, hx, hz, hfeed, act, hmode, MotionState.after]
  | some mode =>
    have hevent : l.event = .motion mode.asked := by
      simp [Line.event, hmachine, htool, hword, hmode]
    simp [hevent, hx, hz, hfeed, act, hmode, MotionState.after]

theorem Line.IsStill.next {l : Line Rat} (h : l.IsStill) (s : ModalState Rat) :
    s.next l = { s with machine := false } := by
  have hevent : l.event = .inherit := by simp [Line.event, h.machine, h.tool, h.motion]
  simp [ModalState.next, hevent, h.x, h.z, h.feed, MotionState.after]

/-- A line of a block does what the block does. -/
theorem Block.next_reading {b : Block Rat} (hb : b.ToolFits) {l : Line Rat}
    (hl : l.reading ∈ b.readings) (s : ModalState Rat) : s.next l = b.act s := by
  cases b with
  | motion m => exact m.next_reading (List.mem_singleton.1 hl) s
  | toolChange tool text =>
    obtain ⟨number, raw, words, comment⟩ := l
    obtain ⟨rfl, -⟩ : _ ∧ _ := by simpa [readings, Line.reading] using hl
    have hcode : min tool Scalar.codeLimit = tool := min_eq_left hb
    simp [ModalState.next, Line.event, Line.isMachine, Line.has, Line.tool?, Line.feed?,
      Line.value?, act, MotionState.after, hcode]
  | machineHome x z =>
    obtain ⟨number, raw, words, comment⟩ := l
    obtain ⟨rfl, -⟩ : _ ∧ _ := by simpa [readings, Line.reading] using hl
    simp [ModalState.next, Line.event, Line.isMachine, Line.has, Line.feed?, Line.value?, act,
      MotionState.after, Scalar.codeLimit]
  | percent | programNumber _ _ | comment _ | constantSurfaceSpeed _ _ | fixedSpeed _
  | workOffset _ | coolantOn | coolantOff | programStop _ | optionalStop | programEnd =>
    exact (isStill_reading rfl hl).next s

theorem Block.act_act (b : Block Rat) (s : ModalState Rat) : b.act (b.act s) = b.act s := by
  cases b with
  | motion m =>
    obtain ⟨mode, x, z, feed, marker⟩ := m
    cases mode <;> cases x <;> cases z <;> cases feed <;> rfl
  | percent | programNumber _ _ | comment _ | toolChange _ _ | constantSurfaceSpeed _ _
  | fixedSpeed _ | workOffset _ | coolantOn | coolantOff | machineHome _ _ | programStop _
  | optionalStop | programEnd => rfl

/-- The lines of a block lead to the state of the block, and stay in it. -/
theorem Block.steps_readings {b : Block Rat} (hb : b.ToolFits) {lines : List (Line Rat)}
    (hlines : ∀ l ∈ lines, l.reading ∈ b.readings) (s : ModalState Rat) :
    (s.steps lines).map (·.after) = List.replicate lines.length (b.act s) := by
  induction lines generalizing s with
  | nil => rfl
  | cons l lines ih =>
    have hnext := b.next_reading hb (hlines l List.mem_cons_self) s
    have hrest := ih (fun l' hl' => hlines l' (List.mem_cons_of_mem _ hl')) (b.act s)
    rw [ModalState.steps, List.map_cons, hnext, hrest, b.act_act]
    rfl

theorem Block.afterLines_readings {b : Block Rat} (hb : b.ToolFits) {lines : List (Line Rat)}
    (hlines : ∀ l ∈ lines, l.reading ∈ b.readings) (hne : lines ≠ []) (s : ModalState Rat) :
    s.afterLines lines = b.act s := by
  induction lines generalizing s with
  | nil => exact absurd rfl hne
  | cons l lines ih =>
    have hnext := b.next_reading hb (hlines l List.mem_cons_self) s
    rw [ModalState.afterLines, List.foldl_cons, hnext]
    by_cases hrest : lines = []
    · rw [hrest]
      rfl
    · exact (ih (fun l' hl' => hlines l' (List.mem_cons_of_mem _ hl')) hrest (b.act s)).trans
        (b.act_act s)

/-! ## Runs of blocks -/

theorem Block.length_lines (b : Block Rat) : b.lines.length = b.readings.length :=
  b.lineReads.length_eq

theorem Block.readings_ne_nil (b : Block Rat) : b.readings ≠ [] := by
  cases b with
  | programStop message => cases message <;> simp [readings]
  | percent | programNumber _ _ | comment _ | toolChange _ _ | constantSurfaceSpeed _ _
  | fixedSpeed _ | workOffset _ | coolantOn | coolantOff | motion _ | machineHome _ _
  | optionalStop | programEnd => simp [readings]

/-- The steps of lines that spell blocks go through the states of the blocks. -/
theorem ModalState.map_after_steps {blocks : List (Block Rat)} (hblocks : ∀ b ∈ blocks, b.ToolFits)
    {lines : List (Line Rat)} (hlines : Line.Spell lines blocks) (s : ModalState Rat) :
    (s.steps lines).map (·.after) = s.interpret blocks := by
  induction blocks generalizing lines s with
  | nil =>
    rw [hlines.nil]
    rfl
  | cons b blocks ih =>
    obtain ⟨own, rest, rfl, hown, hrest⟩ := hlines.cons
    have hlength : own.length = b.lines.length := by
      rw [b.length_lines, ← hown, List.length_map]
    have hne : own ≠ [] := by
      rintro rfl
      exact b.readings_ne_nil hown.symm
    have hmem : ∀ l ∈ own, l.reading ∈ b.readings := fun l hl => hown ▸ List.mem_map_of_mem hl
    have hb := hblocks b List.mem_cons_self
    rw [steps_append, List.map_append, b.steps_readings hb hmem s, hlength,
      b.afterLines_readings hb hmem hne s,
      ih (fun b' hb' => hblocks b' (List.mem_cons_of_mem _ hb')) hrest, interpret]

/-- What is found in the lines of blocks, if it is found in every line of a block alike, and in a block
of one line only. -/
theorem ModalState.filterMap_steps {β : Type} {f : Step Rat → Option β} {g : Block Rat → Option β}
    {blocks : List (Block Rat)}
    (hread : ∀ b ∈ blocks, ∀ l : Line Rat, l.reading ∈ b.readings →
      ∀ s : ModalState Rat, f ⟨l, s, s.next l⟩ = g b)
    (hone : ∀ b ∈ blocks, (g b).isSome = true → b.readings.length = 1) {lines : List (Line Rat)}
    (hlines : Line.Spell lines blocks) (s : ModalState Rat) :
    (s.steps lines).filterMap f = blocks.filterMap g := by
  induction blocks generalizing lines s with
  | nil =>
    rw [hlines.nil]
    rfl
  | cons b blocks ih =>
    obtain ⟨own, rest, rfl, hown, hrest⟩ := hlines.cons
    -- A block of several lines has nothing to find, or it would be found more than once.
    have hb : (s.steps own).filterMap f = (g b).toList := by
      have hline := hread b List.mem_cons_self
      cases hg : g b with
      | none =>
        rw [Option.toList_none, List.filterMap_eq_nil_iff]
        intro st hst
        obtain ⟨hafter, hl⟩ := after_eq_of_mem hst
        have h := hline st.line (hown ▸ List.mem_map_of_mem hl) st.before
        rwa [← hafter, hg] at h
      | some v =>
        have hlength := hone b List.mem_cons_self (by rw [hg]; rfl)
        rw [← hown, List.length_map] at hlength
        obtain ⟨l, rfl⟩ := List.length_eq_one_iff.1 hlength
        have h := hline l (hown ▸ List.mem_singleton.2 rfl) s
        rw [hg] at h
        rw [steps, List.filterMap_cons_some h]
        rfl
    rw [steps_append, List.filterMap_append, hb,
      ih (fun b' hb' => hread b' (List.mem_cons_of_mem _ hb'))
        (fun b' hb' => hone b' (List.mem_cons_of_mem _ hb')) hrest, List.filterMap_cons]
    cases g b <;> rfl

/-! ## Programs without their comments -/

/-- A block without what it says to the operator. -/
def Block.silent : Block Rat → Block Rat
  | .programNumber number _ => .programNumber number ""
  | .comment _ => .comment ""
  | .toolChange tool _ => .toolChange tool ""
  | .motion m => .motion { m with marker := none }
  | .programStop _ => .programStop none
  | b => b

def Program.silent (p : Program Rat) : Program Rat :=
  { p with sections := p.sections.map fun s => { s with blocks := s.blocks.map Block.silent } }

theorem Program.blocks_silent (p : Program Rat) : p.silent.blocks = p.blocks.map Block.silent := by
  simp [silent, blocks, List.flatMap_map, List.map_flatMap]

theorem Block.remarked_silent (b : Block Rat) : b.silent.remarked = "" := by
  cases b <;> rfl

theorem Block.words_silent (b : Block Rat) :
    b.silent.readings.map (·.words) = b.readings.map (·.words) := by
  cases b with
  | programStop message => cases message <;> rfl
  | percent | programNumber _ _ | comment _ | toolChange _ _ | constantSurfaceSpeed _ _
  | fixedSpeed _ | workOffset _ | coolantOn | coolantOff | motion _ | machineHome _ _
  | optionalStop | programEnd => rfl

/-- Without its comments a program has the same words. -/
theorem Program.words_silent (p : Program Rat) (h : ∀ b ∈ p.blocks, '\n' ∉ b.remarked.toList) :
    (Line.parseText p.silent.text : List (Line Rat)).map (·.words)
      = (Line.parseText p.text : List (Line Rat)).map (·.words) := by
  have hsilent : ∀ b ∈ p.silent.blocks, '\n' ∉ b.remarked.toList := by
    intro b hb
    rw [p.blocks_silent] at hb
    obtain ⟨b, -, rfl⟩ := List.mem_map.1 hb
    simp [b.remarked_silent]
  have hreadings := p.map_reading_parseText h
  have hreadings' := p.silent.map_reading_parseText hsilent
  have hwords (lines : List (Line Rat)) :
      lines.map (·.words) = (lines.map Line.reading).map (·.words) := by
    rw [List.map_map]
    rfl
  rw [hwords, hwords, hreadings, hreadings', p.blocks_silent, List.flatMap_map, List.map_flatMap,
    List.map_flatMap]
  simp only [Block.words_silent]

/-! ## Whole programs -/

/-- The text of a program decodes to the program. -/
theorem Program.decodes (p : Program Rat) (hremarks : ∀ b ∈ p.blocks, '\n' ∉ b.remarked.toList)
    (htools : ∀ b ∈ p.blocks, b.ToolFits) :
    (Line.parseText p.text : List (Line Rat)).map (·.raw) = p.lines ∧
      (Line.parseText p.text).map Line.reading = p.blocks.flatMap Block.readings ∧
      (Line.parseText p.text : List (Line Rat)).map (·.words)
        = (Line.parseText p.silent.text).map (·.words) ∧
      (steps (Line.parseText p.text)).map (·.after) = ModalState.interpret {} p.blocks := by
  refine ⟨?_, p.map_reading_parseText hremarks, (p.words_silent hremarks).symm, ?_⟩
  · rw [Line.parseText, Line.map_raw_parseAll, p.splitLines_text hremarks]
  · exact ModalState.map_after_steps htools (p.map_reading_parseText hremarks) {}

/-- A cut with a mark, between comments that look like words. -/
def Program.cutSample : Program Rat where
  number := 7
  title := "T1 (X9.)"
  sections := [{
    kind := .op1Bore
    blocks := [.programNumber 7 "T1 (X9.)", .toolChange 303 "BORE Z-5.",
      .constantSurfaceSpeed 1500 800, .motion { mode := some .rapid, x := some 2.30004 },
      .motion { mode := some .linear, z := some (-0.5), marker := some .centerBore },
      .machineHome (-1) (-11), .programStop (some "G01")] }]

theorem Program.decodes_cut :
    (∀ b ∈ cutSample.blocks, '\n' ∉ b.remarked.toList) ∧ (∀ b ∈ cutSample.blocks, b.ToolFits) ∧
      (Line.parseText cutSample.text : List (Line Rat)).map (·.raw) = cutSample.lines ∧
      (Line.parseText cutSample.text).map Line.reading = cutSample.blocks.flatMap Block.readings ∧
      (Line.parseText cutSample.text : List (Line Rat)).map (·.words)
        = (Line.parseText cutSample.silent.text).map (·.words) ∧
      (steps (Line.parseText cutSample.text)).map (·.after)
        = ModalState.interpret {} cutSample.blocks := by
  have hremarks : ∀ b ∈ cutSample.blocks, '\n' ∉ b.remarked.toList := by decide
  have htools : ∀ b ∈ cutSample.blocks, b.ToolFits := by
    simp [cutSample, blocks, Block.ToolFits, Scalar.codeLimit]
  exact ⟨hremarks, htools, cutSample.decodes hremarks htools⟩

end SpacerTurning
