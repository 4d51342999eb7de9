import SpacerTurning.Proofs.Generation.Travel

/-!
Runs of a tool.

Apart from its head, the turning over and its end, a program is tools that run one after the other.
In every run the moves are safe: a rapid move that names a height names the clearance height, and a
cut has a feed of its own.  They are clear as well, from the moment at which the tool is taken up.
`Job.isRuns_sectionOf` says so for every section at once, and which of the tools open the bore.
-/

namespace SpacerTurning

open Number

variable {α : Type}

/-- A move that is safe whatever came before it. -/
inductive Motion.IsSafe (clearance : α) (m : Motion α) : Prop where
  | rapid : m.mode = some .rapid → (∀ z ∈ m.z, z = clearance) → IsSafe clearance m
  | cut : m.mode = some .linear → m.feed.isSome = true → IsSafe clearance m

namespace Motion

variable {clearance : α}

@[simp] theorem isSafe_rapidZ : IsSafe clearance (rapidZ clearance) :=
  .rapid rfl (by simp [rapidZ])

@[simp] theorem isSafe_rapidX (x : α) : IsSafe clearance (rapidX x) := .rapid rfl (by simp [rapidX])

@[simp] theorem isSafe_rapidXZ (x : α) : IsSafe clearance (rapidXZ x clearance) :=
  .rapid rfl (by simp [rapidXZ])

@[simp] theorem isSafe_feedZ (feed z : α) : IsSafe clearance (feedZ feed z) := .cut rfl rfl

@[simp] theorem isSafe_feedX (feed x : α) : IsSafe clearance (feedX feed x) := .cut rfl rfl

@[simp] theorem isSafe_feedXZ (feed x z : α) : IsSafe clearance (feedXZ feed x z) := .cut rfl rfl

/-- A mark changes nothing about a move. -/
@[simp] theorem isSafe_marker {m : Motion α} {marker : Option DiameterMarker} :
    IsSafe clearance { m with marker } ↔ IsSafe clearance m := by
  constructor
  · rintro (⟨hmode, hz⟩ | ⟨hmode, hfeed⟩)
    · exact .rapid hmode hz
    · exact .cut hmode hfeed
  · rintro (⟨hmode, hz⟩ | ⟨hmode, hfeed⟩)
    · exact .rapid hmode hz
    · exact .cut hmode hfeed

@[simp] theorem isSafe_approach (first : Bool) (x : α) :
    IsSafe clearance (approach clearance first x) := by
  cases first <;> simp [approach]

end Motion

/-- One tool at work. -/
structure Run (α : Type) where
  tool : Nat
  comment : String
  settings : CutSettings α
  side : Side
  moves : List (Motion α)

namespace Job

variable [Scalar α]

omit [Scalar α] in
def runBlocks (j : Job α) (r : Run α) : List (Block α) :=
  j.toolRun r.tool r.comment r.settings r.side r.moves

def AllSafe (j : Job α) (moves : List (Motion α)) : Prop := ∀ m ∈ moves, m.IsSafe j.clearance

theorem allSafe_passMoves (j : Job α) (feeds : FeedRates α)
    (mark : Option (α × DiameterMarker)) (first : Bool) (pass : Pass α) :
    j.AllSafe (passMoves j.clearance feeds mark first pass) := by
  unfold AllSafe passMoves
  cases pass.kind <;> simp

theorem allSafe_boringMoves (j : Job α) (feeds : FeedRates α)
    (mark : Option (α × DiameterMarker)) (passes : List (Pass α)) :
    j.AllSafe (boringMoves j.clearance feeds mark passes) := by
  intro m hm
  obtain ⟨first, pass, -, hm⟩ := exists_pass_of_mem_boringMoves hm
  exact j.allSafe_passMoves feeds mark first pass m hm

theorem allSafe_faceMoves (j : Job α) (feeds : FeedRates α) (faceTo : α) :
    j.AllSafe (j.faceMoves feeds faceTo) := by
  simp [AllSafe, faceMoves]

theorem allSafe_hubRoughMoves (j : Job α) (feeds : FeedRates α) (hub : Hub α) (increment : α) :
    j.AllSafe (j.hubRoughMoves feeds hub increment) := by
  intro m hm
  obtain ⟨z, -, hm⟩ := List.mem_flatMap.1 hm
  simp only [List.mem_cons, List.not_mem_nil, or_false] at hm
  rcases hm with rfl | rfl | rfl | rfl <;> simp

theorem allSafe_hubFinishMoves (j : Job α) (feeds : FeedRates α) (hub : Hub α) :
    j.AllSafe (j.hubFinishMoves feeds hub) := by
  simp [AllSafe, hubFinishMoves]

omit [Scalar α] in
theorem AllSafe.append {j : Job α} {a b : List (Motion α)} (ha : j.AllSafe a) (hb : j.AllSafe b) :
    j.AllSafe (a ++ b) := fun m hm => (List.mem_append.1 hm).elim (ha m) (hb m)

theorem allSafe_hubMoves (j : Job α) (feeds : FeedRates α) (hub : Hub α) (increment : α) :
    j.AllSafe (j.hubMoves feeds hub increment) :=
  .append (.append (by simp [AllSafe]) (j.allSafe_hubRoughMoves _ _ _))
    (j.allSafe_hubFinishMoves _ _)

/-- What the tools are taken up for, but for the one that opens the bore. -/
def otherWork : List String :=
  ["DRILL", "TURN OP1", "TURN OP2", "TURN HUB", "TURN HUB THIN LIP", "TURN STUD", "BORE CHAMFER",
    "RING POCKET", "SHELF CLEANUP"]

/-- Runs of tools with safe and clear moves.  A tool that opens the bore runs only where `boring`
says. -/
def IsRuns (j : Job α) (boring : Prop) (blocks : List (Block α)) : Prop :=
  ∃ runs : List (Run α), runs ≠ [] ∧ blocks = runs.flatMap j.runBlocks ∧
    (∀ r ∈ runs, j.AllSafe r.moves) ∧
    (∀ r ∈ runs, r.comment ∈ otherWork ∨ r.comment = "BORE" ∧ boring) ∧
    ∀ r ∈ runs, Travel.Clear j.clearance .takenUp r.moves

omit [Scalar α] in
theorem isRuns_toolRun (j : Job α) {boring : Prop} (tool : Nat) (comment : String)
    (settings : CutSettings α) (side : Side) {moves : List (Motion α)} (hsafe : j.AllSafe moves)
    (hcomment : comment ∈ otherWork ∨ comment = "BORE" ∧ boring)
    (hclear : Travel.Clear j.clearance .takenUp moves) :
    j.IsRuns boring (j.toolRun tool comment settings side moves) :=
  ⟨[⟨tool, comment, settings, side, moves⟩], by simp, by simp [runBlocks], by simpa using hsafe,
    by simpa using hcomment, by simpa using hclear⟩

omit [Scalar α] in
theorem IsRuns.append {j : Job α} {boring : Prop} {a b : List (Block α)} (ha : j.IsRuns boring a)
    (hb : j.IsRuns boring b) : j.IsRuns boring (a ++ b) := by
  obtain ⟨runs, hne, rfl, hsafe, hcomment, hclear⟩ := ha
  obtain ⟨runs', -, rfl, hsafe', hcomment', hclear'⟩ := hb
  refine ⟨runs ++ runs', by simp [hne], by simp, fun r hr => ?_, fun r hr => ?_, fun r hr => ?_⟩
  · exact (List.mem_append.1 hr).elim (hsafe r) (hsafe' r)
  · exact (List.mem_append.1 hr).elim (hcomment r) (hcomment' r)
  · exact (List.mem_append.1 hr).elim (hclear r) (hclear' r)

theorem isRuns_boreChamferRun (j : Job α) {boring : Prop} : j.IsRuns boring j.boreChamferRun :=
  j.isRuns_toolRun _ _ _ _ (by simp [AllSafe]) (.inl (by decide)) (by simp [Travel.Clear])

theorem isRuns_reboreRun (j : Job α) {boring : Prop} {comment : String}
    (hcomment : comment ∈ otherWork) (diameter depth : α) (passes : List (Pass α)) :
    j.IsRuns boring (j.reboreRun comment diameter depth passes) :=
  j.isRuns_toolRun _ _ _ _ (j.allSafe_boringMoves _ _ _) (.inl hcomment)
    (clear_boringMoves _ _ _ _)

theorem isRuns_op2FaceSection (j : Job α) {boring : Prop} :
    j.IsRuns boring j.op2FaceSection.blocks :=
  j.isRuns_toolRun _ _ _ _ ((j.allSafe_faceMoves _ _).append (by simp [AllSafe]))
    (.inl (by decide)) (Travel.clear_append.2 ⟨j.clear_faceMoves _ _, by simp [Travel.Clear]⟩)

theorem isRuns_hubSection {j : Job α} {boring : Prop} {hub : Hub α} {increment : α}
    {comment : String} {s : Section α} (h : j.hubSection hub increment comment = .ok s)
    (hcomment : comment ∈ otherWork) : j.IsRuns boring s.blocks := by
  rw [of_hubSection h]
  exact j.isRuns_toolRun _ _ _ _ (j.allSafe_hubMoves _ _ _) (.inl hcomment)
    (j.rounds_hubMoves _ _ _).1

theorem isRuns_op2TurnSection {j : Job α} {boring : Prop} {s : Section α}
    (h : j.op2TurnSection = .ok s) : j.IsRuns boring s.blocks := by
  have hknown : hubWork ⊆ otherWork := by decide
  rcases of_op2TurnSection h with ⟨hub, increment, comment, -, hcomment, h⟩ | ⟨-, rfl⟩
  · exact isRuns_hubSection h (hknown hcomment)
  · exact j.isRuns_op2FaceSection

theorem isRuns_op2ChamferSection {j : Job α} {boring : Prop} {s : Section α}
    (h : j.op2ChamferSection = .ok s) : j.IsRuns boring s.blocks := by
  obtain ⟨-, ⟨_, _, _, hs⟩ | ⟨_, _, _, hs⟩ | hs⟩ := of_op2ChamferSection h <;> rw [hs]
  · exact (j.isRuns_reboreRun (by decide) _ _ _).append j.isRuns_boreChamferRun
  · exact j.isRuns_reboreRun (by decide) _ _ _
  · exact j.isRuns_boreChamferRun

end Job

def SectionKind.isIdle : SectionKind → Bool
  | .header | .flip | .footer => true
  | _ => false

variable [Scalar α]

/-- Every section but the head, the turning over and the end is runs of tools with safe moves. -/
theorem Job.isRuns_sectionOf {j : Job α} {kind : SectionKind} {s : Section α}
    (h : j.sectionOf kind = .ok s) (hkind : kind.isIdle = false) :
    j.IsRuns (kind = .op1Bore) s.blocks := by
  cases kind with
  | header => cases hkind
  | op1Drill =>
    cases h
    exact j.isRuns_toolRun _ _ _ _ (by simp [AllSafe]) (.inl (by decide)) (by simp [Travel.Clear])
  | op1Bore =>
    obtain ⟨passes, -, rfl⟩ := map_eq_ok.1 h
    exact j.isRuns_toolRun _ _ _ _ (j.allSafe_boringMoves _ _ _) (.inr ⟨rfl, rfl⟩)
      (clear_boringMoves _ _ _ _)
  | op1Turn =>
    cases h
    exact j.isRuns_toolRun _ _ _ _ ((j.allSafe_faceMoves _ _).append (by simp [AllSafe]))
      (.inl (by decide)) (Travel.clear_append.2 ⟨j.clear_faceMoves _ _, by simp [Travel.Clear]⟩)
  | flip => cases hkind
  | op2Turn => exact isRuns_op2TurnSection h
  | op2Chamfer => exact isRuns_op2ChamferSection h
  | footer => cases hkind

/-! ## What blocks are for -/

/-- A block of a section in which no tool is at work. -/
def Block.isIdle : Block α → Bool
  | .percent | .programNumber _ _ | .comment _ | .machineHome _ _ | .programStop _
  | .programEnd => true
  | _ => false

/-- A block that comes with every run, whatever the tool is and does. -/
def Block.isService : Block α → Bool
  | .constantSurfaceSpeed _ _ | .fixedSpeed _ | .coolantOn | .coolantOff | .machineHome _ _
  | .optionalStop => true
  | _ => false

theorem Job.isIdle_of_mem {j : Job α} {kind : SectionKind} {s : Section α}
    (h : j.sectionOf kind = .ok s) (hkind : kind.isIdle = true) : ∀ b ∈ s.blocks, b.isIdle = true := by
  intro b hb
  cases kind with
  | header =>
    cases h
    simp only [header, List.cons_append, List.nil_append, List.mem_cons, List.mem_append,
      Option.mem_toList, Option.map_eq_some_iff] at hb
    rcases hb with rfl | rfl | rfl | rfl | ⟨hub, -, rfl⟩ | ⟨shelf, -, rfl⟩ <;> rfl
  | flip =>
    cases h
    simp only [flip, List.mem_cons, List.not_mem_nil, or_false] at hb
    rcases hb with rfl | rfl <;> rfl
  | footer =>
    cases h
    simp only [footer, List.mem_cons, List.not_mem_nil, or_false] at hb
    rcases hb with rfl | rfl <;> rfl
  | op1Drill | op1Bore | op1Turn | op2Turn | op2Chamfer => cases hkind

omit [Scalar α] in
/-- What differs from run to run is the tool, the work offset and the moves. -/
theorem Job.of_mem_toolRun {j : Job α} {tool : Nat} {comment : String} {settings : CutSettings α}
    {side : Side} {moves : List (Motion α)} {b : Block α}
    (hb : b ∈ j.toolRun tool comment settings side moves) :
    b = .toolChange tool comment ∨ b = .workOffset (j.offsets.side side) ∨
      (∃ m ∈ moves, b = .motion m) ∨ b.isService = true := by
  have hspindle : (spindleBlock settings.spindle : Block α).isService = true := by
    unfold spindleBlock
    split <;> rfl
  simp only [toolRun, List.cons_append, List.nil_append, List.mem_cons, List.mem_append,
    List.mem_map, List.not_mem_nil, or_false] at hb
  rcases hb with rfl | rfl | rfl | rfl | ⟨m, hm, rfl⟩ | rfl | rfl | rfl
  · exact .inl rfl
  · exact .inr (.inr (.inr hspindle))
  · exact .inr (.inl rfl)
  · exact .inr (.inr (.inr rfl))
  · exact .inr (.inr (.inl ⟨m, hm, rfl⟩))
  all_goals exact .inr (.inr (.inr rfl))

end SpacerTurning
