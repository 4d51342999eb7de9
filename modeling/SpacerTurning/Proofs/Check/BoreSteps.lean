import SpacerTurning.Check.BoreSteps
import SpacerTurning.Proofs.Check.Steps
import SpacerTurning.Proofs.Cutting.Boring

/-!
Cuts of a bore, line by line.

Which cuts a block has is decided by the lines from its tool on, until another tool is taken up or
the program ends.  A block whose cuts start near the entry and widen the bore step by step has
nothing to report.
-/

namespace SpacerTurning
namespace Bore

open Number

section

variable {α : Type} [Scalar α]

def takesBoreTool (l : Line α) : Bool := l.tool?.isSome && isBoreTool l

/-- The cuts of the lines after a tool is taken up, for the state that it leaves. -/
def cutsFrom (c : CheckingConstants α) (s : ModalState α) (lines : List (Line α)) :
    List (BoreCut α) := ((s.steps lines).takeWhile isWithinBlock).filterMap (cut? c)

/-- Lines that take up no boring tool have no blocks of their own. -/
theorem blocks_append (c : CheckingConstants α) (s : ModalState α) {a : List (Line α)}
    (ha : ∀ l ∈ a, takesBoreTool l = false) (b : List (Line α)) :
    blocks c (s.steps (a ++ b)) = blocks c ((s.afterLines a).steps b) := by
  induction a generalizing s with
  | nil => rfl
  | cons l a ih =>
    have hl := ha l List.mem_cons_self
    have ih := ih (s.next l) fun l' hl' => ha l' (List.mem_cons_of_mem _ hl')
    rw [List.cons_append, ModalState.steps, blocks]
    unfold takesBoreTool at hl
    cases htool : l.tool? with
    | none => exact ih
    | some tool =>
      have hbore : isBoreTool l = false := by simpa [htool] using hl
      simp only [hbore]
      exact ih

theorem blocks_of_none (c : CheckingConstants α) (s : ModalState α) {lines : List (Line α)}
    (h : ∀ l ∈ lines, takesBoreTool l = false) : blocks c (s.steps lines) = [] := by
  have := blocks_append c s h []
  rw [List.append_nil] at this
  exact this

/-- A boring tool that is followed by none makes one block. -/
theorem blocks_cons (c : CheckingConstants α) (s : ModalState α) {l : Line α} {tool : Nat}
    (htool : l.tool? = some tool) (hbore : isBoreTool l = true) {rest : List (Line α)}
    (hrest : ∀ l ∈ rest, takesBoreTool l = false) :
    blocks c (s.steps (l :: rest))
      = [{ toolLine := l.number, tool, cuts := cutsFrom c (s.next l) rest }] := by
  rw [ModalState.steps, blocks]
  simp only [htool, hbore, if_true, blocks_of_none c _ hrest]
  rfl

def staysWithTool (l : Line α) : Bool := l.tool?.isNone && !l.has 'M' 30

theorem cutsFrom_cons (c : CheckingConstants α) (s : ModalState α) {l : Line α}
    (hl : staysWithTool l = true) (rest : List (Line α)) :
    cutsFrom c s (l :: rest)
      = (cut? c { line := l, before := s, after := s.next l }).toList
        ++ cutsFrom c (s.next l) rest := by
  have hwithin : isWithinBlock { line := l, before := s, after := s.next l } = true := hl
  rw [cutsFrom, ModalState.steps, List.takeWhile_cons_of_pos hwithin, List.filterMap_cons]
  cases cut? c { line := l, before := s, after := s.next l } <;> rfl

theorem cutsFrom_of_leaves (c : CheckingConstants α) (s : ModalState α) {l : Line α}
    (hl : staysWithTool l = false) (rest : List (Line α)) : cutsFrom c s (l :: rest) = [] := by
  have hwithin : ¬ isWithinBlock { line := l, before := s, after := s.next l } = true := by
    rw [show isWithinBlock { line := l, before := s, after := s.next l } = false from hl]
    decide
  rw [cutsFrom, ModalState.steps, List.takeWhile_cons_of_neg hwithin]
  rfl

/-- Only a line that moves an axis outside machine coordinates cuts. -/
theorem cut?_eq_none (c : CheckingConstants α) (s : ModalState α) {l : Line α}
    (hl : l.isMachine = true ∨ l.hasAxis = false) :
    cut? c { line := l, before := s, after := s.next l } = none := by
  have hfeed : Step.isFeedMove { line := l, before := s, after := s.next l } = false := by
    rw [Step.isFeedMove, ModalState.next_machine]
    rcases hl with h | h <;> simp [h]
  simp [cut?, hfeed]

theorem cut?_eq_none_of_motion (c : CheckingConstants α) (s : ModalState α) {l : Line α}
    (hl : (s.next l).motion ≠ .linear) :
    cut? c { line := l, before := s, after := s.next l } = none := by
  have hfeed : Step.isFeedMove { line := l, before := s, after := s.next l } = false := by
    simp [Step.isFeedMove, hl]
  simp [cut?, hfeed]

end

/-! ## Blocks without diagnostics -/

/-- No diameter is wider than the widest one before it by more than a limit. -/
def StepsWithin (limit : Rat) : Rat → List Rat → Prop
  | _, [] => True
  | reached, d :: ds => d - reached ≤ limit ∧ StepsWithin limit (max reached d) ds

/-- Where a bore only widens, the widest diameter is the last one. -/
theorem stepsWithin_of_widens {step limit reached : Rat} {ds : List Rat} (hstep : step ≤ limit)
    (h : Widens step reached ds) : StepsWithin limit reached ds := by
  induction h with
  | nil => trivial
  | cons hle hgap _ ih =>
    refine ⟨by linarith, ?_⟩
    rw [max_eq_right hle]
    exact ih

theorem stepFault?_of_le {c : CheckingConstants Rat} {reached : Rat} {cut : BoreCut Rat} (tool : Nat)
    (h : cut.diameter - reached ≤ c.maxBoreStep + c.stepTolerance) :
    stepFault? c tool reached cut = none :=
  if_neg (not_lt.2 h)

/-- Cuts by steps that are allowed have nothing to report. -/
theorem stepFaults_of_stepsWithin {c : CheckingConstants Rat} {tool : Nat} {reached : Rat}
    {cuts : List (BoreCut Rat)}
    (h : StepsWithin (c.maxBoreStep + c.stepTolerance) reached (cuts.map (·.diameter))) :
    stepFaults c tool reached cuts = [] := by
  induction cuts generalizing reached with
  | nil => rfl
  | cons cut cuts ih =>
    obtain ⟨hle, hrest⟩ := h
    rw [stepFaults, stepFault?_of_le tool hle, Scalar.larger_rat, ih hrest]
    rfl

theorem checkBlock_of_widens {c : CheckingConstants Rat} {b : BoreBlock Rat} {step first : Rat}
    {rest : List Rat} (hstep : step ≤ c.maxBoreStep + c.stepTolerance)
    (hentry : first ≤ c.safeEntryDiameter + c.stepTolerance)
    (hcuts : b.cuts.map (·.diameter) = first :: rest) (h : Widens step first rest) :
    checkBlock c b = [] := by
  obtain ⟨cut, cuts, hb, rfl, rfl⟩ := List.map_eq_cons_iff.1 hcuts
  have hfault : entryFault? c b.tool cut = none := by
    have : ¬ cut.diameter > c.safeEntryDiameter + c.stepTolerance := not_lt.2 hentry
    simp [entryFault?, this]
  rw [checkBlock, hb]
  simp only [hfault, stepFaults_of_stepsWithin (stepsWithin_of_widens hstep h)]
  rfl

end Bore
end SpacerTurning
