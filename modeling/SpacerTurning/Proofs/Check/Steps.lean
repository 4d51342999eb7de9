import Mathlib
import SpacerTurning.Check.FixChain

/-!
Steps and verdicts.

A run of a detector gives every line of a program a step, and every step a verdict, in the order of
the lines.  What holds of one step from any state then holds of all steps of a program.
-/

namespace SpacerTurning

open Number

variable {α : Type} [Scalar α]

namespace Line

/-- Machine coordinates come first, then a tool, and then the motion word. -/
theorem event_cases (l : Line α) :
    l.isMachine = true ∧ l.event = .machineCoordinates ∨
      l.isMachine = false ∧ l.tool?.isSome = true ∧ l.event = .toolChange ∨
      l.isMachine = false ∧ l.tool?.isSome = false ∧
        ((∃ word, l.motionWord? = some word ∧ l.event = .motion word) ∨
          l.motionWord? = none ∧ l.event = .inherit) := by
  unfold event
  cases hmachine : l.isMachine with
  | true => simp
  | false =>
    cases htool : l.tool?.isSome with
    | true => simp
    | false => cases hword : l.motionWord? <;> simp

end Line

namespace ModalState

/-- A step goes from the state before its line to the state after it. -/
theorem after_eq_of_mem {s : ModalState α} {lines : List (Line α)} {st : Step α}
    (h : st ∈ s.steps lines) : st.after = st.before.next st.line ∧ st.line ∈ lines := by
  induction lines generalizing s with
  | nil => cases h
  | cons l lines ih =>
    rcases List.mem_cons.1 h with rfl | h
    · exact ⟨rfl, List.mem_cons_self⟩
    · obtain ⟨hafter, hline⟩ := ih h
      exact ⟨hafter, List.mem_cons_of_mem _ hline⟩

theorem map_line_steps (s : ModalState α) (lines : List (Line α)) :
    (s.steps lines).map (·.line) = lines := by
  induction lines generalizing s with
  | nil => rfl
  | cons l lines ih => rw [steps, List.map_cons, ih]

theorem length_steps (s : ModalState α) (lines : List (Line α)) :
    (s.steps lines).length = lines.length := by
  rw [← List.length_map (·.line), s.map_line_steps lines]

theorem forall₂_steps_left {β : Type} {R : Line α → β → Prop} {s : ModalState α}
    {lines : List (Line α)} {bs : List β} :
    List.Forall₂ (fun o b => R o.line b) (s.steps lines) bs ↔ List.Forall₂ R lines bs := by
  rw [← List.forall₂_map_left_iff (f := fun o : Step α => o.line), map_line_steps]

theorem forall₂_steps_right {β : Type} {R : β → Line α → Prop} {s : ModalState α}
    {as : List β} {lines : List (Line α)} :
    List.Forall₂ (fun a n => R a n.line) as (s.steps lines) ↔ List.Forall₂ R as lines := by
  rw [← List.forall₂_map_right_iff (f := fun n : Step α => n.line), map_line_steps]

/-- Two programs side by side: what holds of two states, and is kept by two lines of which something
holds, holds of the states around every two steps. -/
theorem forall₂_simulates {S : ModalState α → ModalState α → Prop} {R : Step α → Line α → Prop}
    (hnext : ∀ s s' l l', S s s' → R ⟨l, s, s.next l⟩ l' → S (s.next l) (s'.next l'))
    {s s' : ModalState α} (hs : S s s') {ls ls' : List (Line α)}
    (h : List.Forall₂ R (s.steps ls) ls') :
    List.Forall₂ (fun o n => R o n.line ∧ S o.before n.before ∧ S o.after n.after)
      (s.steps ls) (s'.steps ls') := by
  induction ls generalizing s s' ls' with
  | nil =>
    cases h
    exact .nil
  | cons l ls ih =>
    obtain ⟨l', ls', hl, hls, rfl⟩ := List.forall₂_cons_left_iff.1 h
    have hafter := hnext s s' l l' hs hl
    exact .cons ⟨hl, hs, hafter⟩ (ih hafter hls)

def afterLines (s : ModalState α) (lines : List (Line α)) : ModalState α := lines.foldl next s

theorem afterLines_concat (s : ModalState α) (lines : List (Line α)) (l : Line α) :
    s.afterLines (lines ++ [l]) = (s.afterLines lines).next l := by
  rw [afterLines, List.foldl_append]
  rfl

theorem next_motion (s : ModalState α) (l : Line α) :
    (s.next l).motion = s.motion.after l.event := by
  unfold next
  cases l.event <;> rfl

theorem next_machine (s : ModalState α) (l : Line α) : (s.next l).machine = l.isMachine := by
  unfold next
  rcases l.event_cases with ⟨hmachine, he⟩ | ⟨hmachine, -, he⟩ |
    ⟨hmachine, -, ⟨word, -, he⟩ | ⟨-, he⟩⟩ <;> rw [hmachine, he]

end ModalState

namespace Line

theorem map_raw_parseFrom (n : Nat) (raws : List String) :
    (parseFrom n raws : List (Line α)).map (·.raw) = raws := by
  induction raws generalizing n with
  | nil => rfl
  | cons raw raws ih =>
    rw [parseFrom, List.map_cons, ih]
    rfl

theorem map_raw_parseAll (raws : List String) :
    (parseAll raws : List (Line α)).map (·.raw) = raws := map_raw_parseFrom 1 raws

end Line

namespace Detector

omit [Scalar α] in
theorem length_verdicts (judge : Detector α) (before steps : List (Step α)) :
    (verdicts judge before steps).length = steps.length := by
  induction steps generalizing before with
  | nil => rfl
  | cons s steps ih => rw [verdicts, List.length_cons, List.length_cons, ih]

theorem length_run_lines (judge : Detector α) (lines : List (Line α)) :
    (judge.run lines).lines.length = lines.length := by
  rw [run, List.length_zipWith, length_verdicts, SpacerTurning.steps, ModalState.length_steps,
    Nat.min_self]

omit [Scalar α] in
theorem verdicts_of_none {judge : Detector α} {before steps : List (Step α)}
    (h : ∀ before after, ∀ s ∈ steps, judge before s after = none) :
    verdicts judge before steps = List.replicate steps.length none := by
  induction steps generalizing before with
  | nil => rfl
  | cons s steps ih =>
    rw [verdicts, h before steps s List.mem_cons_self,
      ih fun before after s hs => h before after s (List.mem_cons_of_mem _ hs)]
    rfl

/-- A pass that finds nothing leaves every line as it is. -/
theorem run_of_none {judge : Detector α} {lines : List (Line α)}
    (h : ∀ before after, ∀ s ∈ steps lines, judge before s after = none) :
    judge.run lines = { lines := lines.map (·.raw), diagnostics := [] } := by
  have hverdicts : verdicts judge [] (SpacerTurning.steps lines)
      = List.replicate (SpacerTurning.steps lines).length none := verdicts_of_none h
  rw [steps, ModalState.length_steps] at hverdicts
  have hlines : List.zipWith outcome lines (List.replicate lines.length none)
      = lines.map (·.raw) := by
    clear h hverdicts
    induction lines with
    | nil => rfl
    | cons l lines ih =>
      rw [List.length_cons, List.replicate_succ, List.zipWith_cons_cons, ih]
      rfl
  simp [run, steps, hverdicts, hlines]

end Detector

end SpacerTurning
