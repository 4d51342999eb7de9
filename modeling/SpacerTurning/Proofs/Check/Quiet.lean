import SpacerTurning.Proofs.Check.Steps

/-!
Programs at which nothing is found.

A line is safe if what it does can be told from the line alone: a rapid move only goes to the
clearance height, a cut has a feed, and no line without a motion word names a height.  Every
detector looks for a line that relies on the lines before it, so that a program of safe lines passes
all of them and stays as it is.
-/

namespace SpacerTurning

open Number

variable {α : Type} [Scalar α]

/-- A line whose move does not rely on the lines before it. -/
inductive Line.IsSafe (clearance : α) (l : Line α) : Prop where
  | machine : l.isMachine = true → IsSafe clearance l
  | still : l.motionWord? = none → l.z? = none → IsSafe clearance l
  | rapid : l.motionWord? = some .rapid → (∀ z ∈ l.z?, z = clearance) → IsSafe clearance l
  | cut : l.motionWord? = some .linear → l.feed?.isSome = true → IsSafe clearance l

namespace Step

variable {clearance : α} {s : Step α}

/-- A safe rapid move to a height goes to the clearance height. -/
theorem z_eq_clearance (hs : s.after = s.before.next s.line) (hsafe : s.line.IsSafe clearance)
    (hrapid : s.isRapid = true) {z : α} (hz : s.line.z? = some z) : z = clearance := by
  rw [isRapid, hs, ModalState.next_motion, ModalState.next_machine] at hrapid
  simp only [Bool.and_eq_true, decide_eq_true_eq, Bool.not_eq_true'] at hrapid
  obtain ⟨hmotion, hmachine⟩ := hrapid
  cases hsafe with
  | machine h => rw [h] at hmachine; cases hmachine
  | still _ hnone => rw [hnone] at hz; cases hz
  | rapid _ h => exact h z hz
  | cut hword _ =>
    unfold Line.event at hmotion
    rw [hmachine, hword] at hmotion
    cases htool : s.line.tool?.isSome <;> simp [htool, MotionState.after, MotionWord.state] at hmotion

theorem plunge?_eq_none (hs : s.after = s.before.next s.line) (hsafe : s.line.IsSafe clearance)
    (hclear : clearance ≥ 0) : s.plunge? = none := by
  unfold plunge?
  split
  · next hrapid =>
    cases hz : s.line.z? with
    | none => rfl
    | some z =>
      rw [z_eq_clearance hs hsafe hrapid hz]
      simp [Option.filter, hclear]
  · rfl

theorem switchesWithoutFeed_eq_false (hsafe : s.line.IsSafe clearance) :
    s.switchesWithoutFeed = false := by
  unfold switchesWithoutFeed
  cases hsafe with
  | machine h => simp [h]
  | still h _ => simp [h]
  | rapid h _ => simp [h]
  | cut _ h =>
    have : s.line.feed?.isNone = false := by simpa [← Option.isSome_iff_ne_none] using h
    simp [this]

theorem isBareFace_eq_false (hsafe : s.line.IsSafe clearance) : s.isBareFace = false := by
  unfold isBareFace
  split
  · next w hwords =>
    by_cases hletter : w.letter = 'Z'
    · have hmachine : s.line.isMachine = false := by
        simp [Line.isMachine, Line.has, hwords, hletter]
      have hmotion : s.line.motionWord? = none := by simp [Line.motionWord?, hwords, hletter]
      have hz : s.line.z? = some w.value := by simp [Line.z?, Line.value?, hwords, hletter]
      cases hsafe with
      | machine h => rw [h] at hmachine; cases hmachine
      | still _ h => rw [h] at hz; cases hz
      | rapid h _ => rw [h] at hmotion; cases hmotion
      | cut h _ => rw [h] at hmotion; cases hmotion
    · simp [hletter]
  · rfl

end Step

namespace FixChain

theorem runLines_of_none {chain : FixChain α} {raws : List String}
    (h : ∀ pass ∈ chain, pass.apply (Line.parseAll raws) = { lines := raws, diagnostics := [] }) :
    runLines chain raws = (raws, []) := by
  induction chain with
  | nil => rfl
  | cons pass chain ih =>
    have ih := ih fun p hp => h p (List.mem_cons_of_mem _ hp)
    simp [runLines, h pass List.mem_cons_self, ih]

/-- The usual chain finds nothing in safe lines, and changes none of them. -/
theorem run_standard_of_safe {c : CheckingConstants α} {clearance : α} (hclear : clearance ≥ 0)
    (hmin : ¬ clearance < c.workOffsetMinClearance) {text : String}
    (h : ∀ l ∈ (Line.parseText text : List (Line α)), l.IsSafe clearance) :
    (standard c).run text = { diagnostics := [], fixedText := none } := by
  have hjudge (judge : Detector α)
      (hnone : ∀ before after (s : Step α), s.after = s.before.next s.line →
        s.line.IsSafe clearance → judge before s after = none) :
      judge.run (Line.parseText text) = { lines := Text.splitLines text, diagnostics := [] } := by
    rw [Detector.run_of_none, Line.parseText, Line.map_raw_parseAll]
    intro before after s hs
    obtain ⟨hafter, hline⟩ := ModalState.after_eq_of_mem hs
    exact hnone before after s hafter (h s.line hline)
  have hrun : runLines (standard c) (Text.splitLines text) = (Text.splitLines text, []) := by
    refine runLines_of_none fun pass hpass => ?_
    have hcases : pass = .rapidPlunge c ∨ pass = .missingFeed c ∨ pass = .workOffsetClearance c ∨
        pass = .bareFace c := by simpa [standard] using hpass
    rcases hcases with rfl | rfl | rfl | rfl
    · refine hjudge (.rapidPlunge c) fun before after s hs hsafe => ?_
      rw [Detector.rapidPlunge, Step.plunge?_eq_none hs hsafe hclear]
      rfl
    · refine hjudge (.missingFeed c) fun before after s hs hsafe => ?_
      rw [Detector.missingFeed, Step.switchesWithoutFeed_eq_false hsafe]
      rfl
    · refine hjudge (.workOffsetClearance c) fun before after s hs hsafe => ?_
      unfold Detector.workOffsetClearance
      split
      · next hfollows =>
        have hrapid : s.isRapid = true := by
          simp only [Detector.followsWorkOffset, Step.isRapidZ, Bool.and_eq_true] at hfollows
          exact hfollows.1.1.1
        cases hz : s.line.z? with
        | none => rfl
        | some z =>
          rw [Step.z_eq_clearance hs hsafe hrapid hz]
          simp [Option.filter, hmin]
      · rfl
    · refine hjudge (.bareFace c) fun before after s hs hsafe => ?_
      rw [Detector.bareFace, Step.isBareFace_eq_false hsafe]
      rfl
  rw [run, hrun]
  simp

end FixChain

end SpacerTurning
