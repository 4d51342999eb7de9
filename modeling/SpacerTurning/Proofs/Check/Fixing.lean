import SpacerTurning.Proofs.Check.Chain
import SpacerTurning.Proofs.Number.Machine
import SpacerTurning.Proofs.Settings.Config

/-!
What the usual chain does to a program.

Programs are checked with machine numbers.  A line that a detector has written reads as its diagnostic
says unless the code ends before what was put in, or goes on behind it.  Where the code of every line
stands in front of its comment, the chain makes no move rapid that was not, keeps where the tool goes
but for the lifted heights, and leaves no move into the part that is rapid only by the lines before it.
-/

namespace SpacerTurning

open Number

/-! ## Single detectors -/

/-- What each detector makes of a line, and exactly when that is what its diagnostic says. -/
theorem Detector.rewrites_iff (c : CheckingConstants Float) (text : String) (l l' : Line Float) :
    ((rapidPlunge c).Leaves text l l' → l'.raw ≠ l.raw →
      l'.motionWord? = some .linear ∧
        ((l'.x? = l.x? ∧ l'.z? = l.z? ∧ l'.feed?.isSome = true) ↔
          l.feed?.isSome = true ∨
            (l.isEnded = false ∧ l.apart.x? = l.x? ∧ l.apart.z? = l.z?))) ∧
    ((missingFeed c).Leaves text l l' → l'.raw ≠ l.raw →
      ((l'.motionWord? = l.motionWord? ∧ l'.x? = l.x? ∧ l'.z? = l.z? ∧ l'.feed?.isSome = true) ↔
        l.isEnded = false ∧ l.apart.motionWord? = l.motionWord? ∧ l.apart.x? = l.x? ∧
          l.apart.z? = l.z?)) ∧
    ((workOffsetClearance c).Leaves text l l' → (workOffsetClearance c).Reports text l →
      l'.x? = l.x? ∧ l'.motionWord? = l.motionWord? ∧
        ((∃ z, l'.z? = some z ∧ (z == Scalar.round4 c.workOffsetClearanceZ) = true) ↔
          (l.hasInFront 'Z' = true ∧
              Scalar.isFinite (Scalar.round4 c.workOffsetClearanceZ) = true) ∨
            (l.hasInFront 'Z' = false ∧
              ∃ z, l.z? = some z ∧ (z == Scalar.round4 c.workOffsetClearanceZ) = true))) ∧
    ((bareFace c).Leaves text l l' → l'.raw ≠ l.raw →
      l'.motionWord? = some .linear ∧ (∃ z, l'.z? = some z ∧ (z == 0) = true) ∧
        l'.feed?.isSome = true) :=
  ⟨Leaves.rapidPlunge_iff, Leaves.missingFeed_iff, Leaves.workOffsetClearance_iff, Leaves.bareFace⟩

/-- Each detector on a program with one line for it. -/
theorem Detector.rewrites_iff_one_line :
    let plunge : Line Float := .parse 2 "Z-0.5 (SIDE 1)"
    let cut : Line Float := .parse 2 "G01 Z-0.5"
    let low : Line Float := .parse 2 "G00 Z0.05"
    let face : Line Float := .parse 2 "Z0"
    (∃ l', (rapidPlunge .standard).Leaves "G00 X3. Z0.2\nZ-0.5 (SIDE 1)" plunge l' ∧
      l'.raw ≠ plunge.raw ∧ l'.motionWord? = some .linear ∧ l'.x? = plunge.x? ∧
      l'.z? = plunge.z? ∧ l'.feed?.isSome = true) ∧
    (∃ l', (missingFeed .standard).Leaves "G00 X3. Z0.2\nG01 Z-0.5" cut l' ∧ l'.raw ≠ cut.raw ∧
      l'.motionWord? = cut.motionWord? ∧ l'.x? = cut.x? ∧ l'.z? = cut.z? ∧
      l'.feed?.isSome = true) ∧
    (∃ l', (workOffsetClearance .standard).Leaves "G154 P1\nG00 Z0.05" low l' ∧
      (workOffsetClearance .standard).Reports "G154 P1\nG00 Z0.05" low ∧ l'.x? = low.x? ∧
      l'.motionWord? = low.motionWord? ∧
      ∃ z, l'.z? = some z ∧
        (z == Scalar.round4 (CheckingConstants.standard : CheckingConstants Float).workOffsetClearanceZ)
          = true) ∧
    ∃ l', (bareFace .standard).Leaves "G00 X3. Z0.2\nZ0\nG01 X2.7 Z-0.15 F0.008" face l' ∧
      l'.raw ≠ face.raw ∧ l'.motionWord? = some .linear ∧ (∃ z, l'.z? = some z ∧ (z == 0) = true) ∧
      l'.feed?.isSome = true := by
  intro plunge cut low face
  have hplunge : (rapidPlunge .standard).Leaves "G00 X3. Z0.2\nZ-0.5 (SIDE 1)" plunge
      (.parse 2 "G01 Z-0.5 F0.008 (SIDE 1)") := by
    unfold Leaves
    decide +kernel
  have hcut : (missingFeed .standard).Leaves "G00 X3. Z0.2\nG01 Z-0.5" cut
      (.parse 2 "G01 Z-0.5 F0.008") := by
    unfold Leaves
    decide +kernel
  have hlow : (workOffsetClearance .standard).Leaves "G154 P1\nG00 Z0.05" low
      (.parse 2 "G00 Z0.2") := by
    unfold Leaves
    decide +kernel
  have hreport : (workOffsetClearance .standard).Reports "G154 P1\nG00 Z0.05" low := by
    unfold Reports
    decide +kernel
  have hface : (bareFace .standard).Leaves "G00 X3. Z0.2\nZ0\nG01 X2.7 Z-0.15 F0.008" face
      (.parse 2 "G01 Z0. F0.008") := by
    unfold Leaves
    decide +kernel
  refine ⟨⟨_, hplunge, by decide +kernel, ?_⟩, ⟨_, hcut, by decide +kernel, ?_⟩,
    ⟨_, hlow, hreport, ?_⟩, ⟨_, hface, by decide +kernel, ?_⟩⟩
  · obtain ⟨hmotion, hiff⟩ := (rewrites_iff _ _ _ _).1 hplunge (by decide +kernel)
    exact ⟨hmotion, hiff.2 (Or.inr (by decide +kernel))⟩
  · exact ((rewrites_iff _ _ _ _).2.1 hcut (by decide +kernel)).2 (by decide +kernel)
  · obtain ⟨hx, hmotion, hiff⟩ := (rewrites_iff _ _ _ _).2.2.1 hlow hreport
    exact ⟨hx, hmotion, hiff.2 (Or.inl (by decide +kernel))⟩
  · exact (rewrites_iff _ _ _ _).2.2.2 hface (by decide +kernel)

/-- A feed that is put behind a semicolon is not read, although the diagnostic says that the line has
one. -/
theorem Detector.not_feed_of_semicolon :
    ((rapidPlunge (α := Float) .standard).run (Line.parseText "G00 X3. Z0.2\nZ-0.5 ; cut")).lines
        = ["G00 X3. Z0.2", "G01 Z-0.5 ; cut F0.008"] ∧
      (Line.parse (α := Float) 2 "G01 Z-0.5 ; cut F0.008").feed? = none := by
  decide +kernel

/-! ## The whole chain -/

/-- Where the code of every line stands in front of its comment, the program that the chain leaves
runs like the program that it was given, line by line: no move is rapid that was not, the tool goes
where it went but for the heights that were reported as too low, and a zero, and no move goes into the
part as a rapid only because of the lines before it. -/
theorem FixChain.standard_sound {c : CheckingConstants Float} (hc : c.fault? = none) {text : String}
    (hplain : ∀ raw ∈ Text.splitLines text, IsPlainLine raw.toList) :
    let report := (standard c).run text
    let fixed := Line.parseText (report.fixedText.getD text)
    List.Forall₂ (fun o n => (n.after.motion = .rapid → o.after.motion = .rapid) ∧
        n.line.x? = o.line.x? ∧
        (LiftsHeight c report.diagnostics o.line n.line ∨ StaysAtFace o.line n.line))
      (steps (Line.parseText text)) (steps fixed) ∧
    ∀ d ∈ ((Detector.rapidPlunge c).run fixed).diagnostics,
      ∃ n ∈ steps fixed, d.line = some n.line.number ∧ n.line.motionWord? = some .rapid ∧
        ∃ z, d.finding = .rapidPlunge z false := by
  intro report fixed
  have hclear := CheckingConstants.clearance_not_le_zero hc
  have htidy : AllTidy (Text.splitLines text) := fun raw hraw =>
    .of_isPlainLine (hplain raw hraw) (Text.feed_not_mem_of_mem_splitLines hraw)
  constructor
  · refine (forall₂_steps hclear htidy).imp fun o n h => ?_
    obtain ⟨hfollows, hbecomes⟩ := h
    exact ⟨hfollows.after.motion, hfollows.line.x, hbecomes.height⟩
  · exact fun d hd => exists_rapid_of_mem hclear htidy hd

/-- A line without a comment, and one with a comment. -/
theorem isPlainLine_lift : ∀ raw ∈ Text.splitLines "G154 P1\nG00 Z0.05 (SAFE)",
    IsPlainLine raw.toList := by
  have hlines : Text.splitLines "G154 P1\nG00 Z0.05 (SAFE)" = ["G154 P1", "G00 Z0.05 (SAFE)"] := by
    decide +kernel
  rw [hlines]
  intro raw hraw
  rcases List.mem_pair.1 hraw with rfl | rfl
  · exact ⟨"G154 P1".toList, by simp, Or.inl rfl⟩
  · exact ⟨"G00 Z0.05 ".toList, by simp, Or.inr ⟨"SAFE".toList, by simp, by simp, by simp⟩⟩

theorem FixChain.standard_sound_lift :
    let c : CheckingConstants Float := .standard
    let text := "G154 P1\nG00 Z0.05 (SAFE)"
    let report := (standard c).run text
    let fixed := Line.parseText (report.fixedText.getD text)
    (c.fault? = none ∧ (∀ raw ∈ Text.splitLines text, IsPlainLine raw.toList) ∧
      report.fixedText = some "G154 P1\nG00 Z0.2 (SAFE)") ∧
    List.Forall₂ (fun o n => (n.after.motion = .rapid → o.after.motion = .rapid) ∧
        n.line.x? = o.line.x? ∧
        (LiftsHeight c report.diagnostics o.line n.line ∨ StaysAtFace o.line n.line))
      (steps (Line.parseText text)) (steps fixed) ∧
    ∀ d ∈ ((Detector.rapidPlunge c).run fixed).diagnostics,
      ∃ n ∈ steps fixed, d.line = some n.line.number ∧ n.line.motionWord? = some .rapid ∧
        ∃ z, d.finding = .rapidPlunge z false := by
  have hc : (CheckingConstants.standard : CheckingConstants Float).fault? = none := by decide +kernel
  exact ⟨⟨hc, isPlainLine_lift, by decide +kernel⟩, standard_sound hc isPlainLine_lift⟩

/-- A clearance that is too large for four places is written as zero. -/
theorem FixChain.not_lifts_to_clearance :
    let c : CheckingConstants Float :=
      { (CheckingConstants.standard : CheckingConstants Float) with workOffsetClearanceZ := 1e305 }
    let old : Line Float := .parse 2 "G00 Z0.05"
    let new : Line Float := .parse 2 "G00 Z0."
    c.fault? = none ∧
      ((standard c).run "G154 P1\nG00 Z0.05").fixedText = some "G154 P1\nG00 Z0." ∧
      new.z? ≠ old.z? ∧ ∀ u ∈ new.z?, (u == Scalar.round4 c.workOffsetClearanceZ) = false := by
  decide +kernel

end SpacerTurning
