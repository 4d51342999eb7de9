import SpacerTurning.Proofs.Check.Faces
import SpacerTurning.Proofs.Number.Machine
import SpacerTurning.Settings.Config

/-!
Chains that are run again.

A program that the chain has left is run through the chain again.  Each pass finds nothing in what
it has left itself, and what the passes behind it write brings nothing back, as long as every word
that is put into a line is read there.  There is one exception, which the order of the passes makes:
the last pass may change which rapid move is the first one behind a work offset.
-/

namespace SpacerTurning

open Number

variable {α : Type} [Scalar α] [LawfulScalar α] {c : CheckingConstants α}

/-! ## What is not found stays away -/

theorem NoInheritedPlunge.next {lines lines' : List (Line α)} (hold : NoInheritedPlunge lines)
    (h : List.Forall₂ Step.Mends (steps lines) lines') : NoInheritedPlunge lines' := by
  refine noInheritedPlunge_of_mends (((List.forall₂_and_left _ _).2 ⟨hold, h⟩).imp ?_)
  rintro o l ⟨hquiet, hmends⟩
  refine ⟨hmends.follows, fun hinherited hsome => ?_⟩
  rw [hquiet hinherited] at hsome
  cases hsome

omit [LawfulScalar α] in
theorem NoBareSwitch.next {lines lines' : List (Line α)} (hold : NoBareSwitch lines)
    (h : List.Forall₂ Step.Mends (steps lines) lines') : NoBareSwitch lines' := by
  refine noBareSwitch_of_mends (((List.forall₂_and_left _ _).2 ⟨hold, h⟩).imp ?_)
  rintro o l ⟨hquiet, hmends⟩
  refine ⟨hmends, fun hswitches => ?_⟩
  rw [hquiet] at hswitches
  cases hswitches

/-- The last pass brings nothing back that the first two passes have mended. -/
theorem Step.Faces.mends {t : Step α} {l : Line α} (h : t.Faces l)
    (hnumber : l.number = t.line.number) : t.Mends l := by
  rcases h with hwords | ⟨hbare, hinherited, hrapid, hface⟩
  · exact ⟨Line.follows_of_words hnumber hwords, Or.inl (Line.event_of_words hwords),
      Or.inr fun letter _ => by rw [hwords]⟩
  · have hinherit : t.line.event = .inherit := by simpa [Step.isInherited] using hinherited
    obtain ⟨z, hwords, hz0⟩ := Step.exists_of_isBareFace hbare
    obtain ⟨u, hu, hu0⟩ := hface.z
    have hx : t.line.x? = none := by simp [Line.x?, Line.value?, hwords]
    have hz : t.line.z? = some z := by simp [Line.z?, Line.value?, hwords]
    have hsafe : SafeHeight t.line.z? l.z? := Or.inr ⟨z, u, hz, hu,
      LawfulScalar.nonneg_of_zero hz0, LawfulScalar.nonneg_of_zero hu0⟩
    exact ⟨⟨hnumber, Or.inr ⟨hinherit, hface.event⟩, by rw [hx, hface.x], hsafe⟩, Or.inr hrapid,
      Or.inl hface.feed⟩

/-! ## Passes that leave everything -/

namespace Detector

omit [LawfulScalar α] in
theorem run_lines_rapidPlunge {raws : List String}
    (h : NoInheritedPlunge (Line.parseAll raws : List (Line α))) :
    ((rapidPlunge c).run (Line.parseAll raws)).lines = raws := by
  refine run_lines_eq_of_forall fun i v here hhere hv => ?_
  rw [at?_eq hhere] at hv
  obtain ⟨z, hplunge, -, -, htext⟩ := rapidPlunge_eq_some hv
  split at htext
  · next hinherited =>
    rw [h here (List.mem_of_getElem? hhere) hinherited] at hplunge
    cases hplunge
  · exact htext

omit [LawfulScalar α] in
theorem run_lines_missingFeed {raws : List String}
    (h : NoBareSwitch (Line.parseAll raws : List (Line α))) :
    ((missingFeed c).run (Line.parseAll raws)).lines = raws := by
  refine run_lines_eq_of_forall fun i v here hhere hv => ?_
  rw [at?_eq hhere] at hv
  obtain ⟨hswitches, -⟩ := missingFeed_eq_some hv
  rw [h here (List.mem_of_getElem? hhere)] at hswitches
  cases hswitches

omit [LawfulScalar α] in
theorem run_lines_of_none {judge : Detector α} {raws : List String}
    (h : ∀ i, judge.at? (Line.parseAll raws) i = none) :
    (judge.run (Line.parseAll raws)).lines = raws := by
  refine run_lines_eq_of_forall fun i v here _ hv => ?_
  rw [h i] at hv
  cases hv

end Detector

/-! ## The chain, run twice -/

namespace FixChain

/-- What the chain leaves: a run beside the run of a program at which the third pass finds nothing.
-/
theorem exists_isFaced (hc : c.Settles) {raws : List String}
    (htakes : TakesWords (runLines (standard c) raws).2 (Line.parseAll raws))
    {lines' : List (Line α)}
    (h : List.Forall₂ (fun l l' : Line α => l'.number = l.number ∧ l'.words = l.words)
      (Line.parseAll (runLines (standard c) raws).1) lines') :
    NoInheritedPlunge lines' ∧ NoBareSwitch lines' ∧ ∃ third,
      (∀ i, (Detector.workOffsetClearance c).at? (Line.parseAll third) i = none) ∧
      IsFaced (Line.parseAll third) lines' ∧
      ∀ d ∈ ((Detector.bareFace c).run (Line.parseAll third)).diagnostics,
        d ∈ (runLines (standard c) raws).2 := by
  rw [runLines_standard] at htakes h ⊢
  dsimp only at htakes h ⊢
  generalize hfirst : (Detector.rapidPlunge c).run (Line.parseAll raws) = first at htakes h ⊢
  generalize hsecond : (Detector.missingFeed c).run (Line.parseAll first.lines) = second
    at htakes h ⊢
  generalize hthird : (Detector.workOffsetClearance c).run (Line.parseAll second.lines) = third
    at htakes h ⊢
  -- The first pass leaves nothing that it would mend.
  have hmends₁ := Detector.forall₂_rapidPlunge (htakes.canMend (List.forall₂_same.2 fun l _ =>
    Or.inl rfl) (Detector.isLocal_rapidPlunge c) (Detector.sparesCuts_rapidPlunge c)
    fun d hd => by simp [hfirst ▸ hd])
  rw [hfirst] at hmends₁
  have hplunge₁ : NoInheritedPlunge (Line.parseAll first.lines : List (Line α)) :=
    noInheritedPlunge_of_mends (hmends₁.imp fun _ _ hl => ⟨hl.1.follows, hl.2.2⟩)
  have hstays₁ : List.Forall₂ Line.StaysOrCuts (Line.parseAll raws : List (Line α))
      (Line.parseAll first.lines) :=
    ModalState.forall₂_steps_left.1 (hmends₁.imp fun _ _ hl => hl.2.1)
  -- Neither does the second one.
  have hmends₂ := Detector.forall₂_missingFeed (htakes.canMend hstays₁
    (Detector.isLocal_missingFeed c) (Detector.sparesCuts_missingFeed c)
    fun d hd => by simp [hsecond ▸ hd])
  rw [hsecond] at hmends₂
  have hplunge₂ := hplunge₁.next (hmends₂.imp fun _ _ hl => hl.1)
  have hswitch₂ : NoBareSwitch (Line.parseAll second.lines : List (Line α)) :=
    noBareSwitch_of_mends (hmends₂.imp fun _ _ hl => ⟨hl.1, hl.2.2⟩)
  have hstays₂ : List.Forall₂ Line.StaysOrCuts (Line.parseAll first.lines : List (Line α))
      (Line.parseAll second.lines) :=
    ModalState.forall₂_steps_left.1 (hmends₂.imp fun _ _ hl => hl.2.1)
  have hstays : List.Forall₂ Line.StaysOrCuts (Line.parseAll raws : List (Line α))
      (Line.parseAll second.lines) := forall₂_comp (fun _ _ _ h h' => h.trans h') hstays₁ hstays₂
  -- Nor the third one.
  have hmend₃ := htakes.canMend hstays (Detector.isLocal_workOffsetClearance c)
    (Detector.sparesCuts_workOffsetClearance c) fun d hd => by simp [hthird ▸ hd]
  have hmends₃ := (Detector.forall₂_workOffsetClearance hc.positive hmend₃).imp fun _ _ hl => hl.1
  have hnone := Detector.workOffsetClearance_at?_run hc hmend₃
  rw [hthird] at hmends₃ hnone
  have hplunge₃ := hplunge₂.next hmends₃
  have hswitch₃ := hswitch₂.next hmends₃
  -- The last pass brings none of it back.
  have hfaced := Detector.isFaced_run (h.imp fun _ _ hl => hl.2)
  have hnumber : List.Forall₂ (fun (t : Step α) l => l.number = t.line.number)
      (steps (Line.parseAll third.lines)) lines' :=
    forall₂_comp (fun _ _ _ hl hl' => hl'.trans hl) (Detector.forall₂_run
      (R := fun t l => l.number = t.line.number) (Detector.isLocal_bareFace c)
      fun _ _ _ _ _ hjudged _ => hjudged.number) (h.imp fun _ _ hl => hl.1)
  have hfaces : List.Forall₂ Step.Faces (steps (Line.parseAll third.lines)) lines' :=
    ModalState.forall₂_steps_right.1 (hfaced.states.imp fun _ _ hl => hl.1)
  have hmends₄ : List.Forall₂ Step.Mends (steps (Line.parseAll third.lines)) lines' :=
    hfaces.mp (fun _ _ hface hsame => hface.mends hsame) hnumber
  exact ⟨hplunge₃.next hmends₄, hswitch₃.next hmends₄, third.lines, hnone, hfaced,
    fun d hd => by simp [hd]⟩

omit [LawfulScalar α] in
/-- Where the first two passes find nothing to mend, the chain goes on with the other two. -/
theorem run_of_quiet {text : String}
    (hplunge : NoInheritedPlunge (Line.parseText text : List (Line α)))
    (hswitch : NoBareSwitch (Line.parseText text : List (Line α))) :
    let third := (Detector.workOffsetClearance c).run (Line.parseText text)
    (runLines (standard c) (Text.splitLines text)).1
        = ((Detector.bareFace c).run (Line.parseAll third.lines)).lines ∧
      ∀ d ∈ third.diagnostics, d ∈ ((standard c).run text).diagnostics := by
  intro third
  have hrun := runLines_standard c (Text.splitLines text)
  simp only [Detector.run_lines_rapidPlunge hplunge, Detector.run_lines_missingFeed hswitch] at hrun
  refine ⟨by rw [hrun]; rfl, fun d hd => ?_⟩
  show d ∈ (runLines (standard c) (Text.splitLines text)).2
  rw [hrun]
  simp only [List.mem_append]
  exact Or.inr (Or.inr (Or.inl hd))

/-- What the chain leaves stays as it is when the chain is run again.  It does not only where a face
that has become a cut stands directly before a work offset, and the chamfer that it belongs to two
lines behind that: then the third pass may find another first move behind the work offset. -/
theorem settles (hc : c.Settles) {text fixed : String}
    (htakes : TakesWords ((standard c).run text).diagnostics (Line.parseText text))
    (hfixed : ((standard c).run text).fixedText = some fixed) :
    ((standard c).run fixed).fixedText = none ∨
      ∃ n, (∃ d ∈ ((standard c).run text).diagnostics, d.line = some n ∧
          d.finding = .bareFace (n + 3)) ∧
        (∃ l ∈ (Line.parseText fixed : List (Line α)), l.number = n + 1 ∧ l.has 'G' 154 = true) ∧
        ∃ d ∈ ((standard c).run fixed).diagnostics, ∃ z,
          d.finding = .lowClearance z c.workOffsetMinClearance := by
  have hreread := forall₂_reread (keepLines_standard c (Text.splitLines text))
  rw [hfixed, Option.getD_some] at hreread
  obtain ⟨hplunge, hswitch, third, hnone, hfaced, hsubset⟩ :=
    exists_isFaced hc htakes (hreread.imp fun _ _ hl => ⟨hl.1, hl.2.2⟩)
  obtain ⟨hlines, hreported⟩ := run_of_quiet (c := c) hplunge hswitch
  by_cases hquiet : ∀ i, (Detector.workOffsetClearance c).at? (Line.parseText fixed) i = none
  · left
    have hface : ∀ i, (Detector.bareFace c).at? (Line.parseText fixed) i = none := by
      intro i
      cases hg : (steps (Line.parseText fixed : List (Line α)))[i]? with
      | none => rw [Detector.at?, hg]; rfl
      | some g =>
        have hnot := hfaced.not_facedAt_again hc hg
        rw [← Detector.bareFace_at?_isSome (c := c) hg] at hnot
        simpa using hnot
    rw [Line.parseText, Detector.run_lines_of_none hquiet, Detector.run_lines_of_none hface]
      at hlines
    simp only [run, hlines, if_true]
  · right
    push Not at hquiet
    obtain ⟨i, hi⟩ := hquiet
    obtain ⟨v, hv⟩ := Option.ne_none_iff_exists'.1 hi
    obtain ⟨b, s, o, chamfer, hs, hface, ho, hoffset, hchamfer, hk⟩ :=
      hfaced.exists_offset hc hnone hv
    refine ⟨b + 1, ?_, ?_, ?_⟩
    · obtain ⟨d, hd, hline, hfinding⟩ :=
        Detector.exists_diagnostic_of_facedAt (c := c) hs hface hchamfer
      refine ⟨d, hsubset d hd, ?_, ?_⟩
      · rw [hline, Step.number_of_getElem? hs]
      · rw [hfinding, Step.number_of_getElem? hk]
    · obtain ⟨g, hg, -⟩ := hfaced.exists_right ho
      refine ⟨g.line, (ModalState.after_eq_of_mem (List.mem_of_getElem? hg)).2,
        Step.number_of_getElem? hg, ?_⟩
      rw [← hfaced.offset_eq ho hg, hoffset]
    · obtain ⟨here, -, hjudge⟩ := Option.bind_eq_some_iff.1 hv
      obtain ⟨-, -, z, -, -, -, hfinding⟩ := Detector.workOffsetClearance_eq_some hjudge
      have hmem := Detector.mem_diagnostics_iff.2 ⟨i, v, hv, rfl⟩
      exact ⟨v.diagnostic, hreported _ hmem, z, hfinding⟩

end FixChain

/-! ## The constants of the shop -/

open Number.Binary64

/-- A zero is as far away as any other zero, of either sign. -/
theorem Step.moves_of_zero {z a b : Float} (ha : (a == 0) = true) (hb : (b == 0) = true) :
    Step.moves (some z) (some a) = Step.moves (some z) (some b) := by
  have hA := isZero_of_beq ha isZero_ofNat_zero
  have hB := isZero_of_beq hb isZero_ofNat_zero
  rcases sub_of_isZero z hA hB with hsame | ⟨hzero, hzero'⟩
  · simp only [moves, hsame]
  · have hstill {x : Float} (hx : IsZero x) : ¬ Scalar.magnitude x > 0.000000001 := by
      have heq := beq_of_isZero (isZero_magnitude hx) isZero_ofNat_zero
      rw [gt_iff_lt, float_lt_congr_right heq]
      decide
    simp only [moves, hstill hzero, hstill hzero']

theorem CheckingConstants.settles_standard :
    (CheckingConstants.standard : CheckingConstants Float).Settles where
  positive := by decide
  low hz := by
    rw [float_lt_congr_left hz]
    decide
  high hz := by
    have hfinite : Scalar.isFinite (Scalar.round4
        (CheckingConstants.standard : CheckingConstants Float).workOffsetClearanceZ) = true := by
      decide
    rw [if_pos hfinite] at hz
    rw [float_lt_congr_left hz]
    decide
  sub_zero := Step.moves_of_zero

namespace FixChain

/-- Run again with the constants of the shop, the chain leaves what it left.  Either that, or the
last pass has made a cut of a face that stands directly before a work offset, three lines before its
chamfer, and the third pass finds a move too low behind it. -/
theorem run_again (text fixed : String) :
    let c : CheckingConstants Float := .standard
    TakesWords ((standard c).run text).diagnostics (Line.parseText text) →
    ((standard c).run text).fixedText = some fixed →
    ((standard c).run fixed).fixedText = none ∨
      ∃ n, (∃ d ∈ ((standard c).run text).diagnostics, d.line = some n ∧
          d.finding = .bareFace (n + 3)) ∧
        (∃ l ∈ (Line.parseText fixed : List (Line Float)),
          l.number = n + 1 ∧ l.has 'G' 154 = true) ∧
        ∃ d ∈ ((standard c).run fixed).diagnostics, ∃ z,
          d.finding = .lowClearance z c.workOffsetMinClearance := by
  intro c htakes hfixed
  exact settles CheckingConstants.settles_standard htakes hfixed

set_option maxRecDepth 100000 in
/-- A cut without a feed is given one, and the second run finds nothing. -/
theorem run_again_feed :
    let c : CheckingConstants Float := .standard
    let text := "G01 X1. (CUT)"
    let fixed := "G01 X1. F0.008 (CUT)"
    TakesWords ((standard c).run text).diagnostics (Line.parseText text) ∧
      ((standard c).run text).fixedText = some fixed ∧
      ((standard c).run fixed).fixedText = none := by
  intro c text fixed
  have hfirst : TakesWords ((standard c).run text).diagnostics (Line.parseText text) ∧
      ((standard c).run text).fixedText = some fixed := by decide
  have hquiet : ((standard c).run fixed).diagnostics = [] := by decide
  refine ⟨hfirst.1, hfirst.2, (run_again text fixed hfirst.1 hfirst.2).resolve_right ?_⟩
  rintro ⟨n, -, -, d, hd, -⟩
  rw [hquiet] at hd
  cases hd

/-- A face before a work offset becomes a cut, and the move behind the offset with it.  So a later
move is the first one behind the offset, and it is too low. -/
theorem not_run_again_before_offset :
    let c : CheckingConstants Float := .standard
    let text := "G0\nZ0\nG154\nZ1\nG1X1Z-1F1\nG0Z0"
    let fixed := "G0\nG01 Z0. F1.\nG154\nZ1\nG1X1Z-1F1\nG0Z0"
    ((standard c).run text).fixedText = some fixed ∧
      ((standard c).run fixed).fixedText = some "G0\nG01 Z0. F1.\nG154\nZ1\nG1X1Z-1F1\nG0Z0.2" := by
  decide +kernel

end FixChain

end SpacerTurning
