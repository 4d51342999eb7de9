import SpacerTurning.Number.Binary64
import SpacerTurning.Proofs.Check.Home
import SpacerTurning.Proofs.Check.Positions
import SpacerTurning.Proofs.Check.Renumbered
import SpacerTurning.Proofs.Number.Machine

/-!
What a sequence number hides.

The first three passes find the same in two programs that differ in sequence numbers, and leave two
such programs.  The last pass takes a face for bare if its line is nothing but a height, so that a
sequence number in the line hides it.  It hides nothing else.
-/

namespace SpacerTurning

open Number

variable {α : Type}

/-- Of some lines, the one with this number reads a sequence number. -/
def Line.numberedAt (lines : List (Line α)) (n : Nat) : Bool :=
  lines.any fun l => l.number = n && l.isNumbered

/-- What a sequence number hides: a bare face, in a line that reads one. -/
def Diagnostic.isHidden (numbered : Nat → Bool) (d : Diagnostic α) : Bool :=
  match d.finding, d.line with
  | .bareFace _, some n => numbered n
  | _, _ => false

variable [Scalar α]

/-- What is reported of a step does not depend on what would mend it. -/
theorem Step.Renumbered.alarm?_diagnostic {numbered : Nat → Bool} {o n : Step α}
    (h : o.Renumbered numbered n) (finding : Finding α) (fix fix' : String) :
    (n.diagnostic finding fix').alarm? = (o.diagnostic finding fix).alarm? := by
  unfold Diagnostic.alarm? Step.diagnostic
  rw [h.line.number]
  rfl

/-! ## Passes -/

namespace Detector

/-- A detector finds the same in both programs, but for what a sequence number hides. -/
def ReportsAlike (numbered : Nat → Bool) (judge : Detector α) : Prop :=
  ∀ ⦃before before' after after' : List (Step α)⦄ ⦃here here' : Step α⦄,
    List.Forall₂ (Step.Renumbered numbered) before before' → here.Renumbered numbered here' →
    List.Forall₂ (Step.Renumbered numbered) after after' →
    (judge before' here' after').map (·.diagnostic.alarm?)
      = ((judge before here after).filter fun v => !v.diagnostic.isHidden numbered).map
          (·.diagnostic.alarm?)

/-- A detector makes lines that differ in sequence numbers only of such lines. -/
def KeepsNumbers (numbered : Nat → Bool) (judge : Detector α) : Prop :=
  ∀ ⦃before before' after after' : List (Step α)⦄ ⦃here here' : Step α⦄ ⦃l l' : Line α⦄,
    List.Forall₂ (Step.Renumbered numbered) before before' → here.Renumbered numbered here' →
    judge.IsJudged here l before after → judge.IsJudged here' l' before' after' →
    l.Renumbered numbered l'

variable {numbered : Nat → Bool} {judge : Detector α}

/-- The verdicts on two programs, from any two places at which the steps before correspond. -/
theorem ReportsAlike.map_alarm?_verdicts (hjudge : judge.ReportsAlike numbered)
    {before before' st st' : List (Step α)}
    (hbefore : List.Forall₂ (Step.Renumbered numbered) before before')
    (hsteps : List.Forall₂ (Step.Renumbered numbered) st st') :
    ((judge.verdicts before' st').filterMap fun v => v.map (·.diagnostic)).map Diagnostic.alarm?
      = (((judge.verdicts before st).filterMap fun v => v.map (·.diagnostic)).filter
          fun d => !d.isHidden numbered).map Diagnostic.alarm? := by
  induction hsteps generalizing before before' with
  | nil => rfl
  | @cons o n st st' hhere hafter ih =>
    have hsaid := hjudge hbefore hhere hafter
    have hrest := ih (.cons hhere hbefore)
    rw [verdicts, verdicts, List.filterMap_cons, List.filterMap_cons]
    cases hold : judge before o st with
    | none =>
      rw [hold, Option.filter_none, Option.map_none, Option.map_eq_none_iff] at hsaid
      rw [hsaid]
      exact hrest
    | some v =>
      rw [hold] at hsaid
      cases hhidden : v.diagnostic.isHidden numbered with
      | true =>
        have hnew : judge before' n st' = none := by simpa [Option.filter, hhidden] using hsaid
        rw [hnew]
        simpa [hhidden] using hrest
      | false =>
        obtain ⟨v', hnew, halarm⟩ : ∃ v', judge before' n st' = some v' ∧
            v'.diagnostic.alarm? = v.diagnostic.alarm? := by
          simpa [Option.filter, hhidden] using hsaid
        rw [hnew]
        simpa [hhidden, halarm] using hrest

theorem ReportsAlike.map_alarm?_run (hjudge : judge.ReportsAlike numbered)
    {lines lines' : List (Line α)} (h : List.Forall₂ (Line.Renumbered numbered) lines lines') :
    (judge.run lines').diagnostics.map Diagnostic.alarm?
      = ((judge.run lines).diagnostics.filter fun d => !d.isHidden numbered).map
          Diagnostic.alarm? :=
  hjudge.map_alarm?_verdicts .nil (ModalState.forall₂_renumbered h)

theorem KeepsNumbers.forall₂_run (hjudge : judge.KeepsNumbers numbered) {raws raws' : List String}
    (h : List.Forall₂ (Line.Renumbered (α := α) numbered) (Line.parseAll raws)
      (Line.parseAll raws')) :
    List.Forall₂ (Line.Renumbered (α := α) numbered)
      (Line.parseAll (judge.run (Line.parseAll raws)).lines)
      (Line.parseAll (judge.run (Line.parseAll raws')).lines) := by
  have hsteps := ModalState.forall₂_renumbered h
  have hlength (rs : List String) :
      (Line.parseAll (judge.run (Line.parseAll rs)).lines : List (Line α)).length
        = (steps (Line.parseAll rs : List (Line α))).length := by
    rw [← List.length_map fun l : Line α => l.raw, Line.map_raw_parseAll, length_run_lines,
      steps, ModalState.length_steps]
  refine List.forall₂_iff_get.2 ⟨by rw [hlength, hlength, hsteps.length_eq], fun i hi hi' => ?_⟩
  obtain ⟨o, hhere⟩ : ∃ o, (steps (Line.parseAll raws : List (Line α)))[i]? = some o :=
    ⟨_, List.getElem?_eq_getElem (by rwa [← hlength])⟩
  obtain ⟨n, hn, hrenumbered⟩ := exists_getElem?_of_forall₂ hsteps hhere
  obtain ⟨l, hl, hjudged⟩ := exists_isJudged_at judge hhere
  obtain ⟨l', hl', hjudged'⟩ := exists_isJudged_at judge hn
  have hbefore := List.forall₂_reverse_iff.2 (List.forall₂_take i hsteps)
  have hnew := hjudge hbefore hrenumbered hjudged hjudged'
  rw [List.getElem?_eq_some_iff] at hl hl'
  obtain ⟨_, rfl⟩ := hl
  obtain ⟨_, rfl⟩ := hl'
  exact hnew

/-! ## What the passes find -/

variable (c : CheckingConstants α)

theorem map_alarm?_some {v v' : Verdict α} (hplain : v.diagnostic.isHidden numbered = false)
    (halarm : v'.diagnostic.alarm? = v.diagnostic.alarm?) :
    (some v').map (·.diagnostic.alarm?)
      = ((some v).filter fun v => !v.diagnostic.isHidden numbered).map (·.diagnostic.alarm?) := by
  simp [Option.filter, hplain, halarm]

theorem reportsAlike_rapidPlunge : (rapidPlunge c).ReportsAlike numbered := by
  intro before before' after after' here here' _ hhere _
  rw [rapidPlunge, rapidPlunge, hhere.plunge?, hhere.isInherited]
  cases here.plunge? with
  | none => rfl
  | some z =>
    cases here.isInherited with
    | true => exact map_alarm?_some rfl (hhere.alarm?_diagnostic _ _ _)
    | false => exact map_alarm?_some rfl (hhere.alarm?_diagnostic _ _ _)

theorem reportsAlike_missingFeed : (missingFeed c).ReportsAlike numbered := by
  intro before before' after after' here here' _ hhere _
  rw [missingFeed, missingFeed, hhere.switchesWithoutFeed]
  split
  · exact map_alarm?_some rfl (hhere.alarm?_diagnostic _ _ _)
  · rfl

theorem reportsAlike_workOffsetClearance : (workOffsetClearance c).ReportsAlike numbered := by
  intro before before' after after' here here' hbefore hhere _
  rw [workOffsetClearance, workOffsetClearance, hhere.followsWorkOffset hbefore, hhere.line.z?]
  split
  · cases here.line.z?.filter fun z => decide (0 ≤ z) && decide (z < c.workOffsetMinClearance) with
    | none => rfl
    | some z => exact map_alarm?_some rfl (hhere.alarm?_diagnostic _ _ _)
  · rfl

theorem reportsAlike_bareFace : (bareFace c).ReportsAlike numbered := by
  intro before before' after after' here here' _ hhere hafter
  have hchamfer := Step.Renumbered.chamferAfter? hafter
  rw [bareFace, bareFace, hhere.isInherited, hhere.after]
  cases hinherited : here.isInherited with
  | false => simp
  | true =>
    rw [hhere.isBareFace hinherited]
    -- A face that is found in the first program is found in the second, or is the hidden one.
    by_cases hface : here.isBareFace = true ∧ here.after.motion = .rapid
    · obtain ⟨hface, hrapid⟩ := hface
      cases hold : chamferAfter? after with
      | none =>
        have hnew : chamferAfter? after' = none := by simpa [hold] using hchamfer
        simp [hnew]
      | some s =>
        obtain ⟨s', hnew, hline⟩ : ∃ s', chamferAfter? after' = some s' ∧
            s'.line.number = s.line.number := by
          simpa [hold] using hchamfer
        have hhidden (fix : String) :
            (here.diagnostic (.bareFace s.line.number) fix).isHidden numbered
              = numbered here.line.number := rfl
        cases hread : numbered here.line.number with
        | true => simp [hface, hrapid, Option.filter, hhidden, hread]
        | false =>
          rw [hread] at hhidden
          simp only [hface, hrapid, hnew, Bool.not_false, Bool.and_self, decide_true, if_true]
          refine map_alarm?_some (hhidden _) ?_
          dsimp only
          rw [hline]
          exact hhere.alarm?_diagnostic _ _ _
    · rcases not_and_or.1 hface with hface | hrapid
      · simp [hface]
      · simp [hrapid]

/-! ## What the passes leave -/

theorem outcome_rapidPlunge (before after : List (Step α)) (here : Step α) :
    outcome here.line (rapidPlunge c before here after)
      = if here.plunge?.isSome = true ∧ here.isInherited = true then
          here.line.cutText ((here.line.feed? <|>
            Step.precedingFeed? c.lookaheadLines before).getD c.defaultSafeFeed)
        else here.line.raw := by
  unfold rapidPlunge
  cases here.plunge? with
  | none => rfl
  | some z => cases here.isInherited <;> rfl

theorem outcome_missingFeed (before after : List (Step α)) (here : Step α) :
    outcome here.line (missingFeed c before here after)
      = if here.switchesWithoutFeed = true then
          Edit.insertBeforeComment here.line.raw (feedWord
            ((Step.precedingFeed? c.lookaheadLines before).getD c.defaultSafeFeed))
        else here.line.raw := by
  unfold missingFeed
  split <;> rfl

theorem outcome_workOffsetClearance (before after : List (Step α)) (here : Step α) :
    outcome here.line (workOffsetClearance c before here after)
      = if followsWorkOffset c.contextLines before here = true ∧
            (here.line.z?.filter fun z => decide (0 ≤ z) &&
              decide (z < c.workOffsetMinClearance)).isSome = true then
          Edit.replaceWord here.line.raw 'Z' ("Z" ++ Word.format c.workOffsetClearanceZ)
        else here.line.raw := by
  unfold workOffsetClearance
  cases here.line.z?.filter fun z => decide (0 ≤ z) && decide (z < c.workOffsetMinClearance) <;>
    cases followsWorkOffset c.contextLines before here <;> rfl

/-- Two lines are mended alike if the same is found of both and what they become then differs in
sequence numbers only. -/
theorem IsJudged.renumbered {before before' after after' : List (Step α)} {here here' : Step α}
    {l l' : Line α} (h : judge.IsJudged here l before after)
    (h' : judge.IsJudged here' l' before' after') (hhere : here.Renumbered numbered here')
    {found : Prop} [Decidable found] {mended mended' : String}
    (houtcome : outcome here.line (judge before here after)
      = if found then mended else here.line.raw)
    (houtcome' : outcome here'.line (judge before' here' after')
      = if found then mended' else here'.line.raw)
    (hmended : found → l.raw = mended → l'.raw = mended' → l.Renumbered numbered l') :
    l.Renumbered numbered l' := by
  have hraw := h.raw.trans houtcome
  have hraw' := h'.raw.trans houtcome'
  by_cases hfound : found
  · rw [if_pos hfound] at hraw hraw'
    exact hmended hfound hraw hraw'
  · rw [if_neg hfound] at hraw hraw'
    rw [h.isRead.eq_of_raw h.isRead' h.number hraw, h'.isRead.eq_of_raw h'.isRead' h'.number hraw']
    exact hhere.line

section

variable [LawfulScalar α]

theorem keepsNumbers_rapidPlunge : (rapidPlunge c).KeepsNumbers numbered := by
  intro before before' after after' here here' l l' hbefore hhere h h'
  have houtcome' := outcome_rapidPlunge c before' after' here'
  rw [hhere.plunge?, hhere.isInherited, hhere.line.feed?,
    Step.Renumbered.precedingFeed? hbefore] at houtcome'
  refine h.renumbered h' hhere (outcome_rapidPlunge c before after here) houtcome'
    fun hfound hraw hraw' => ?_
  have hevent : here.line.event = .inherit := by simpa [Step.isInherited] using hfound.2
  exact hhere.line.cut h.isRead' h'.isRead' h.number h'.number hevent hraw hraw'

theorem keepsNumbers_missingFeed : (missingFeed c).KeepsNumbers numbered := by
  intro before before' after after' here here' l l' hbefore hhere h h'
  have houtcome' := outcome_missingFeed c before' after' here'
  rw [hhere.switchesWithoutFeed, Step.Renumbered.precedingFeed? hbefore] at houtcome'
  refine h.renumbered h' hhere (outcome_missingFeed c before after here) houtcome'
    fun hfound hraw hraw' => ?_
  exact hhere.line.insertFeed h.isRead' h'.isRead' h.number h'.number
    (Step.feed?_of_switches hfound) hraw hraw'

theorem keepsNumbers_workOffsetClearance : (workOffsetClearance c).KeepsNumbers numbered := by
  intro before before' after after' here here' l l' hbefore hhere h h'
  have houtcome' := outcome_workOffsetClearance c before' after' here'
  rw [hhere.followsWorkOffset hbefore, hhere.line.z?] at houtcome'
  refine h.renumbered h' hhere (outcome_workOffsetClearance c before after here) houtcome'
    fun hfound hraw hraw' => ?_
  have hlinear : here.line.motionWord? ≠ some .linear := by
    intro hlinear
    have hrapid := Step.isRapid_of_linear h.state hlinear
    simp [followsWorkOffset, Step.isRapidZ, hrapid] at hfound
  exact hhere.line.height h.isRead' h'.isRead' h.number h'.number hlinear hraw hraw'

end

end Detector

/-! ## The whole chain -/

theorem Line.eq_of_number {n : Nat} {raws : List String} {l m : Line α}
    (hl : l ∈ parseFrom n raws) (hm : m ∈ parseFrom n raws) (h : l.number = m.number) : l = m := by
  obtain ⟨i, hi⟩ := List.mem_iff_getElem?.1 hl
  obtain ⟨j, hj⟩ := List.mem_iff_getElem?.1 hm
  rw [getElem?_parseFrom, Option.map_eq_some_iff] at hi hj
  obtain ⟨raw, hraw, rfl⟩ := hi
  obtain ⟨raw', hraw', rfl⟩ := hj
  obtain rfl : i = j := Nat.add_left_cancel (show n + i = n + j from h)
  rw [hraw] at hraw'
  rw [Option.some.inj hraw']

theorem Line.numberedAt_of_mem {n : Nat} {raws : List String} {l : Line α}
    (h : l ∈ parseFrom n raws) :
    numberedAt (parseFrom n raws : List (Line α)) l.number = l.isNumbered := by
  rw [Bool.eq_iff_iff, numberedAt, List.any_eq_true]
  constructor
  · rintro ⟨m, hm, hsame⟩
    simp only [Bool.and_eq_true, decide_eq_true_eq] at hsame
    rw [eq_of_number h hm hsame.1.symm]
    exact hsame.2
  · exact fun hread => ⟨l, h, by simp [hread]⟩

/-- Programs that differ in sequence numbers, as they are read. -/
theorem Line.forall₂_renumbered {raws raws' : List String}
    (h : List.Forall₂ (fun raw raw' => IsNumbered raw.toList raw'.toList) raws raws') :
    List.Forall₂ (Line.Renumbered (numberedAt (parseAll raws' : List (Line α))))
      (parseAll raws : List (Line α)) (parseAll raws') := by
  have hlines : List.Forall₂ (fun l l' : Line α => l.IsRead ∧ l'.IsRead ∧ l'.number = l.number ∧
      IsNumbered l.raw.toList l'.raw.toList) (parseAll raws) (parseAll raws') :=
    forall₂_parseFrom (fun n raw raw' hraw => ⟨isRead_parse n raw, isRead_parse n raw', rfl, hraw⟩)
      h 1
  have hboth := (List.forall₂_and_left _ _).2 ⟨fun l' hl' => numberedAt_of_mem hl', hlines.flip⟩
  refine hboth.flip.imp fun l l' ⟨hread, hl, hl', hnumber, hraw⟩ => ?_
  refine ⟨hl, hl', hnumber, fun hletter => ?_, Or.inl ⟨hraw, fun _ => ?_⟩⟩
  · rw [hl.words, hl'.words, hraw.wordsWith_lineWords hletter]
  · rw [← hnumber, ← hread]
    rfl

namespace FixChain

theorem map_alarm?_runLines [LawfulScalar α] (c : CheckingConstants α) {numbered : Nat → Bool}
    {raws raws' : List String}
    (h : List.Forall₂ (Line.Renumbered (α := α) numbered) (Line.parseAll raws)
      (Line.parseAll raws')) :
    (runLines (standard c) raws').2.map Diagnostic.alarm?
      = ((runLines (standard c) raws).2.filter fun d => !d.isHidden numbered).map
          Diagnostic.alarm? := by
  have hfirst := (Detector.keepsNumbers_rapidPlunge c).forall₂_run h
  have hsecond := (Detector.keepsNumbers_missingFeed c).forall₂_run hfirst
  have hthird := (Detector.keepsNumbers_workOffsetClearance c).forall₂_run hsecond
  rw [runLines_standard, runLines_standard]
  simp only [List.map_append, List.filter_append,
    (Detector.reportsAlike_rapidPlunge c).map_alarm?_run h,
    (Detector.reportsAlike_missingFeed c).map_alarm?_run hfirst,
    (Detector.reportsAlike_workOffsetClearance c).map_alarm?_run hsecond,
    (Detector.reportsAlike_bareFace c).map_alarm?_run hthird]
  rfl

/-- With sequence numbers in front of any of its lines, a program is reported for what it is reported
for without them, but for the bare faces in lines that read a number then. -/
theorem alarms_of_isNumbered (c : CheckingConstants Float) {text text' : String}
    (h : List.Forall₂ (fun raw raw' => IsNumbered raw.toList raw'.toList)
      (Text.splitLines text) (Text.splitLines text')) :
    let found := ((standard c).run text).diagnostics
    let found' := ((standard c).run text').diagnostics
    let hidden (d : Diagnostic Float) :=
      d.isHidden (Line.numberedAt (Line.parseText text' : List (Line Float)))
    found'.map Diagnostic.alarm? = (found.filter fun d => !hidden d).map Diagnostic.alarm? ∧
      (found'.map Diagnostic.alarm? = found.map Diagnostic.alarm? ↔
        ∀ d ∈ found, hidden d = false) := by
  intro found found' hidden
  have halarms : found'.map Diagnostic.alarm?
      = (found.filter fun d => !hidden d).map Diagnostic.alarm? :=
    map_alarm?_runLines c (Line.forall₂_renumbered h)
  refine ⟨halarms, ?_⟩
  rw [halarms]
  constructor
  · intro hsame d hd
    have hlength := congrArg List.length hsame
    rw [List.length_map, List.length_map, List.length_filter_eq_length_iff] at hlength
    simpa using hlength d hd
  · intro hnone
    rw [List.filter_eq_self.2 fun d hd => by simp [hnone d hd]]

set_option maxRecDepth 100000 in
/-- A plunge is reported behind a sequence number, and the bare face is not. -/
theorem alarms_of_isNumbered_plunge :
    let text := "G00 X3.7 Z0.2\nZ0\nG01 X3.4 Z-0.15 F0.004\nG00 Z-0.5"
    let text' := "G00 X3.7 Z0.2\nN20 Z0\nG01 X3.4 Z-0.15 F0.004\nN40 G00 Z-0.5"
    List.Forall₂ (fun raw raw' => IsNumbered raw.toList raw'.toList)
        (Text.splitLines text) (Text.splitLines text') ∧
      ((standard (α := Float) .standard).run text').diagnostics.map Diagnostic.alarm?
        = [some { severity := .critical, message := "rapid move into part at Z-0.5", line := 4 }] := by
  intro text text'
  have hlines : List.Forall₂ (fun raw raw' => IsNumbered raw.toList raw'.toList)
      (Text.splitLines text) (Text.splitLines text') := by
    have hsplit : Text.splitLines text
        = ["G00 X3.7 Z0.2", "Z0", "G01 X3.4 Z-0.15 F0.004", "G00 Z-0.5"] := by decide +kernel
    have hsplit' : Text.splitLines text' = ["G00 X3.7 Z0.2", "N" ++ "20" ++ " " ++ "Z0",
        "G01 X3.4 Z-0.15 F0.004", "N" ++ "40" ++ " " ++ "G00 Z-0.5"] := by decide +kernel
    rw [hsplit, hsplit']
    exact .cons (.same _) (.cons (isNumbered_append (by simp [AllDigits]) (by simp) _)
      (.cons (.same _) (.cons (isNumbered_append (by simp [AllDigits]) (by simp) _) .nil)))
  exact ⟨hlines, (alarms_of_isNumbered .standard hlines).1.trans (by decide +kernel)⟩

/-- A bare face is reported without a sequence number, and not behind one. -/
theorem not_alarms_of_isNumbered_face :
    let text := "G00 X3.7 Z0.2\nZ0\nG01 X3.4 Z-0.15 F0.004"
    let text' := "G00 X3.7 Z0.2\nN20 Z0\nG01 X3.4 Z-0.15 F0.004"
    let c : CheckingConstants Float := .standard
    c.fault? = none ∧ Text.splitLines text' = (Text.splitLines text).modify 1 ("N20 " ++ ·) ∧
      ((standard c).run text).diagnostics.map Diagnostic.alarm?
        = [some
            { severity := .warning
              message := "bare Z0 rapids onto the face before the chamfer at line 3"
              line := 2 }] ∧
      ((standard c).run text').diagnostics = [] := by
  decide +kernel

end FixChain

end SpacerTurning
