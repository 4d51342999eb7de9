import SpacerTurning.Proofs.Check.Passes
import SpacerTurning.Proofs.Number.Machine
import SpacerTurning.Settings.Config

/-!
Feeds of cuts.

A cut keeps its feed from the lines before it, and no line makes a feed forgotten.  The chain gives
a feed to a line that switches to cutting and moves an axis there.  A line that switches to cutting
and moves nothing gets none, and what then relies on it has none unless another line has one.  The
passes that come later only make cuts of lines that they give a feed, so a line that switches to
cutting at the end did so before, or a feed is known by then.
-/

namespace SpacerTurning

open Number

variable {α : Type} [Scalar α]

/-- The step that put the motion of a step in force: of the step itself and those before it, nearest
first, the first one that found another motion in force. -/
def Step.entry? (before : List (Step α)) (here : Step α) : Option (Step α) :=
  (here :: before).find? fun s => s.before.motion != here.after.motion

/-! ## Where a motion comes from -/

namespace ModalState

theorem before_eq_of_steps_eq {s : ModalState α} {lines : List (Line α)} {before : List (Step α)}
    {here : Step α} {after : List (Step α)} (h : s.steps lines = before ++ here :: after) :
    here.before = s.afterLines (before.map (·.line)) := by
  induction before generalizing s lines with
  | nil =>
    cases lines with
    | nil => cases h
    | cons l lines =>
      obtain ⟨rfl, -⟩ := List.cons.inj h
      rfl
  | cons first before ih =>
    cases lines with
    | nil => cases h
    | cons l lines =>
      obtain ⟨rfl, hrest⟩ := List.cons.inj h
      exact ih hrest

theorem after_eq_of_steps_eq {s : ModalState α} {lines : List (Line α)} {before : List (Step α)}
    {here : Step α} {after : List (Step α)} (h : s.steps lines = before ++ here :: after) :
    here.after = s.afterLines ((before ++ [here]).map (·.line)) := by
  have hmem : here ∈ s.steps lines := by rw [h]; simp
  rw [(after_eq_of_mem hmem).1, before_eq_of_steps_eq h, List.map_append]
  exact (afterLines_concat s _ here.line).symm

theorem isSome_feed_next (s : ModalState α) (l : Line α) :
    (s.next l).feed.isSome = true ↔ s.feed.isSome = true ∨ l.feed?.isSome = true := by
  have hfeed : (s.next l).feed = (l.feed? <|> s.feed) := by
    unfold next
    cases l.event <;> rfl
  rw [hfeed]
  cases hline : l.feed? with
  | some feed => simp
  | none => simp

/-- No line makes a feed forgotten, so behind lines it is known if one of them has it. -/
theorem isSome_feed_afterLines (s : ModalState α) (lines : List (Line α)) :
    (s.afterLines lines).feed.isSome = true ↔
      s.feed.isSome = true ∨ ∃ l ∈ lines, l.feed?.isSome = true := by
  induction lines using List.reverseRecOn with
  | nil => simp [afterLines]
  | append_singleton lines l ih =>
    rw [afterLines_concat, isSome_feed_next, ih]
    simp only [List.mem_append, List.mem_singleton, or_and_right, exists_or, exists_eq_left,
      or_assoc]

/-- A motion that was not in force at the start was put in force by a step.  What is known of the
feed there is known from there on. -/
theorem exists_entry {s : ModalState α} {lines : List (Line α)} {before : List (Step α)}
    {here : Step α} {after : List (Step α)} (h : s.steps lines = before.reverse ++ here :: after)
    {motion : MotionState} (hstart : s.motion ≠ motion) (hmotion : here.after.motion = motion) :
    ∃ e ∈ s.steps lines, (here :: before).find? (fun st => st.before.motion != motion) = some e ∧
      e.before.motion ≠ motion ∧ e.after.motion = motion ∧
      (e.after.feed.isSome = true → here.after.feed.isSome = true) := by
  induction before generalizing here after with
  | nil =>
    have hbefore : here.before.motion ≠ motion := by
      rw [before_eq_of_steps_eq h]
      exact hstart
    refine ⟨here, by rw [h]; simp, ?_, hbefore, hmotion, id⟩
    simp [hbefore]
  | cons previous before ih =>
    by_cases hbefore : here.before.motion = motion
    · have hhere := before_eq_of_steps_eq h
      rw [List.reverse_cons] at h hhere
      rw [List.append_assoc, List.singleton_append] at h
      rw [← after_eq_of_steps_eq h] at hhere
      obtain ⟨e, he, hfind, hother, hafter, hfeed⟩ := ih h (by rw [← hhere, hbefore])
      refine ⟨e, he, ?_, hother, hafter, fun hsome => ?_⟩
      · rw [List.find?_cons_of_neg (by simp [hbefore]), hfind]
      · have hmem : here ∈ s.steps lines := by rw [h]; simp
        rw [(after_eq_of_mem hmem).1]
        rw [isSome_feed_next, hhere]
        exact Or.inl (hfeed hsome)
    · refine ⟨here, by rw [h]; simp, ?_, hbefore, hmotion, id⟩
      rw [List.find?_cons_of_pos (by simp [hbefore])]

theorem event_of_linear {s : ModalState α} {l : Line α} (hs : s.motion ≠ .linear)
    (h : (s.next l).motion = .linear) : l.event = .motion .linear := by
  rw [next_motion] at h
  cases hevent : l.event with
  | machineCoordinates =>
    rw [hevent] at h
    cases h
  | toolChange =>
    rw [hevent] at h
    cases h
  | motion word =>
    rw [hevent] at h
    cases word with
    | linear => rfl
    | rapid => cases h
    | arcCw => cases h
    | arcCcw => cases h
  | inherit =>
    rw [hevent] at h
    exact absurd h hs

end ModalState

/-! ## What the passes keep -/

/-- What becomes of the line of a step: it gets a feed, or it does what it did, and where it asks
for a cut and moves an axis, a cut was in force before, as far as its code is read to its end. -/
def Step.Fed (o : Step α) (l : Line α) : Prop :=
  l.feed?.isSome = true ∨
    (l.event = o.line.event ∧
      (l.event = .motion .linear → l.hasAxis = true → l.isEnded = false →
        o.before.motion = .linear))

/-- A state knows a feed, or has the motion of another state. -/
def ModalState.Fed (s s' : ModalState α) : Prop := s'.feed.isSome = true ∨ s'.motion = s.motion

theorem ModalState.Fed.next {s s' : ModalState α} (hs : s.Fed s') {l l' : Line α}
    (hl : Step.Fed ⟨l, s, s.next l⟩ l') : (s.next l).Fed (s'.next l') := by
  rcases hl with hfeed | ⟨hevent, -⟩
  · exact Or.inl ((isSome_feed_next s' l').2 (Or.inr hfeed))
  · rcases hs with hfeed | hmotion
    · exact Or.inl ((isSome_feed_next s' l').2 (Or.inl hfeed))
    · right
      have hevent : l'.event = l.event := hevent
      rw [next_motion, next_motion, hevent, hmotion]

theorem Step.Fed.keep {o : Step α} {l l' : Line α} (h : o.Fed l) (hfeed : l'.feed? = l.feed?)
    (hevent : l'.event = l.event) (haxis : l'.event = .motion .linear →
      l'.hasAxis = l.hasAxis ∧ l'.isEnded = l.isEnded) : o.Fed l' := by
  unfold Fed at h ⊢
  rw [hfeed]
  refine h.imp_right fun ⟨hold, hcut⟩ => ⟨hevent.trans hold, fun hlinear hmoves hcode => ?_⟩
  obtain ⟨hsame, hended⟩ := haxis hlinear
  rw [hsame] at hmoves
  rw [hended] at hcode
  exact hcut (hevent.symm.trans hlinear) hmoves hcode

namespace Detector

variable [LawfulScalar α] {c : CheckingConstants α} {here : Step α} {l' : Line α}
  {before after : List (Step α)}

/-- A line with a feed in front of a semicolon stays the same to the reader, and stays ended. -/
theorem isEnded_insertFeed {l : Line α} (hl : l.isEnded = true) {feed : α}
    (hraw : l'.raw = Edit.insertBeforeComment l.raw (feedWord feed)) : l'.isEnded = true := by
  obtain ⟨w, v, hword, -⟩ := exists_feedWord feed
  have hopen := Edit.not_mem_insertWord (l := 'F') (by decide) w (by simp)
    (paren_not_mem_frontOf l.raw.toList)
  have hend : ';' ∈ frontOf l.raw.toList := by simpa [Line.isEnded] using hl
  have hmem : ';' ∈ frontOf l'.raw.toList := by
    rw [hraw, Edit.toList_insertWord hword, frontOf_append hopen]
    exact List.mem_append_left _
      (List.mem_append_left _ (Edit.mem_trimEnd_of_not_blank hend (by decide)))
  simpa [Line.isEnded] using hmem

/-- The second pass gives a feed to each line that switches to cutting and moves an axis. -/
theorem IsJudged.fed_missingFeed (h : (Detector.missingFeed c).IsJudged here l' before after) :
    here.Fed l' := by
  have hl := h.isRead
  have hl' := h.isRead'
  cases hjudge : Detector.missingFeed c before here after with
  | none =>
    rw [h.eq_of_none hjudge]
    have hswitches : here.switchesWithoutFeed = false := by
      unfold Detector.missingFeed at hjudge
      split at hjudge
      · cases hjudge
      · next hnot => simpa using hnot
    cases hfeed : here.line.feed? with
    | some feed => exact Or.inl (by rw [hfeed]; rfl)
    | none =>
      refine Or.inr ⟨rfl, fun hlinear hmoves _ => ?_⟩
      obtain ⟨hword, hmachine, -⟩ := Line.of_event_motion hlinear
      simpa [Step.switchesWithoutFeed, hword, hmachine, hfeed, hmoves] using hswitches
  | some v =>
    obtain ⟨-, -, feed, htext⟩ := missingFeed_eq_some hjudge
    rw [← h.raw_eq hjudge] at htext
    cases hended : here.line.isEnded with
    | true =>
      have hend : ';' ∈ frontOf here.line.raw.toList := by simpa [Line.isEnded] using hended
      have hwords : l'.words = here.line.words := by
        rw [hl'.words, htext, Edit.lineWords_insert_of_ended hend, hl.words]
      have hcode := isEnded_insertFeed hended htext
      refine Or.inr ⟨Line.event_congr (by rw [hwords]) (by rw [hwords]), fun _ _ hnot => ?_⟩
      rw [hcode] at hnot
      cases hnot
    | false =>
      have hend := (Line.isEnded_eq_false _).1 hended
      refine Or.inl ((Line.feed?_isSome _).2 ?_)
      rw [hl'.words, htext, Ne, wordsWith_feed_insertFeed]
      exact fun hboth => hend hboth.1

/-- The third pass changes no line that asks for a cut. -/
theorem IsJudged.fed_workOffsetClearance
    (h : (Detector.workOffsetClearance c).IsJudged here l' before after) {o : Step α}
    (ho : o.Fed here.line) : o.Fed l' := by
  have hwords {letter : Char} (hletter : letter ≠ 'Z') := h.wordsWith_workOffsetClearance hletter
  cases hjudge : Detector.workOffsetClearance c before here after with
  | none =>
    rwa [h.eq_of_none hjudge]
  | some v =>
    have hevent : l'.event = here.line.event :=
      Line.event_congr (hwords (by decide)) (hwords (by decide))
    refine ho.keep (Line.value?_congr (hwords (by decide))) hevent fun hlinear => ?_
    have hrapid : here.after.motion = .rapid := by
      unfold Detector.workOffsetClearance at hjudge
      split at hjudge
      · next hfollows =>
        simp only [followsWorkOffset, Step.isRapidZ, Step.isRapid, Bool.and_eq_true,
          decide_eq_true_eq] at hfollows
        exact hfollows.1.1.1.1
      · cases hjudge
    rw [h.state, ModalState.next_motion, ← hevent, hlinear] at hrapid
    cases hrapid

/-- The last pass gives a feed to each line that it changes. -/
theorem IsJudged.fed_bareFace (h : (Detector.bareFace c).IsJudged here l' before after) {o : Step α}
    (ho : o.Fed here.line) : o.Fed l' := by
  cases hjudge : Detector.bareFace c before here after with
  | none =>
    rwa [h.eq_of_none hjudge]
  | some v =>
    obtain ⟨-, -, -, feed, htext⟩ := bareFace_eq_some hjudge
    rw [← h.raw_eq hjudge] at htext
    obtain ⟨-, -, -, -, hfeed⟩ := Line.face_reads h.isRead' htext h.isRead.comment
    exact Or.inl hfeed

end Detector

/-! ## The whole chain -/

omit [Scalar α] in
theorem isEnded_of_trimsTo {l l' : Line α} (h : TrimsTo l.raw l'.raw) : l'.isEnded = l.isEnded := by
  obtain ⟨g, hraw, hblank⟩ := h
  have hiff := semicolon_mem_frontOf_append_blanks hblank l'.raw.toList
  rw [← hraw] at hiff
  unfold Line.isEnded
  rw [Bool.eq_iff_iff, List.contains_iff_mem, List.contains_iff_mem, hiff]

namespace FixChain

section

variable [LawfulScalar α]

theorem forall₂_fed (c : CheckingConstants α) (raws : List String) :
    List.Forall₂ (Step.Fed (α := α))
      (steps (Line.parseAll ((Detector.rapidPlunge c).run (Line.parseAll raws)).lines))
      (Line.parseAll (runLines (standard c) raws).1) := by
  rw [runLines_standard]
  generalize ((Detector.rapidPlunge c).run (Line.parseAll raws : List (Line α))).lines = first
  dsimp only
  have hsecond : List.Forall₂ (Step.Fed (α := α)) (steps (Line.parseAll first))
      (Line.parseAll ((Detector.missingFeed c).run (Line.parseAll first)).lines) :=
    Detector.forall₂_run (Detector.isLocal_missingFeed c) fun here _ _ _ _ hjudged _ =>
      hjudged.fed_missingFeed
  generalize ((Detector.missingFeed c).run (Line.parseAll first : List (Line α))).lines = second
    at hsecond ⊢
  have hthird : List.Forall₂ (fun l l' : Line α => ∀ o : Step α, o.Fed l → o.Fed l')
      (Line.parseAll second)
      (Line.parseAll ((Detector.workOffsetClearance c).run (Line.parseAll second)).lines) :=
    Detector.forall₂_lines (Detector.isLocal_workOffsetClearance c)
      fun here _ _ _ _ hjudged _ _ ho => hjudged.fed_workOffsetClearance ho
  generalize ((Detector.workOffsetClearance c).run (Line.parseAll second : List (Line α))).lines
    = third at hthird ⊢
  have hlast : List.Forall₂ (fun l l' : Line α => ∀ o : Step α, o.Fed l → o.Fed l')
      (Line.parseAll third)
      (Line.parseAll ((Detector.bareFace c).run (Line.parseAll third)).lines) :=
    Detector.forall₂_lines (Detector.isLocal_bareFace c)
      fun here _ _ _ _ hjudged _ _ ho => hjudged.fed_bareFace ho
  have hboth := forall₂_comp (fun o _ _ ho hkeep => hkeep o ho) hsecond hthird
  exact forall₂_comp (fun o _ _ ho hkeep => hkeep o ho) hboth hlast

/-- The program that the second pass is given, and the program at the end, step by step. -/
theorem forall₂_fed_steps (c : CheckingConstants α) (text : String) :
    List.Forall₂ (fun o n : Step α => o.Fed n.line ∧ o.before.Fed n.before ∧ o.after.Fed n.after)
      (steps (Line.parseAll
        ((Detector.rapidPlunge c).run (Line.parseAll (Text.splitLines text))).lines))
      (steps (Line.parseText (((standard c).run text).fixedText.getD text))) := by
  have hreread := forall₂_reread (keepLines_standard c (Text.splitLines text))
  refine ModalState.forall₂_simulates (S := ModalState.Fed) (fun _ _ _ _ hs hl => hs.next hl)
    (Or.inr rfl) ?_
  refine forall₂_comp (fun o l l' ho hsame => ?_) (forall₂_fed c (Text.splitLines text)) hreread
  obtain ⟨-, htrims, hwords⟩ := hsame
  refine ho.keep (Line.value?_congr (by rw [hwords])) ?_ fun _ => ⟨?_, isEnded_of_trimsTo htrims⟩
  · exact Line.event_congr (by rw [hwords]) (by rw [hwords])
  · unfold Line.hasAxis Line.x? Line.z? Line.value?
    rw [hwords]

end

/-- Whatever cuts at the end has a feed exactly when a line up to there has one.  That is so if the
line that switched to cutting found a feed or has one, or if it moved an axis, as far as its code is
read to its end. -/
theorem feed_of_entry (c : CheckingConstants Float) (text : String)
    (before : List (Step Float)) (here : Step Float) (after : List (Step Float))
    (hsteps : steps (Line.parseText (((standard c).run text).fixedText.getD text))
      = before.reverse ++ here :: after)
    (hcuts : here.isFeedMove = true) :
    ∃ e, here.entry? before = some e ∧ e.line.event = .motion .linear ∧
      (here.after.feed.isSome = true ↔ ∃ s ∈ here :: before, s.line.feed?.isSome = true) ∧
      (e.before.feed.isSome = true ∨ e.line.feed?.isSome = true ∨
          e.line.hasAxis = true ∧ e.line.isEnded = false →
        here.after.feed.isSome = true) := by
  have hlinear : here.after.motion = .linear := by
    simp only [Step.isFeedMove, Bool.and_eq_true, decide_eq_true_eq] at hcuts
    exact hcuts.1.1
  obtain ⟨e, he, hfind, hother, hmotion, hknown⟩ :=
    ModalState.exists_entry hsteps (by simp) hlinear
  have hstate := (ModalState.after_eq_of_mem he).1
  have hevent : e.line.event = .motion .linear := by
    rw [hstate] at hmotion
    exact ModalState.event_of_linear hother hmotion
  refine ⟨e, ?_, hevent, ?_, fun hentry => hknown ?_⟩
  · unfold Step.entry?
    rw [hlinear]
    exact hfind
  · rw [ModalState.after_eq_of_steps_eq hsteps, ModalState.isSome_feed_afterLines]
    simp [or_comm]
  · rw [hstate, ModalState.isSome_feed_next]
    rcases hentry with hfound | hword | ⟨hmoves, hcode⟩
    · exact Or.inl hfound
    · exact Or.inr hword
    · obtain ⟨o, -, hline, hbefore, -⟩ := forall_of_forall₂_right (forall₂_fed_steps c text) e he
      rcases hline with hsome | ⟨-, hcut⟩
      · exact Or.inr hsome
      · -- The line was no switch for the second pass, so the motion differs by a line with a feed.
        rcases hbefore with hsome | hsame
        · exact Or.inl hsome
        · exact absurd (hsame.trans (hcut hevent hmoves hcode)) hother

set_option maxRecDepth 100000 in
/-- A line that switches to cutting and moves is given a feed, which the next line keeps. -/
theorem feed_of_entry_next_line :
    let c : CheckingConstants Float := .standard
    let text := "G01 X1.\nX2."
    ∃ (before : List (Step Float)) (here : Step Float) (after : List (Step Float)),
      steps (Line.parseText (((standard c).run text).fixedText.getD text))
        = before.reverse ++ here :: after ∧
      here.line.x? = some 2 ∧ here.isFeedMove = true ∧ here.after.feed.isSome = true := by
  intro c text
  let first : Step Float := ⟨.parse 1 "G01 X1. F0.008", {}, .next {} (.parse 1 "G01 X1. F0.008")⟩
  let here : Step Float := ⟨.parse 2 "X2.", first.after, first.after.next (.parse 2 "X2.")⟩
  have hsteps : steps (Line.parseText (((standard c).run text).fixedText.getD text))
      = [first].reverse ++ here :: [] := by decide
  have hcuts : here.isFeedMove = true := by decide
  have hentry : here.entry? [first] = some first := by decide
  obtain ⟨e, he, -, -, hfeed⟩ := feed_of_entry c text [first] here [] hsteps hcuts
  rw [hentry] at he
  obtain rfl := Option.some.inj he
  exact ⟨[first], here, [], hsteps, by decide, hcuts,
    hfeed (Or.inr (Or.inr ⟨by decide, by decide⟩))⟩

set_option maxRecDepth 100000 in
/-- A line that switches to cutting and moves nothing is given no feed, and what relies on it has
none. -/
theorem not_feed_of_still_entry :
    let c : CheckingConstants Float := .standard
    c.fault? = none ∧ ((standard c).run "G01\nX1.").fixedText = none ∧
      ∃ here ∈ steps (Line.parseText "G01\nX1." : List (Line Float)),
        here.isFeedMove = true ∧ here.after.feed = none := by
  decide

end FixChain

end SpacerTurning
