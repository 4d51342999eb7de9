import SpacerTurning.Proofs.Check.Passes
import SpacerTurning.Proofs.Check.Positions

/-!
What the first passes leave for good.

A pass that puts a word into a line where it is read leaves nothing that it would find again: no
move into the part that relies on the lines before it, and no switch to cutting without a feed.
Whatever a later pass writes brings none of them back, since it either keeps all words but the
heights, or makes a cut with a feed of a rapid move.
-/

namespace SpacerTurning

open Number

variable {α : Type} [Scalar α]

/-! ## Lines that take a word -/

omit [Scalar α] in
/-- The letter of the word that is put into a line to mend what is found there. -/
def Finding.wordLetter? : Finding α → Option Char
  | .rapidPlunge _ true | .missingFeed => some 'F'
  | .lowClearance .. => some 'Z'
  | _ => none

/-- That word is read when it is put into the line. -/
def Finding.Takes (finding : Finding α) (l : Line α) : Prop :=
  (finding.wordLetter? = some 'F' → l.TakesFeed) ∧
    (finding.wordLetter? = some 'Z' → l.hasInFront 'Z' = true)

/-- The lines that are reported can be mended. -/
def TakesWords (ds : List (Diagnostic α)) (lines : List (Line α)) : Prop :=
  ∀ d ∈ ds, ∀ l ∈ lines, d.line = some l.number → d.finding.Takes l

section

variable [DecidableEq α]

instance (l : Line α) : Decidable l.TakesFeed := inferInstanceAs (Decidable (_ ∨ _))

instance (finding : Finding α) (l : Line α) : Decidable (finding.Takes l) :=
  inferInstanceAs (Decidable (_ ∧ _))

instance (ds : List (Diagnostic α)) (lines : List (Line α)) : Decidable (TakesWords ds lines) :=
  inferInstanceAs (Decidable (∀ d ∈ ds, ∀ l ∈ lines, d.line = some l.number → d.finding.Takes l))

end

/-- A line stays as it is, or it asks for a cut and has a feed. -/
def Line.StaysOrCuts (l l' : Line α) : Prop :=
  l' = l ∨ (l'.motionWord? = some .linear ∧ l'.feed?.isSome = true)

theorem Line.StaysOrCuts.trans {a b c : Line α} (hab : a.StaysOrCuts b) (hbc : b.StaysOrCuts c) :
    a.StaysOrCuts c := by
  rcases hbc with rfl | hcut
  · exact hab
  · exact Or.inr hcut

theorem Line.motion_of_linear {l : Line α} (h : l.motionWord? = some .linear) (s : ModalState α) :
    (s.next l).motion ≠ .rapid := by
  rw [ModalState.next_motion, event, h]
  cases l.isMachine <;> cases l.tool?.isSome <;> simp [MotionState.after, MotionWord.state]

namespace Detector

/-- The lines that a detector reports of a program can be mended. -/
def CanMend (judge : Detector α) (raws : List String) : Prop :=
  ∀ here ∈ steps (Line.parseAll raws), ∀ before after v, judge before here after = some v →
    v.diagnostic ∈ (judge.run (Line.parseAll raws)).diagnostics →
    v.diagnostic.finding.Takes here.line

/-- A detector finds nothing wrong with a cut that has a feed. -/
def SparesCuts (judge : Detector α) : Prop :=
  ∀ before here after v, judge before here after = some v →
    here.after = here.before.next here.line → here.line.motionWord? = some .linear →
    here.line.feed? = none

theorem sparesCuts_rapidPlunge (c : CheckingConstants α) : (rapidPlunge c).SparesCuts := by
  intro before here after v hv hstate hlinear
  obtain ⟨z, hplunge, -⟩ := rapidPlunge_eq_some hv
  have hrapid := (Step.plunge?_eq_some.1 hplunge).1
  simp only [Step.isRapid, Bool.and_eq_true, decide_eq_true_eq] at hrapid
  rw [hstate] at hrapid
  exact absurd hrapid.1 (Line.motion_of_linear hlinear _)

theorem sparesCuts_missingFeed (c : CheckingConstants α) : (missingFeed c).SparesCuts :=
  fun _ _ _ _ hv _ _ => Step.feed?_of_switches (missingFeed_eq_some hv).1

theorem sparesCuts_workOffsetClearance (c : CheckingConstants α) :
    (workOffsetClearance c).SparesCuts := by
  intro before here after v hv hstate hlinear
  unfold workOffsetClearance at hv
  split at hv
  · next hfollows =>
    simp only [followsWorkOffset, Step.isRapidZ, Step.isRapid, Bool.and_eq_true,
      decide_eq_true_eq] at hfollows
    have hrapid := hfollows.1.1.1.1
    rw [hstate] at hrapid
    exact absurd hrapid (Line.motion_of_linear hlinear _)
  · cases hv

end Detector

/-- No line is mended twice: one that is found again is what it was. -/
theorem TakesWords.canMend {ds : List (Diagnostic α)} {lines : List (Line α)}
    (h : TakesWords ds lines) {raws : List String}
    (hstays : List.Forall₂ Line.StaysOrCuts lines (Line.parseAll raws)) {judge : Detector α}
    (hlocal : judge.IsLocal) (hspares : judge.SparesCuts)
    (hsubset : ∀ d ∈ (judge.run (Line.parseAll raws)).diagnostics, d ∈ ds) :
    judge.CanMend raws := by
  intro here hhere before after v hv hd
  obtain ⟨hstate, hmem⟩ := ModalState.after_eq_of_mem hhere
  have hline := hlocal _ _ _ v hv
  obtain ⟨l, hl, hsame | ⟨hlinear, hfeed⟩⟩ := forall_of_forall₂_right hstays here.line hmem
  · rw [hsame] at hline ⊢
    exact h v.diagnostic (hsubset _ hd) l hl hline
  · rw [hspares _ _ _ v hv hstate hlinear] at hfeed
    cases hfeed

/-! ## Mended lines in a run -/

/-- A state follows another one closely: it has the same motion, or a cut in place of a rapid move.
-/
def ModalState.Cuts (s s' : ModalState α) : Prop :=
  s'.motion = s.motion ∨ (s.motion = .rapid ∧ s'.motion = .linear)

/-- What becomes of the line of a step: it keeps all words but its heights, or it has a feed; and
where it does something else, it was a rapid move that is a cut now. -/
structure Step.Mends (o : Step α) (l : Line α) : Prop where
  follows : o.line.Follows l
  rapid : l.event = o.line.event ∨ o.after.motion = .rapid
  words : l.feed?.isSome = true ∨
    ∀ letter, letter ≠ 'Z' → wordsWith letter l.words = wordsWith letter o.line.words

theorem Step.Mends.refl (o : Step α) : o.Mends o.line :=
  ⟨.refl o.line, Or.inl rfl, Or.inr fun _ _ => rfl⟩

namespace ModalState.Cuts

variable {s s' : ModalState α}

/-- A line that does the same keeps it that way. -/
theorem next_of_event (hs : s.Cuts s') {l l' : Line α} (h : l'.event = l.event) :
    (s.next l).Cuts (s'.next l') := by
  unfold Cuts
  rw [next_motion, next_motion, h]
  cases l.event with
  | machineCoordinates => exact Or.inl rfl
  | toolChange => exact Or.inl rfl
  | motion word => exact Or.inl rfl
  | inherit => exact hs

/-- So does a cut in the place of a rapid move. -/
theorem next_of_rapid {l l' : Line α} (h : (s.next l).motion = .rapid)
    (hcut : l'.event = .motion .linear) : (s.next l).Cuts (s'.next l') := by
  refine Or.inr ⟨h, ?_⟩
  rw [next_motion, hcut]
  rfl

theorem next (hs : s.Cuts s') {l l' : Line α} (hl : Step.Mends ⟨l, s, s.next l⟩ l') :
    (s.next l).Cuts (s'.next l') := by
  rcases hl.follows.event with hevent | ⟨hinherit, hlinear⟩
  · exact hs.next_of_event hevent
  · rcases hl.rapid with hsame | hrapid
    · exact hs.next_of_event hsame
    · exact next_of_rapid hrapid hlinear

theorem steps (hs : s.Cuts s') {ls ls' : List (Line α)}
    (h : List.Forall₂ Step.Mends (s.steps ls) ls') :
    List.Forall₂ (fun o n => o.Mends n.line ∧ o.before.Cuts n.before ∧ o.after.Cuts n.after)
      (s.steps ls) (s'.steps ls') :=
  forall₂_simulates (fun _ _ _ _ hs hl => hs.next hl) hs h

end ModalState.Cuts

/-! ## Nothing left to find -/

/-- Nothing goes into the part as a rapid move only because of the lines before it. -/
def NoInheritedPlunge (lines : List (Line α)) : Prop :=
  ∀ s ∈ steps lines, s.isInherited = true → s.plunge? = none

/-- Nothing switches to cutting and moves without a feed. -/
def NoBareSwitch (lines : List (Line α)) : Prop :=
  ∀ s ∈ steps lines, s.switchesWithoutFeed = false

theorem noInheritedPlunge_of_mends [LawfulScalar α] {lines lines' : List (Line α)}
    (h : List.Forall₂ (fun (o : Step α) l => o.line.Follows l ∧
      (o.isInherited = true → o.plunge?.isSome = true → l.event = .motion .linear))
      (steps lines) lines') : NoInheritedPlunge lines' := by
  intro n hn hinherited
  have hinherit : n.line.event = .inherit := by simpa [Step.isInherited] using hinherited
  have hfollows : List.Forall₂ Line.Follows lines lines' :=
    ModalState.forall₂_steps_left.1 (h.imp fun _ _ hl => hl.1)
  have hstart : ModalState.Follows ({} : ModalState α) {} := ⟨id, .refl _⟩
  have hboth : List.Forall₂ (fun o n : Step α => o.Follows n ∧ (o.isInherited = true →
      o.plunge?.isSome = true → n.line.event = .motion .linear)) (steps lines) (steps lines') :=
    (hstart.steps hfollows).mp (fun _ _ hf hc => ⟨hf, hc⟩)
      (ModalState.forall₂_steps_right.2 (h.imp fun _ _ hl => hl.2))
  obtain ⟨o, -, hfollows, hcut⟩ := forall_of_forall₂_right hboth n hn
  by_contra hplunge
  obtain ⟨z, hz⟩ := Option.ne_none_iff_exists'.1 hplunge
  have hold := hfollows.plunge?_eq_some hinherit hz
  have holdInherit := hfollows.line.event_inherit hinherit
  have hlinear := hcut (by simpa [Step.isInherited] using holdInherit) (by rw [hold]; rfl)
  rw [hinherit] at hlinear
  cases hlinear

theorem noBareSwitch_of_mends {lines lines' : List (Line α)}
    (h : List.Forall₂ (fun (o : Step α) l => o.Mends l ∧
      (o.switchesWithoutFeed = true → l.feed?.isSome = true)) (steps lines) lines') :
    NoBareSwitch lines' := by
  intro n hn
  have hstart : ModalState.Cuts ({} : ModalState α) {} := Or.inl rfl
  have hboth : List.Forall₂ (fun o n : Step α => (o.Mends n.line ∧ o.before.Cuts n.before ∧
      o.after.Cuts n.after) ∧ (o.switchesWithoutFeed = true → n.line.feed?.isSome = true))
      (steps lines) (steps lines') :=
    (hstart.steps (h.imp fun _ _ hl => hl.1)).mp (fun _ _ hm hf => ⟨hm, hf⟩)
      (ModalState.forall₂_steps_right.2 (h.imp fun _ _ hl => hl.2))
  obtain ⟨o, -, ⟨hmends, hbefore, -⟩, hfeed⟩ := forall_of_forall₂_right hboth n hn
  by_contra hswitches
  simp only [Step.switchesWithoutFeed, Bool.not_eq_false, Bool.and_eq_true, beq_iff_eq,
    Bool.not_eq_true', bne_iff_ne, Option.isNone_iff_eq_none] at hswitches
  obtain ⟨⟨⟨⟨hmotion, hmachine⟩, hother⟩, hnone⟩, haxis⟩ := hswitches
  -- Without a feed, the line is what it was, and the motion before it was another one then, too.
  have hwords := hmends.words.resolve_left (by simp [hnone])
  have hold : o.switchesWithoutFeed = true := by
    have hmotion' : o.line.motionWord? = some .linear := by
      rw [← hmotion]
      exact (Line.motionWord?_congr (hwords 'G' (by decide))).symm
    have hmachine' : o.line.isMachine = false := by
      rw [← hmachine]
      exact (Line.isMachine_congr (hwords 'G' (by decide))).symm
    have hnone' : o.line.feed? = none := by
      rw [← hnone]
      exact (Line.value?_congr (hwords 'F' (by decide))).symm
    have hother' : o.before.motion ≠ .linear := by
      rcases hbefore with hsame | ⟨-, hlinear⟩
      · rwa [← hsame]
      · exact absurd hlinear hother
    have haxis' : o.line.hasAxis = true := by
      have hz : n.line.z?.isSome = o.line.z?.isSome := by
        rcases hmends.follows.z with hz | ⟨u, v, hu, hv, -⟩
        · rw [hz]
        · rw [hu, hv]
          rfl
      have hx : n.line.x? = o.line.x? := Line.value?_congr (hwords 'X' (by decide))
      rwa [Line.hasAxis, hx, hz] at haxis
    simp [Step.switchesWithoutFeed, hmotion', hmachine', hnone', hother', haxis']
  have hsome := hfeed hold
  rw [hnone] at hsome
  cases hsome

/-! ## The passes -/

namespace Detector

variable [LawfulScalar α] {c : CheckingConstants α} {here : Step α} {l' : Line α}
  {before after : List (Step α)}

theorem IsJudged.mends_rapidPlunge (h : (Detector.rapidPlunge c).IsJudged here l' before after)
    (htakes : ∀ v, Detector.rapidPlunge c before here after = some v →
      v.diagnostic.finding.Takes here.line) :
    here.Mends l' ∧ here.line.StaysOrCuts l' ∧
      (here.isInherited = true → here.plunge?.isSome = true → l'.event = .motion .linear) := by
  cases hjudge : Detector.rapidPlunge c before here after with
  | none =>
    have hnone : here.plunge? = none := Option.map_eq_none_iff.1 hjudge
    rw [h.eq_of_none hjudge, hnone]
    exact ⟨.refl here, Or.inl rfl, fun _ hsome => by cases hsome⟩
  | some v =>
    obtain ⟨z, hplunge, -, hfinding, htext⟩ := rapidPlunge_eq_some hjudge
    rw [← h.raw_eq hjudge] at htext
    cases hinherited : here.isInherited with
    | false =>
      rw [hinherited, if_neg (by decide)] at htext
      rw [h.isRead.eq_of_raw h.isRead' h.number htext]
      exact ⟨.refl here, Or.inl rfl, fun hyes => by cases hyes⟩
    | true =>
      rw [hinherited, if_pos rfl] at htext
      obtain ⟨feed, htext⟩ := htext
      have hevent : here.line.event = .inherit := by simpa [Step.isInherited] using hinherited
      have hline := (htakes v hjudge).1 (by rw [hfinding, hinherited]; rfl)
      obtain ⟨hlinear, hx, hz, hfeed⟩ := Line.cut_reads h.isRead h.isRead' htext hevent hline
      have hrapid := (Step.plunge?_eq_some.1 hplunge).1
      simp only [Step.isRapid, Bool.and_eq_true, decide_eq_true_eq] at hrapid
      exact ⟨⟨⟨h.number, Or.inr ⟨hevent, hlinear⟩, hx, Or.inl hz⟩, Or.inr hrapid.1, Or.inl hfeed⟩,
        Or.inr ⟨Line.motionWord?_of_event hlinear, hfeed⟩, fun _ _ => hlinear⟩

theorem IsJudged.mends_missingFeed (h : (Detector.missingFeed c).IsJudged here l' before after)
    (htakes : ∀ v, Detector.missingFeed c before here after = some v →
      v.diagnostic.finding.Takes here.line) :
    here.Mends l' ∧ here.line.StaysOrCuts l' ∧
      (here.switchesWithoutFeed = true → l'.feed?.isSome = true) := by
  cases hjudge : Detector.missingFeed c before here after with
  | none =>
    rw [h.eq_of_none hjudge]
    refine ⟨.refl here, Or.inl rfl, fun hswitches => ?_⟩
    simp [Detector.missingFeed, hswitches] at hjudge
  | some v =>
    obtain ⟨hswitches, -, feed, htext⟩ := missingFeed_eq_some hjudge
    have hfinding : v.diagnostic.finding = .missingFeed := by
      simp only [Detector.missingFeed, hswitches, if_true, Option.some.injEq] at hjudge
      rw [← hjudge]
      rfl
    have hline := (htakes v hjudge).1 (by rw [hfinding]; rfl)
    rw [← h.raw_eq hjudge] at htext
    obtain ⟨hfeed, hwords⟩ := Line.insertFeed_reads h.isRead' htext
      (Step.feed?_of_switches hswitches) hline
    have hevent : l'.event = here.line.event :=
      Line.event_congr (hwords 'G' (by decide)) (hwords 'T' (by decide))
    have hlinear : l'.motionWord? = some .linear := by
      rw [Line.motionWord?_congr (hwords 'G' (by decide))]
      simp only [Step.switchesWithoutFeed, Bool.and_eq_true, beq_iff_eq] at hswitches
      exact hswitches.1.1.1.1
    exact ⟨⟨⟨h.number, Or.inl hevent, Line.value?_congr (hwords 'X' (by decide)),
      Or.inl (Line.value?_congr (hwords 'Z' (by decide)))⟩, Or.inl hevent, Or.inl hfeed⟩,
      Or.inr ⟨hlinear, hfeed⟩, fun _ => hfeed⟩

/-- What the third pass makes of a line: only its height is another one. -/
theorem IsJudged.mends_workOffsetClearance (hclear : ¬ c.workOffsetClearanceZ ≤ 0)
    (h : (Detector.workOffsetClearance c).IsJudged here l' before after)
    (htakes : ∀ v, Detector.workOffsetClearance c before here after = some v →
      v.diagnostic.finding.Takes here.line) :
    here.Mends l' ∧
      ∀ letter, letter ≠ 'Z' → wordsWith letter l'.words = wordsWith letter here.line.words := by
  have hwords (letter : Char) (hletter : letter ≠ 'Z') := h.wordsWith_workOffsetClearance hletter
  refine ⟨?_, hwords⟩
  cases hjudge : Detector.workOffsetClearance c before here after with
  | none =>
    rw [h.eq_of_none hjudge]
    exact .refl here
  | some v =>
    obtain ⟨-, htext, z, hz, hz0, -, hfinding⟩ := workOffsetClearance_eq_some hjudge
    have hfront := (htakes v hjudge).2 (by rw [hfinding]; rfl)
    rw [← h.raw_eq hjudge] at htext
    have hevent : l'.event = here.line.event :=
      Line.event_congr (hwords 'G' (by decide)) (hwords 'T' (by decide))
    obtain ⟨u, hu, -, -, hu0⟩ := Line.exists_z?_height h.isRead' htext hfront
    exact ⟨⟨h.number, Or.inl hevent, Line.value?_congr (hwords 'X' (by decide)),
      Or.inr ⟨z, u, hz, hu, hz0, hu0 hclear⟩⟩, Or.inl hevent, Or.inr hwords⟩

/-! ## What they leave -/

theorem forall₂_rapidPlunge {raws : List String} (h : (Detector.rapidPlunge c).CanMend raws) :
    List.Forall₂ (fun (o : Step α) l => o.Mends l ∧ o.line.StaysOrCuts l ∧
        (o.isInherited = true → o.plunge?.isSome = true → l.event = .motion .linear))
      (steps (Line.parseAll raws))
      (Line.parseAll ((Detector.rapidPlunge c).run (Line.parseAll raws)).lines) :=
  forall₂_run (isLocal_rapidPlunge c) fun here hhere _ before after hjudged hreported =>
    hjudged.mends_rapidPlunge fun v hv => h here hhere before after v hv (hreported v hv)

theorem forall₂_missingFeed {raws : List String} (h : (Detector.missingFeed c).CanMend raws) :
    List.Forall₂ (fun (o : Step α) l => o.Mends l ∧ o.line.StaysOrCuts l ∧
        (o.switchesWithoutFeed = true → l.feed?.isSome = true))
      (steps (Line.parseAll raws))
      (Line.parseAll ((Detector.missingFeed c).run (Line.parseAll raws)).lines) :=
  forall₂_run (isLocal_missingFeed c) fun here hhere _ before after hjudged hreported =>
    hjudged.mends_missingFeed fun v hv => h here hhere before after v hv (hreported v hv)

end Detector

end SpacerTurning
