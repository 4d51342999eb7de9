import SpacerTurning.Proofs.Check.Clearance

/-!
Cuts onto the face.

The last pass makes cuts of rapid moves onto the face.  What was a rapid move by such a line alone
is a cut behind it, and nothing else is a different move.  So a pass that found nothing before finds
nothing then, but for the third one: where such a cut stands directly before a work offset, the
first rapid move behind that offset may be another one.
-/

namespace SpacerTurning

open Number

variable {α : Type} [Scalar α]

/-! ## Two runs side by side -/

/-- A line is a cut onto the face that the last pass has written. -/
structure Line.IsFace (l : Line α) : Prop where
  event : l.event = .motion .linear
  motionWord : l.motionWord? = some .linear
  offset : l.has 'G' 154 = false
  x : l.x? = none
  z : ∃ z, l.z? = some z ∧ (z == 0) = true
  feed : l.feed?.isSome = true

/-- The last pass has something to say of a step at a place. -/
def FacedAt (st : List (Step α)) (i : Nat) (t : Step α) : Prop :=
  t.isBareFace = true ∧ t.isInherited = true ∧ t.after.motion = .rapid ∧
    (Detector.chamferAfter? (st.drop (i + 1))).isSome = true

/-- What becomes of the line of a step: the last pass has written a cut onto the face, or it reads
as it did. -/
def Step.Faces (t : Step α) (l : Line α) : Prop :=
  l.words = t.line.words ∨
    (t.isBareFace = true ∧ t.isInherited = true ∧ t.after.motion = .rapid ∧ l.IsFace)

/-- A state follows another one: the motion closely, and the place up to the sign of a zero. -/
structure ModalState.Faces (s s' : ModalState α) : Prop where
  motion : s.Cuts s'
  x : s'.x = s.x
  z : s'.z = s.z ∨ ∃ a b, s.z = some a ∧ s'.z = some b ∧ (a == 0) = true ∧ (b == 0) = true

theorem Line.event_of_words {l l' : Line α} (h : l'.words = l.words) : l'.event = l.event :=
  event_congr (by rw [h]) (by rw [h])

namespace ModalState

theorem Faces.next {s s' : ModalState α} (hs : s.Faces s') {l l' : Line α}
    (hl : Step.Faces ⟨l, s, s.next l⟩ l') : (s.next l).Faces (s'.next l') := by
  rcases hl with hwords | ⟨hbare, hinherited, hrapid, hface⟩
  · have hwords : l'.words = l.words := hwords
    have hevent := Line.event_of_words hwords
    have hx : l'.x? = l.x? := Line.value?_congr (by rw [hwords])
    have hz : l'.z? = l.z? := Line.value?_congr (by rw [hwords])
    refine ⟨hs.motion.next_of_event hevent, ?_, ?_⟩
    · rw [next_x, next_x, hevent, hx, hs.x]
    · rw [next_z, next_z, hevent, hz]
      cases l.event with
      | machineCoordinates => exact hs.z
      | toolChange => exact Or.inl rfl
      | motion word =>
        cases l.z? with
        | none => exact hs.z
        | some z => exact Or.inl rfl
      | inherit =>
        cases l.z? with
        | none => exact hs.z
        | some z => exact Or.inl rfl
  · -- The face has no diameter, and is a zero in both programs.
    have hinherit : l.event = .inherit := by simpa [Step.isInherited] using hinherited
    obtain ⟨z, hwords, hz0⟩ := Step.exists_of_isBareFace hbare
    have hwords : l.words = [{ letter := 'Z', value := z }] := hwords
    obtain ⟨u, hu, hu0⟩ := hface.z
    have hx : l.x? = none := by simp [Line.x?, Line.value?, hwords]
    have hz : l.z? = some z := by simp [Line.z?, Line.value?, hwords]
    refine ⟨Cuts.next_of_rapid hrapid hface.event, ?_, Or.inr ⟨z, u, ?_, ?_, hz0, hu0⟩⟩
    · rw [next_x, next_x, hinherit, hface.event, hx, hface.x, hs.x]
    · rw [next_z, hinherit, hz]
      rfl
    · rw [next_z, hface.event, hu]
      rfl

end ModalState

/-- A run beside the run of the program that the last pass was given. -/
structure IsFaced (lines lines' : List (Line α)) : Prop where
  states : List.Forall₂ (fun t g : Step α => t.Faces g.line ∧ t.before.Faces g.before ∧
    t.after.Faces g.after) (steps lines) (steps lines')
  face : ∀ i t g, (steps lines)[i]? = some t → (steps lines')[i]? = some g →
    FacedAt (steps lines) i t → g.line.IsFace
  same : ∀ i t g, (steps lines)[i]? = some t → (steps lines')[i]? = some g →
    ¬ FacedAt (steps lines) i t → g.line.words = t.line.words

namespace IsFaced

variable {lines lines' : List (Line α)} {i : Nat} {t g : Step α}

theorem exists_right (h : IsFaced lines lines') (ht : (steps lines)[i]? = some t) :
    ∃ g, (steps lines')[i]? = some g ∧ t.before.Faces g.before ∧ t.after.Faces g.after := by
  obtain ⟨g, hg, -, hbefore, hafter⟩ := exists_getElem?_of_forall₂ h.states ht
  exact ⟨g, hg, hbefore, hafter⟩

theorem exists_left (h : IsFaced lines lines') (hg : (steps lines')[i]? = some g) :
    ∃ t, (steps lines)[i]? = some t ∧ t.before.Faces g.before ∧ t.after.Faces g.after := by
  obtain ⟨t, ht, -, hbefore, hafter⟩ := exists_getElem?_of_forall₂ h.states.flip hg
  exact ⟨t, ht, hbefore, hafter⟩

theorem after_eq (hg : (steps lines')[i]? = some g) : g.after = g.before.next g.line :=
  (ModalState.after_eq_of_mem (List.mem_of_getElem? hg)).1

theorem not_facedAt (h : IsFaced lines lines') (ht : (steps lines)[i]? = some t)
    (hg : (steps lines')[i]? = some g) (hevent : g.line.event ≠ .motion .linear) :
    ¬ FacedAt (steps lines) i t := fun hface => hevent (h.face i t g ht hg hface).event

theorem of_isRapidZ (h : IsFaced lines lines') (ht : (steps lines)[i]? = some t)
    (hg : (steps lines')[i]? = some g) (hafter : t.after.Faces g.after)
    (hrapid : g.isRapidZ = true) : t.isRapidZ = true ∧ g.line.words = t.line.words := by
  simp only [Step.isRapidZ, Step.isRapid, Bool.and_eq_true, decide_eq_true_eq,
    Bool.not_eq_true'] at hrapid ⊢
  obtain ⟨⟨hmotion, hmachine⟩, hz⟩ := hrapid
  have hevent : g.line.event ≠ .motion .linear := by
    intro hlinear
    rw [after_eq hg, ModalState.next_motion, hlinear] at hmotion
    cases hmotion
  have hwords := h.same i t g ht hg (h.not_facedAt ht hg hevent)
  have hold : t.after.motion = .rapid := by
    rcases hafter.motion with hsame | ⟨hold, -⟩
    · rw [← hsame, hmotion]
    · exact hold
  have hline : t.line.isMachine = false := by
    rw [← hmachine, after_eq hg, ModalState.next_machine]
    exact (Line.isMachine_congr (by rw [hwords])).symm
  have hsome : t.line.z? = g.line.z? := (Line.value?_congr (by rw [hwords])).symm
  refine ⟨⟨⟨hold, ?_⟩, ?_⟩, hwords⟩
  · rw [after_eq ht, ModalState.next_machine, hline]
  · rw [hsome, hz]

/-- A rapid move to a height that is none any more is a cut. -/
theorem cut_of_isRapidZ (h : IsFaced lines lines') (ht : (steps lines)[i]? = some t)
    (hg : (steps lines')[i]? = some g) (hafter : t.after.Faces g.after)
    (hrapid : t.isRapidZ = true) (hnot : g.isRapidZ = false) :
    t.after.motion = .rapid ∧ g.after.motion = .linear := by
  simp only [Step.isRapidZ, Step.isRapid, Bool.and_eq_true, decide_eq_true_eq,
    Bool.not_eq_true'] at hrapid
  obtain ⟨⟨hmotion, hmachine⟩, hz⟩ := hrapid
  rcases hafter.motion with hsame | hcut
  · exfalso
    have hnew : g.after.motion = .rapid := by rw [hsame, hmotion]
    have hevent : g.line.event ≠ .motion .linear := by
      intro hlinear
      rw [after_eq hg, ModalState.next_motion, hlinear] at hnew
      cases hnew
    have hwords := h.same i t g ht hg (h.not_facedAt ht hg hevent)
    have hline : g.line.isMachine = false := by
      rw [← hmachine, after_eq ht, ModalState.next_machine]
      exact Line.isMachine_congr (by rw [hwords])
    have hsome : g.line.z? = t.line.z? := Line.value?_congr (by rw [hwords])
    have hyes : g.isRapidZ = true := by
      rw [Step.isRapidZ, Step.isRapid, hnew, after_eq hg, ModalState.next_machine, hline, hsome, hz]
      rfl
    rw [hnot] at hyes
    cases hyes
  · exact hcut

/-- A line that reads the same leads to a rapid move and a cut only if it relies on the lines before
it. -/
theorem inherit_of_cut (hwords : g.line.words = t.line.words) (ht : t.after = t.before.next t.line)
    (hg : g.after = g.before.next g.line) (hrapid : t.after.motion = .rapid)
    (hcut : g.after.motion = .linear) : t.line.event = .inherit := by
  rw [ht, ModalState.next_motion] at hrapid
  rw [hg, ModalState.next_motion, Line.event_of_words hwords] at hcut
  cases hevent : t.line.event with
  | machineCoordinates =>
    rw [hevent] at hrapid
    cases hrapid
  | toolChange =>
    rw [hevent] at hrapid
    cases hrapid
  | motion word =>
    rw [hevent] at hrapid hcut
    have hsame : word.state = .rapid := hrapid
    have hother : word.state = .linear := hcut
    rw [hsame] at hother
    cases hother
  | inherit => rfl

/-- Where a rapid move has become a cut, it relied on a face that has become one. -/
theorem exists_face (h : IsFaced lines lines') {m : Nat} (ht : (steps lines)[m]? = some t)
    (hg : (steps lines')[m]? = some g) (hrapid : t.after.motion = .rapid)
    (hcut : g.after.motion = .linear) :
    ∃ b ≤ m, ∃ s, (steps lines)[b]? = some s ∧ FacedAt (steps lines) b s ∧
      ∀ j s, b < j → j ≤ m → (steps lines)[j]? = some s → s.line.event = .inherit := by
  induction m generalizing t g with
  | zero =>
    by_cases hface : FacedAt (steps lines) 0 t
    · exact ⟨0, le_rfl, t, ht, hface, fun j s hj hj' => by omega⟩
    · have hinherit := inherit_of_cut (h.same 0 t g ht hg hface) (after_eq ht) (after_eq hg)
        hrapid hcut
      rw [after_eq ht, ModalState.next_motion, hinherit, ModalState.before_zero ht] at hrapid
      cases hrapid
  | succ m ih =>
    by_cases hface : FacedAt (steps lines) (m + 1) t
    · exact ⟨m + 1, le_rfl, t, ht, hface, fun j s hj hj' => by omega⟩
    · have hwords := h.same (m + 1) t g ht hg hface
      have hinherit := inherit_of_cut hwords (after_eq ht) (after_eq hg) hrapid hcut
      obtain ⟨t', ht'⟩ := ModalState.getElem?_of_succ ht
      obtain ⟨g', hg', -⟩ := h.exists_right ht'
      have hrapid' : t'.after.motion = .rapid := by
        rw [← ModalState.before_succ ht' ht, ← hrapid, after_eq ht, ModalState.next_motion,
          hinherit]
        rfl
      have hcut' : g'.after.motion = .linear := by
        rw [← ModalState.before_succ hg' hg, ← hcut, after_eq hg, ModalState.next_motion,
          Line.event_of_words hwords, hinherit]
        rfl
      obtain ⟨b, hb, s, hs, hface, hbetween⟩ := ih ht' hg' hrapid' hcut'
      refine ⟨b, by omega, s, hs, hface, fun j u hj hj' hu => ?_⟩
      rcases Nat.le_succ_iff.1 hj' with hle | rfl
      · exact hbetween j u hj hle hu
      · rw [ht] at hu
        rw [← Option.some.inj hu, hinherit]

end IsFaced

namespace FacedAt

variable {st : List (Step α)} {i : Nat} {t : Step α}

theorem not_offset (h : FacedAt st i t) : t.line.has 'G' 154 = false := by
  obtain ⟨z, hwords, -⟩ := Step.exists_of_isBareFace h.1
  simp [Line.has, hwords]

theorem exists_height (h : FacedAt st i t) (hstate : t.after = t.before.next t.line) :
    t.isRapidZ = true ∧ ∃ z, t.line.z? = some z ∧ (z == 0) = true := by
  obtain ⟨z, hwords, hz0⟩ := Step.exists_of_isBareFace h.1
  have hz : t.line.z? = some z := by simp [Line.z?, Line.value?, hwords]
  have hinherit : t.line.event = .inherit := by simpa [Step.isInherited] using h.2.1
  have hmachine : t.after.machine = false := by
    rw [hstate, ModalState.next_machine]
    exact (Line.of_event_inherit hinherit).2.1
  refine ⟨?_, z, hz, hz0⟩
  rw [Step.isRapidZ, Step.isRapid, h.2.2.1, hmachine, hz]
  rfl

end FacedAt

namespace IsFaced

variable {lines lines' : List (Line α)} {c : CheckingConstants α}

theorem offset_eq (h : IsFaced lines lines') {i : Nat} {t g : Step α}
    (ht : (steps lines)[i]? = some t) (hg : (steps lines')[i]? = some g) :
    t.line.has 'G' 154 = g.line.has 'G' 154 := by
  by_cases hface : FacedAt (steps lines) i t
  · rw [hface.not_offset, (h.face i t g ht hg hface).offset]
  · rw [Line.has_eq, Line.has_eq, h.same i t g ht hg hface]

/-- If the third pass finds something again, a face that has become a cut stands directly before a
work offset, and the chamfer that it belongs to two lines behind that. -/
theorem exists_offset [LawfulScalar α] (h : IsFaced lines lines') (hc : c.Settles)
    (hquiet : ∀ i, (Detector.workOffsetClearance c).at? lines i = none) {i : Nat} {v : Verdict α}
    (hv : (Detector.workOffsetClearance c).at? lines' i = some v) :
    ∃ b s o chamfer, (steps lines)[b]? = some s ∧ FacedAt (steps lines) b s ∧
      (steps lines)[b + 1]? = some o ∧ o.line.has 'G' 154 = true ∧
      Detector.chamferAfter? ((steps lines).drop (b + 1)) = some chamfer ∧
      (steps lines)[b + 3]? = some chamfer := by
  obtain ⟨g, z, hg, hrapid, hoffset, hat, hz, hz0, hless⟩ :=
    Detector.workOffsetClearance_at?_eq_some hv
  obtain ⟨p, hp, hwindow, ⟨o', ho', hchosen'⟩, hbetween'⟩ := hat
  obtain ⟨t, ht, -, hafter⟩ := h.exists_left hg
  obtain ⟨o, ho, -⟩ := h.exists_left ho'
  have hchosen : o.line.has 'G' 154 = true := by rw [h.offset_eq ho ho', hchosen']
  have hnone (j : Nat) (s : Step α) (hj : p < j) (hj' : j < i) (hs : (steps lines)[j]? = some s) :
      s.line.has 'G' 154 = false := by
    obtain ⟨s', hs', -⟩ := h.exists_right hs
    rw [h.offset_eq hs hs', (hbetween' j s' hj hj' hs').1]
  obtain ⟨hquick, hwords⟩ := h.of_isRapidZ ht hg hafter hrapid
  -- The third pass finds no first move before, so it is another one that was the first.
  have hlow {j : Nat} {s : Step α} (hs : (steps lines)[j]? = some s) (hquick : s.isRapidZ = true)
      (hother : s.line.has 'G' 154 = false) (hfirst : FollowsAt (steps lines) c.contextLines j)
      {y : α} (hy : s.line.z? = some y) (hy0 : 0 ≤ y) : ¬ y < c.workOffsetMinClearance := by
    intro hless
    have hfound := Detector.workOffsetClearance_at?_isSome (c := c) hs hquick hother hfirst hy hy0
      hless
    rw [hquiet j] at hfound
    cases hfound
  rcases FollowsAt.or_exists_first hp hwindow ⟨o, ho, hchosen⟩ hnone with
    hfirst | ⟨m, s, hpm, hmi, hs, hmrapid, hmfirst, hclear⟩
  · have hline : t.line.z? = some z := by
      rw [← hz]
      exact (Line.value?_congr (by rw [hwords])).symm
    have hother : t.line.has 'G' 154 = false := by rw [h.offset_eq ht hg, hoffset]
    exact absurd hless (hlow ht hquick hother hfirst hline hz0)
  obtain ⟨s', hs', -, hsafter⟩ := h.exists_right hs
  obtain ⟨hold, hcut⟩ := h.cut_of_isRapidZ hs hs' hsafter hmrapid (hbetween' m s' hpm hmi hs').2
  obtain ⟨b, hbm, u, hu, hface, hinherits⟩ := h.exists_face hs hs' hold hcut
  obtain ⟨hurapid, y, hy, hy0⟩ := hface.exists_height (after_eq hu)
  rcases Nat.lt_trichotomy b p with hlt | rfl | hgt
  · -- All lines from the face to the move rely on it, so the chamfer comes behind the move.
    obtain ⟨chamfer, hchamfer⟩ := Option.isSome_iff_exists.1 hface.2.2.2
    obtain ⟨k, hbk, hwindow', hk, hlinear, -⟩ := Detector.exists_of_chamferAfter? hchamfer
    have hmk : m < k := by
      by_contra hle
      have hinherit := hinherits k chamfer hbk (by omega) hk
      rw [(Line.of_event_inherit hinherit).1] at hlinear
      cases hlinear
    unfold Detector.chamferWindow at hwindow'
    obtain rfl : p = b + 1 := by omega
    obtain rfl : k = b + 3 := by omega
    exact ⟨b, u, o, chamfer, hu, hface, ho, hchosen, hchamfer, hk⟩
  · rw [ho] at hu
    obtain rfl := Option.some.inj hu
    rw [hface.not_offset] at hchosen
    cases hchosen
  · -- The face itself would be the first move, which is too low.
    rcases Nat.lt_or_eq_of_le hbm with hlt | rfl
    · rw [hclear b u hgt hlt hu] at hurapid
      cases hurapid
    · exact absurd (hc.low hy0)
        (hlow hu hurapid hface.not_offset hmfirst hy (LawfulScalar.nonneg_of_zero hy0))

end IsFaced

/-! ## The last pass, run again -/

namespace IsFaced

variable {lines lines' : List (Line α)} {c : CheckingConstants α}

theorem chamfer (h : IsFaced lines lines') (hc : c.Settles) {k : Nat} {g : Step α}
    (hg : (steps lines')[k]? = some g) (hlinear : g.line.motionWord? = some .linear)
    (hdiagonal : g.isDiagonal = true) :
    ∃ t, (steps lines)[k]? = some t ∧ t.line.motionWord? = some .linear ∧ t.isDiagonal = true := by
  obtain ⟨t, ht, hbefore, -⟩ := h.exists_left hg
  simp only [Step.isDiagonal, Bool.and_eq_true] at hdiagonal
  obtain ⟨hx, hz⟩ := hdiagonal
  have hface : ¬ FacedAt (steps lines) k t := by
    intro hface
    rw [(h.face k t g ht hg hface).x] at hx
    cases hx
  have hwords := h.same k t g ht hg hface
  have hlineX : g.line.x? = t.line.x? := Line.value?_congr (by rw [hwords])
  have hlineZ : g.line.z? = t.line.z? := Line.value?_congr (by rw [hwords])
  refine ⟨t, ht, ?_, ?_⟩
  · rw [← hlinear]
    exact (Line.motionWord?_congr (by rw [hwords])).symm
  · rw [hlineX, hbefore.x] at hx
    rw [hlineZ] at hz
    rw [Step.isDiagonal, hx, Bool.true_and]
    rcases hbefore.z with hsame | ⟨a, b, ha, hb, ha0, hb0⟩
    · rwa [← hsame]
    · rw [hb] at hz
      rw [ha]
      cases hline : t.line.z? with
      | none =>
        rw [hline] at hz
        cases hz
      | some z =>
        rw [hline] at hz
        rw [hc.sub_zero ha0 hb0, hz]

/-- So the last pass finds nothing again. -/
theorem not_facedAt_again (h : IsFaced lines lines') (hc : c.Settles) {i : Nat} {g : Step α}
    (hg : (steps lines')[i]? = some g) : ¬ FacedAt (steps lines') i g := by
  rintro ⟨hbare, hinherited, hrapid, hsome⟩
  obtain ⟨t, ht, -, hafter⟩ := h.exists_left hg
  have hinherit : g.line.event = .inherit := by simpa [Step.isInherited] using hinherited
  have hold : ¬ FacedAt (steps lines) i t :=
    h.not_facedAt ht hg (by rw [hinherit]; simp)
  have hwords := h.same i t g ht hg hold
  obtain ⟨s, hs⟩ := Option.isSome_iff_exists.1 hsome
  obtain ⟨k, hik, hwindow, hk, hlinear, hdiagonal⟩ := Detector.exists_of_chamferAfter? hs
  obtain ⟨s', hs', hlinear', hdiagonal'⟩ := h.chamfer hc hk hlinear hdiagonal
  refine hold ⟨?_, ?_, ?_, Detector.chamferAfter?_isSome hik hwindow hs' hlinear' hdiagonal'⟩
  · unfold Step.isBareFace at hbare ⊢
    rwa [← hwords]
  · unfold Step.isInherited at hinherited ⊢
    rwa [← Line.event_of_words hwords]
  · rcases hafter.motion with hsame | ⟨hyes, -⟩
    · rw [← hsame, hrapid]
    · exact hyes

end IsFaced

/-! ## What the last pass does -/

theorem Line.IsFace.of_words {l l' : Line α} (h : l.IsFace) (hwords : l'.words = l.words) :
    l'.IsFace where
  event := (Line.event_of_words hwords).trans h.event
  motionWord := (Line.motionWord?_congr (by rw [hwords])).trans h.motionWord
  offset := by rw [Line.has_eq, hwords, ← Line.has_eq, h.offset]
  x := (Line.value?_congr (by rw [hwords])).trans h.x
  z := by
    obtain ⟨z, hz, hz0⟩ := h.z
    exact ⟨z, (Line.value?_congr (by rw [hwords])).trans hz, hz0⟩
  feed := by
    have hfeed : l'.feed? = l.feed? := Line.value?_congr (by rw [hwords])
    rw [hfeed, h.feed]

namespace Detector

variable {c : CheckingConstants α}

theorem bareFace_at?_isSome {lines : List (Line α)} {i : Nat} {t : Step α}
    (ht : (steps lines)[i]? = some t) :
    ((bareFace c).at? lines i).isSome = true ↔ FacedAt (steps lines) i t := by
  rw [at?_eq ht, bareFace, FacedAt]
  split
  · next hface =>
    simp only [Bool.and_eq_true, decide_eq_true_eq] at hface
    rw [Option.isSome_map]
    simp [hface]
  · next hnot =>
    simp only [Bool.and_eq_true, decide_eq_true_eq] at hnot
    constructor
    · intro hsome
      cases hsome
    · rintro ⟨hbare, hinherited, hrapid, -⟩
      exact absurd ⟨⟨hbare, hinherited⟩, hrapid⟩ hnot

theorem exists_diagnostic_of_facedAt {lines : List (Line α)} {i : Nat} {t chamfer : Step α}
    (ht : (steps lines)[i]? = some t) (h : FacedAt (steps lines) i t)
    (hchamfer : chamferAfter? ((steps lines).drop (i + 1)) = some chamfer) :
    ∃ d ∈ ((bareFace c).run lines).diagnostics, d.line = some t.line.number ∧
      d.finding = .bareFace chamfer.line.number := by
  obtain ⟨v, hv⟩ := Option.isSome_iff_exists.1 ((bareFace_at?_isSome (c := c) ht).2 h)
  refine ⟨v.diagnostic, mem_diagnostics_iff.2 ⟨i, v, hv, rfl⟩, ?_⟩
  rw [at?_eq ht, bareFace, hchamfer, Option.map_some] at hv
  split at hv
  · obtain rfl := Option.some.inj hv
    exact ⟨rfl, rfl⟩
  · cases hv

variable [LawfulScalar α]

theorem IsJudged.isFace {here : Step α} {l' : Line α} {before after : List (Step α)}
    (h : (Detector.bareFace c).IsJudged here l' before after) {v : Verdict α}
    (hv : Detector.bareFace c before here after = some v) : l'.IsFace := by
  obtain ⟨-, -, -, feed, htext⟩ := bareFace_eq_some hv
  rw [← h.raw_eq hv] at htext
  obtain ⟨hevent, hmotion, hx, hz, hfeed⟩ := Line.face_reads h.isRead' htext h.isRead.comment
  obtain ⟨w, y, u, hwords, hcode, -⟩ := exists_face_words feed h.isRead.comment
  rw [← htext, ← h.isRead'.words] at hwords
  refine ⟨hevent, hmotion, ?_, hx, hz, hfeed⟩
  simp [Line.has, hwords, hcode]

/-- The run of what the last pass leaves, however its text is read again. -/
theorem isFaced_run {raws : List String} {lines' : List (Line α)}
    (h : List.Forall₂ (fun l l' : Line α => l'.words = l.words)
      (Line.parseAll ((bareFace c).run (Line.parseAll raws)).lines) lines') :
    IsFaced (Line.parseAll raws) lines' := by
  have hplace {i : Nat} {t g : Step α} (ht : (steps (Line.parseAll raws))[i]? = some t)
      (hg : (steps lines')[i]? = some g) :
      ∃ l, g.line.words = l.words ∧ (bareFace c).IsJudged t l
        ((steps (Line.parseAll raws)).take i).reverse
        ((steps (Line.parseAll raws)).drop (i + 1)) := by
    obtain ⟨l, hl, hjudged⟩ := exists_isJudged_at (bareFace c) ht
    obtain ⟨l', hl', hwords⟩ := exists_getElem?_of_forall₂ h hl
    rw [steps, ModalState.getElem?_steps, hl', Option.map_some] at hg
    rw [← Option.some.inj hg]
    exact ⟨l, hwords, hjudged⟩
  have hfaces : List.Forall₂ Step.Faces (steps (Line.parseAll raws)) lines' := by
    refine forall₂_comp (fun t l l' (hl : t.Faces l) hwords => ?_) ?_ h
    · rcases hl with hsame | ⟨hbare, hinherited, hrapid, hface⟩
      · exact Or.inl (hwords.trans hsame)
      · exact Or.inr ⟨hbare, hinherited, hrapid, hface.of_words hwords⟩
    · refine forall₂_run (isLocal_bareFace c) fun here _ l' before after hjudged _ => ?_
      cases hv : bareFace c before here after with
      | none => exact Or.inl (by rw [hjudged.eq_of_none hv])
      | some v =>
        have hface := hjudged.isFace hv
        unfold bareFace at hv
        split at hv
        · next hyes =>
          simp only [Bool.and_eq_true, decide_eq_true_eq] at hyes
          exact Or.inr ⟨hyes.1.1, hyes.1.2, hyes.2, hface⟩
        · cases hv
  have hstart : ModalState.Faces ({} : ModalState α) {} := ⟨Or.inl rfl, rfl, Or.inl rfl⟩
  refine ⟨ModalState.forall₂_simulates (fun _ _ _ _ hs hl => hs.next hl) hstart hfaces, ?_, ?_⟩
  · intro i t g ht hg hface
    obtain ⟨l, hwords, hjudged⟩ := hplace ht hg
    have hsome := (bareFace_at?_isSome (c := c) ht).2 hface
    rw [at?_eq ht] at hsome
    obtain ⟨v, hv⟩ := Option.isSome_iff_exists.1 hsome
    exact (hjudged.isFace hv).of_words hwords
  · intro i t g ht hg hface
    obtain ⟨l, hwords, hjudged⟩ := hplace ht hg
    have hnone := mt (bareFace_at?_isSome (c := c) ht).1 hface
    rw [at?_eq ht, Bool.not_eq_true, Option.isSome_eq_false_iff, Option.isNone_iff_eq_none] at hnone
    rw [hwords, hjudged.eq_of_none hnone]

end Detector

end SpacerTurning
