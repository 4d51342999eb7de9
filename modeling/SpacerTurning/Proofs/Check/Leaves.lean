import SpacerTurning.Proofs.Check.Mending

/-!
What a pass makes of a line.

A pass leaves a line for every line, in their order, and reports by line numbers.  So a line of the
program, the line that is read in its place afterwards and the step at which the detector judged it
belong together, and what a detector writes can be compared with what was there.
-/

namespace SpacerTurning

open Number

variable {α : Type} [Scalar α]

namespace Detector

/-- A pass over a text makes one line of another, as it is read afterwards. -/
def Leaves (judge : Detector α) (text : String) (l l' : Line α) : Prop :=
  (l, l') ∈ (Line.parseText text).zip (Line.parseAll (judge.run (Line.parseText text)).lines)

/-- A pass over a text reports a line. -/
def Reports (judge : Detector α) (text : String) (l : Line α) : Prop :=
  ∃ d ∈ (judge.run (Line.parseText text)).diagnostics, d.line = some l.number

/-- A detector reports the line that it judges. -/
def IsLocal (judge : Detector α) : Prop :=
  ∀ before here after v, judge before here after = some v →
    v.diagnostic.line = some here.line.number

end Detector

theorem Line.le_number_of_mem {n : Nat} {raws : List String} {l : Line α}
    (h : l ∈ parseFrom n raws) : n ≤ l.number := by
  induction raws generalizing n with
  | nil => cases h
  | cons raw raws ih =>
    rcases List.mem_cons.1 h with rfl | h
    · exact Nat.le_refl n
    · exact Nat.le_of_succ_le (ih h)

namespace Detector

theorem exists_line_of_mem {judge : Detector α} (hlocal : judge.IsLocal) {n : Nat}
    {raws : List String} {before : List (Step α)} {s : ModalState α} {d : Diagnostic α}
    (h : d ∈ (judge.verdicts before (s.steps (Line.parseFrom n raws))).filterMap fun v =>
      v.map (·.diagnostic)) : ∃ m, n ≤ m ∧ d.line = some m := by
  induction raws generalizing n before s with
  | nil => cases h
  | cons raw raws ih =>
    rw [Line.parseFrom, ModalState.steps, verdicts, List.filterMap_cons] at h
    split at h
    · obtain ⟨m, hm, hd⟩ := ih h
      exact ⟨m, Nat.le_of_succ_le hm, hd⟩
    · next said hsaid =>
      rcases List.mem_cons.1 h with rfl | h
      · obtain ⟨v, hv, rfl⟩ := Option.map_eq_some_iff.1 hsaid
        exact ⟨n, Nat.le_refl n, hlocal _ _ _ v hv⟩
      · obtain ⟨m, hm, hd⟩ := ih h
        exact ⟨m, Nat.le_of_succ_le hm, hd⟩

/-- A line of a program was judged at its step, and its text is what came of that. -/
structure IsJudged (judge : Detector α) (here : Step α) (l' : Line α) (before after : List (Step α)) :
    Prop where
  state : here.after = here.before.next here.line
  isRead : here.line.IsRead
  isRead' : l'.IsRead
  number : l'.number = here.line.number
  raw : l'.raw = outcome here.line (judge before here after)

/-- A line that was found wrong is what it is to be put right to. -/
theorem IsJudged.raw_eq {judge : Detector α} {here : Step α} {l' : Line α}
    {before after : List (Step α)} (h : judge.IsJudged here l' before after) {v : Verdict α}
    (hv : judge before here after = some v) : l'.raw = v.text := by
  rw [h.raw, hv]
  rfl

/-- Every line that a pass leaves was judged.  It is reported if it was found wrong, and found wrong if
it is reported. -/
theorem exists_isJudged {judge : Detector α} (hlocal : judge.IsLocal) {n : Nat}
    {raws : List String} {before : List (Step α)} {s : ModalState α} {here : Step α} {l' : Line α}
    (h : (here, l') ∈ (s.steps (Line.parseFrom n raws)).zip (Line.parseFrom n
      (List.zipWith outcome (Line.parseFrom n raws)
        (judge.verdicts before (s.steps (Line.parseFrom n raws)))))) :
    ∃ before' after, judge.IsJudged here l' before' after ∧
      ((∃ d ∈ (judge.verdicts before (s.steps (Line.parseFrom n raws))).filterMap fun v =>
          v.map (·.diagnostic), d.line = some here.line.number) →
        (judge before' here after).isSome = true) ∧
      ∀ v, judge before' here after = some v →
        v.diagnostic ∈ (judge.verdicts before (s.steps (Line.parseFrom n raws))).filterMap fun v =>
          v.map (·.diagnostic) := by
  induction raws generalizing n before s with
  | nil => cases h
  | cons raw raws ih =>
    rw [Line.parseFrom, ModalState.steps, verdicts, List.zipWith_cons_cons, Line.parseFrom,
      List.zip_cons_cons] at h
    rw [Line.parseFrom, ModalState.steps, verdicts, List.filterMap_cons]
    generalize hfirst : (⟨Line.parse n raw, s, s.next (Line.parse n raw)⟩ : Step α) = first at h ⊢
    generalize hjudged : judge before first
      (ModalState.steps (s.next (Line.parse n raw)) (Line.parseFrom (n + 1) raws)) = verdict at h ⊢
    rcases List.mem_cons.1 h with h | h
    · obtain ⟨rfl, rfl⟩ := Prod.mk.inj h
      refine ⟨before, (s.next (Line.parse n raw)).steps (Line.parseFrom (n + 1) raws), ?_, ?_, ?_⟩
      · rw [← hfirst] at hjudged ⊢
        refine ⟨rfl, Line.isRead_parse n raw, Line.isRead_parse n _, rfl, ?_⟩
        rw [hjudged]
        rfl
      · rw [hjudged]
        rintro ⟨d, hd, hline⟩
        cases verdict with
        | some v => rfl
        | none =>
          obtain ⟨m, hm, hd⟩ := exists_line_of_mem hlocal hd
          rw [hline, ← hfirst] at hd
          obtain rfl : n = m := Option.some.inj hd
          omega
      · intro v hv
        rw [hjudged] at hv
        subst hv
        exact List.mem_cons_self
    · obtain ⟨before', after, hjudge, hreport, hreported⟩ := ih h
      refine ⟨before', after, hjudge, ?_, fun v hv => ?_⟩
      · rintro ⟨d, hd, hline⟩
        refine hreport ⟨d, ?_, hline⟩
        have hmem := (ModalState.after_eq_of_mem (List.of_mem_zip h).1).2
        have hle : n + 1 ≤ here.line.number := Line.le_number_of_mem hmem
        cases verdict with
        | none => exact hd
        | some v =>
          rcases List.mem_cons.1 hd with rfl | hd
          · have hv := hlocal _ _ _ v hjudged
            rw [hline, ← hfirst] at hv
            have : here.line.number = n := Option.some.inj hv
            omega
          · exact hd
      · cases verdict with
        | none => exact hreported v hv
        | some _ => exact List.mem_cons_of_mem _ (hreported v hv)

theorem Leaves.exists_isJudged {judge : Detector α} (hlocal : judge.IsLocal) {text : String}
    {l l' : Line α} (h : judge.Leaves text l l') :
    ∃ before here after, here.line = l ∧ judge.IsJudged here l' before after ∧
      (judge.Reports text l → (judge before here after).isSome = true) := by
  have h : (l, l') ∈ ((steps (Line.parseText text)).map (·.line)).zip
      (Line.parseAll (judge.run (Line.parseText text)).lines) := by
    rw [steps, ModalState.map_line_steps]
    exact h
  rw [List.zip_map_left, List.mem_map] at h
  obtain ⟨⟨here, line⟩, hmem, heq⟩ := h
  obtain ⟨rfl, rfl⟩ := Prod.mk.inj heq
  obtain ⟨before, after, hjudged, hreport, -⟩ := Detector.exists_isJudged hlocal hmem
  exact ⟨before, here, after, rfl, hjudged, hreport⟩

theorem exists_verdict_of_mem {judge : Detector α} {lines : List (Line α)} {d : Diagnostic α}
    (h : d ∈ (judge.run lines).diagnostics) :
    ∃ here ∈ steps lines, ∃ before after v, judge before here after = some v ∧
      d = v.diagnostic := by
  have haux (rest before : List (Step α)) (h : d ∈ (judge.verdicts before rest).filterMap fun v =>
      v.map (·.diagnostic)) : ∃ here ∈ rest, ∃ before after v,
        judge before here after = some v ∧ d = v.diagnostic := by
    induction rest generalizing before with
    | nil => cases h
    | cons here rest ih =>
      rw [verdicts, List.filterMap_cons] at h
      have hrest (h : d ∈ (judge.verdicts (here :: before) rest).filterMap fun v =>
          v.map (·.diagnostic)) : ∃ s ∈ here :: rest, ∃ before after v,
            judge before s after = some v ∧ d = v.diagnostic := by
        obtain ⟨s, hs, hsaid⟩ := ih _ h
        exact ⟨s, List.mem_cons_of_mem _ hs, hsaid⟩
      cases hjudge : judge before here rest with
      | none =>
        rw [hjudge] at h
        exact hrest h
      | some v =>
        rw [hjudge] at h
        rcases List.mem_cons.1 h with rfl | h
        · exact ⟨here, List.mem_cons_self, before, rest, v, hjudge, rfl⟩
        · exact hrest h
  exact haux (steps lines) [] h

/-- A line that is not what it was has been found wrong. -/
theorem IsJudged.exists_verdict {judge : Detector α} {l' : Line α} {before : List (Step α)}
    {here : Step α} {after : List (Step α)} (h : judge.IsJudged here l' before after)
    (hne : l'.raw ≠ here.line.raw) : ∃ v, judge before here after = some v ∧ l'.raw = v.text := by
  cases hjudge : judge before here after with
  | none =>
    have hraw := h.raw
    rw [hjudge] at hraw
    exact absurd hraw hne
  | some v => exact ⟨v, rfl, h.raw_eq hjudge⟩

end Detector

theorem Step.feed?_of_switches {t : Step α} (h : t.switchesWithoutFeed = true) :
    t.line.feed? = none := by
  simp only [switchesWithoutFeed, Bool.and_eq_true] at h
  exact Option.isNone_iff_eq_none.1 h.1.2

/-! ## What each detector writes -/

namespace Detector

variable {c : CheckingConstants α} {before after : List (Step α)} {here : Step α} {v : Verdict α}

theorem rapidPlunge_eq_some (h : rapidPlunge c before here after = some v) :
    ∃ z, here.plunge? = some z ∧ v.diagnostic.line = some here.line.number ∧
      v.diagnostic.finding = .rapidPlunge z here.isInherited ∧
      if here.isInherited then ∃ feed, v.text = here.line.cutText feed
      else v.text = here.line.raw := by
  obtain ⟨z, hz, hv⟩ := Option.map_eq_some_iff.1 h
  refine ⟨z, hz, ?_⟩
  cases hinherited : here.isInherited with
  | true =>
    rw [hinherited, if_pos rfl] at hv
    subst hv
    exact ⟨rfl, rfl, _, rfl⟩
  | false =>
    rw [hinherited] at hv
    subst hv
    exact ⟨rfl, rfl, rfl⟩

theorem missingFeed_eq_some (h : missingFeed c before here after = some v) :
    here.switchesWithoutFeed = true ∧ v.diagnostic.line = some here.line.number ∧
      ∃ feed : α, v.text = Edit.insertBeforeComment here.line.raw (feedWord feed) := by
  unfold missingFeed at h
  split at h
  · next hswitches =>
    obtain rfl := Option.some.inj h
    exact ⟨hswitches, rfl, _, rfl⟩
  · cases h

theorem workOffsetClearance_eq_some (h : workOffsetClearance c before here after = some v) :
    v.diagnostic.line = some here.line.number ∧
      v.text = Edit.replaceWord here.line.raw 'Z' ("Z" ++ Word.format c.workOffsetClearanceZ) ∧
      ∃ z, here.line.z? = some z ∧ 0 ≤ z ∧ z < c.workOffsetMinClearance ∧
        v.diagnostic.finding = .lowClearance z c.workOffsetMinClearance := by
  unfold workOffsetClearance at h
  split at h
  · obtain ⟨z, hz, rfl⟩ := Option.map_eq_some_iff.1 h
    obtain ⟨hz, hbounds⟩ := Option.filter_eq_some_iff.1 hz
    simp only [Bool.and_eq_true, decide_eq_true_eq] at hbounds
    exact ⟨rfl, rfl, z, hz, hbounds.1, hbounds.2, rfl⟩
  · cases h

theorem bareFace_eq_some (h : bareFace c before here after = some v) :
    here.isBareFace = true ∧ here.isInherited = true ∧ v.diagnostic.line = some here.line.number ∧
      ∃ feed : α, v.text = faceText feed here.line.comment := by
  unfold bareFace at h
  split at h
  · next hface =>
    simp only [Bool.and_eq_true] at hface
    obtain ⟨chamfer, -, rfl⟩ := Option.map_eq_some_iff.1 h
    exact ⟨hface.1.1, hface.1.2, rfl, _, rfl⟩
  · cases h

theorem isLocal_rapidPlunge (c : CheckingConstants α) : (rapidPlunge c).IsLocal :=
  fun _ _ _ _ h => by
    obtain ⟨-, -, hline, -⟩ := rapidPlunge_eq_some h
    exact hline

theorem isLocal_missingFeed (c : CheckingConstants α) : (missingFeed c).IsLocal :=
  fun _ _ _ _ h => (missingFeed_eq_some h).2.1

theorem isLocal_workOffsetClearance (c : CheckingConstants α) : (workOffsetClearance c).IsLocal :=
  fun _ _ _ _ h => (workOffsetClearance_eq_some h).1

theorem isLocal_bareFace (c : CheckingConstants α) : (bareFace c).IsLocal :=
  fun _ _ _ _ h => (bareFace_eq_some h).2.2.1

/-! ## What is read afterwards -/

section

variable [LawfulScalar α] {text : String} {l l' : Line α}

/-- A rapid move into the part that has become a cut has a feed and goes where it went, unless its
code ends before the feed or an axis goes on behind it. -/
theorem Leaves.rapidPlunge_iff (h : (rapidPlunge c).Leaves text l l') (hne : l'.raw ≠ l.raw) :
    l'.motionWord? = some .linear ∧
      ((l'.x? = l.x? ∧ l'.z? = l.z? ∧ l'.feed?.isSome = true) ↔
        l.feed?.isSome = true ∨
          (l.isEnded = false ∧ l.apart.x? = l.x? ∧ l.apart.z? = l.z?)) := by
  obtain ⟨before, here, after, rfl, hjudged, -⟩ := h.exists_isJudged (isLocal_rapidPlunge c)
  obtain ⟨v, hv, hraw⟩ := hjudged.exists_verdict hne
  obtain ⟨z, -, -, -, htext⟩ := rapidPlunge_eq_some hv
  rw [← hraw] at htext
  split at htext
  · next hinherited =>
    obtain ⟨feed, htext⟩ := htext
    have hevent : here.line.event = .inherit := by simpa [Step.isInherited] using hinherited
    have hnone := (Line.of_event_inherit hevent).1
    exact ⟨Line.motionWord?_cut hjudged.isRead hjudged.isRead' htext hnone,
      Line.cut_iff hjudged.isRead hjudged.isRead' htext⟩
  · exact absurd htext hne

/-- A cut that has been given a feed has it and moves as it did, unless its code ends before the feed
or a word of a motion or an axis goes on behind it. -/
theorem Leaves.missingFeed_iff (h : (missingFeed c).Leaves text l l') (hne : l'.raw ≠ l.raw) :
    (l'.motionWord? = l.motionWord? ∧ l'.x? = l.x? ∧ l'.z? = l.z? ∧ l'.feed?.isSome = true) ↔
      l.isEnded = false ∧ l.apart.motionWord? = l.motionWord? ∧ l.apart.x? = l.x? ∧
        l.apart.z? = l.z? := by
  obtain ⟨before, here, after, rfl, hjudged, -⟩ := h.exists_isJudged (isLocal_missingFeed c)
  obtain ⟨v, hv, hraw⟩ := hjudged.exists_verdict hne
  obtain ⟨hswitches, -, feed, htext⟩ := missingFeed_eq_some hv
  rw [← hraw] at htext
  exact Line.insertFeed_iff hjudged.isRead hjudged.isRead' htext (Step.feed?_of_switches hswitches)

/-- A line that stops too close to the face stops at the clearance height afterwards if its height
stands in front of its first parenthesis and the clearance can be written. -/
theorem Leaves.workOffsetClearance_iff (h : (workOffsetClearance c).Leaves text l l')
    (hreport : (workOffsetClearance c).Reports text l) :
    l'.x? = l.x? ∧ l'.motionWord? = l.motionWord? ∧
      ((∃ z, l'.z? = some z ∧ (z == Scalar.round4 c.workOffsetClearanceZ) = true) ↔
        (l.hasInFront 'Z' = true ∧
            Scalar.isFinite (Scalar.round4 c.workOffsetClearanceZ) = true) ∨
          (l.hasInFront 'Z' = false ∧
            ∃ z, l.z? = some z ∧ (z == Scalar.round4 c.workOffsetClearanceZ) = true)) := by
  obtain ⟨before, here, after, rfl, hjudged, hsome⟩ :=
    h.exists_isJudged (isLocal_workOffsetClearance c)
  obtain ⟨v, hv⟩ := Option.isSome_iff_exists.1 (hsome hreport)
  obtain ⟨-, htext, -⟩ := workOffsetClearance_eq_some hv
  have hraw : l'.raw
      = Edit.replaceWord here.line.raw 'Z' ("Z" ++ Word.format c.workOffsetClearanceZ) := by
    rw [hjudged.raw, hv]
    exact htext
  have hwords {letter : Char} (hletter : letter ≠ 'Z') :
      wordsWith letter l'.words = wordsWith letter here.line.words :=
    Line.wordsWith_height hjudged.isRead hjudged.isRead' hraw hletter
  exact ⟨Line.value?_congr (hwords (by decide)), Line.motionWord?_congr (hwords (by decide)),
    Line.height_iff hjudged.isRead hjudged.isRead' hraw⟩

/-- A face that has been asked for as a cut is read as a cut to height zero with a feed. -/
theorem Leaves.bareFace (h : (bareFace c).Leaves text l l') (hne : l'.raw ≠ l.raw) :
    l'.motionWord? = some .linear ∧ (∃ z, l'.z? = some z ∧ (z == 0) = true) ∧
      l'.feed?.isSome = true := by
  obtain ⟨before, here, after, rfl, hjudged, -⟩ := h.exists_isJudged (isLocal_bareFace c)
  obtain ⟨v, hv, hraw⟩ := hjudged.exists_verdict hne
  obtain ⟨-, -, -, feed, htext⟩ := bareFace_eq_some hv
  rw [← hraw] at htext
  obtain ⟨-, hmotion, -, hz, hfeed⟩ :=
    Line.face_reads hjudged.isRead' htext hjudged.isRead.comment
  exact ⟨hmotion, hz, hfeed⟩

end

end Detector

end SpacerTurning
