import SpacerTurning.Proofs.Check.Passes
import SpacerTurning.Settings.Config

/-!
The usual chain of passes.

The passes keep tidy lines that follow one another, so that the program at the end follows the
program at the start, and both run side by side.
-/

namespace SpacerTurning

open Number

variable {α : Type} [Scalar α]

/-! ## What becomes of a line -/

/-- What has become of the line of a step. -/
structure Step.Becomes (c : CheckingConstants α) (ds : List (Diagnostic α)) (o : Step α)
    (l : Line α) : Prop where
  follows : o.line.Follows l
  height : LiftsHeight c ds o.line l ∨ StaysAtFace o.line l
  /-- A line that went into the part without being asked for a motion is asked for a cut. -/
  cut : o.plunge?.isSome = true → o.isInherited = true → l.event = .motion .linear

namespace Step.Becomes

variable {c : CheckingConstants α} {ds : List (Diagnostic α)} {o : Step α} {l l' : Line α}

/-- A line that has kept its height is lifted where a pass reports it. -/
theorem lift {ds' : List (Diagnostic α)} (hds : ∀ d ∈ ds', d ∈ ds) (hkept : o.line.Follows l)
    (hz : l.z? = o.line.z?)
    (hcut : o.plunge?.isSome = true → o.isInherited = true → l.event = .motion .linear)
    (hfollows : l.Follows l') (hlift : LiftsHeight c ds' l l') : o.Becomes c ds l' := by
  refine ⟨hkept.trans hfollows, Or.inl ?_, fun hplunge hinherited =>
    hfollows.event_linear (hcut hplunge hinherited)⟩
  unfold LiftsHeight at hlift ⊢
  rw [hz, hkept.number] at hlift
  refine hlift.imp_right ?_
  rintro ⟨z, u, hold, hz0, hless, ⟨d, hd, hline, hfinding⟩, hu, hvalue⟩
  exact ⟨z, u, hold, hz0, hless, ⟨d, hds d hd, hline, hfinding⟩, hu, hvalue⟩

/-- A line that keeps its height keeps what has become of it. -/
theorem keep (h : o.Becomes c ds l) (hfollows : l.Follows l') (hz : l'.z? = l.z?) :
    o.Becomes c ds l' := by
  refine ⟨h.follows.trans hfollows, ?_, fun hplunge hinherited =>
    hfollows.event_linear (h.cut hplunge hinherited)⟩
  have hheight := h.height
  unfold LiftsHeight StaysAtFace at hheight ⊢
  rwa [hz]

/-- So does a line that stays at height zero. -/
theorem atFace [LawfulScalar α] (h : o.Becomes c ds l) (hfollows : l.Follows l')
    (hface : StaysAtFace l l') : o.Becomes c ds l' := by
  refine ⟨h.follows.trans hfollows, ?_, fun hplunge hinherited =>
    hfollows.event_linear (h.cut hplunge hinherited)⟩
  obtain ⟨z, u, hz, hu, hz0, hu0⟩ := hface
  rcases h.height with (hsame | ⟨y, z', hy, hy0, hless, hd, hz', hvalue⟩) | ⟨y, z', hy, -, hy0, -⟩
  · exact Or.inr ⟨z, u, hsame.symm.trans hz, hu, hz0, hu0⟩
  · rw [hz] at hz'
    obtain rfl := Option.some.inj hz'
    refine Or.inl (Or.inr ⟨y, u, hy, hy0, hless, hd, hu, ?_⟩)
    split
    · next hfinite =>
      rw [if_pos hfinite] at hvalue
      exact LawfulScalar.beq_trans (LawfulScalar.beq_trans hu0 (LawfulScalar.beq_symm hz0)) hvalue
    · exact hu0
  · exact Or.inr ⟨y, u, hy, hu, hy0, hu0⟩

end Step.Becomes

def AllTidy (raws : List String) : Prop := ∀ raw ∈ raws, IsTidy raw.toList

theorem AllTidy.of_mem {raws : List String} (h : AllTidy raws) {here : Step α}
    (hhere : here ∈ steps (Line.parseAll raws)) : IsTidy here.line.raw.toList := by
  have hmem := (ModalState.after_eq_of_mem hhere).2
  refine h _ ?_
  rw [← Line.map_raw_parseAll (α := α) raws]
  exact List.mem_map_of_mem hmem

theorem allTidy_of_forall₂ {R : Line α → Line α → Prop} {raws raws' : List String}
    (h : List.Forall₂ R (Line.parseAll raws) (Line.parseAll raws'))
    (htidy : ∀ l l', R l l' → IsTidy l'.raw.toList) : AllTidy raws' := by
  intro raw hraw
  rw [← Line.map_raw_parseAll (α := α) raws'] at hraw
  obtain ⟨l', hl', rfl⟩ := List.mem_map.1 hraw
  obtain ⟨l, -, hR⟩ := forall_of_forall₂_right h l' hl'
  exact htidy l l' hR

section

variable [LawfulScalar α] {c : CheckingConstants α}

/-- The chain leaves tidy lines, and says what has become of each. -/
theorem FixChain.forall₂_runLines (hclear : ¬ c.workOffsetClearanceZ ≤ 0) {raws : List String}
    (htidy : AllTidy raws) :
    List.Forall₂ (Step.Becomes c (runLines (standard c) raws).2) (steps (Line.parseAll raws))
        (Line.parseAll (runLines (standard c) raws).1) := by
  have hrun := runLines_standard c raws
  generalize hfirst : (Detector.rapidPlunge c).run (Line.parseAll raws) = first at hrun
  generalize hsecond : (Detector.missingFeed c).run (Line.parseAll first.lines) = second at hrun
  generalize hthird : (Detector.workOffsetClearance c).run (Line.parseAll second.lines) = third
    at hrun
  generalize hlast : (Detector.bareFace c).run (Line.parseAll third.lines) = last at hrun
  simp only [hsecond, hthird, hlast] at hrun
  have hstepped : List.Forall₂ (fun (o : Step α) l => o.line.Kept l ∧ l.z? = o.line.z? ∧
      (o.plunge?.isSome = true → o.isInherited = true → l.event = .motion .linear))
      (steps (Line.parseAll raws)) (Line.parseAll first.lines) := by
    rw [← hfirst]
    exact Detector.forall₂_run (Detector.isLocal_rapidPlunge c) fun here hhere _ _ _ hjudged _ =>
      hjudged.rapidPlunge (htidy.of_mem hhere)
  have hkept₁ : List.Forall₂ Line.Kept (Line.parseAll raws : List (Line α))
      (Line.parseAll first.lines) :=
    ModalState.forall₂_steps_left.1 (hstepped.imp fun _ _ h => h.1)
  have htidy₁ : AllTidy first.lines := allTidy_of_forall₂ (α := α) hkept₁ fun _ _ h => h.tidy
  have hkept₂ : List.Forall₂ (fun l l' : Line α => l.Kept l' ∧ l'.z? = l.z?)
      (Line.parseAll first.lines) (Line.parseAll second.lines) := by
    rw [← hsecond]
    exact Detector.forall₂_lines (Detector.isLocal_missingFeed c) fun here hhere _ _ _ hjudged _ =>
      hjudged.missingFeed (htidy₁.of_mem hhere)
  have htidy₂ : AllTidy second.lines := allTidy_of_forall₂ (α := α) hkept₂ fun _ _ h => h.1.tidy
  have hkept₃ : List.Forall₂ (fun l l' : Line α => l.Kept l' ∧
      LiftsHeight c third.diagnostics l l')
      (Line.parseAll second.lines) (Line.parseAll third.lines) := by
    rw [← hthird]
    exact Detector.forall₂_lines (Detector.isLocal_workOffsetClearance c)
      fun here hhere _ _ _ hjudged hds =>
        hjudged.workOffsetClearance hclear (htidy₂.of_mem hhere) hds
  have htidy₃ : AllTidy third.lines := allTidy_of_forall₂ (α := α) hkept₃ fun _ _ h => h.1.tidy
  have hkept₄ : List.Forall₂ (fun l l' : Line α => l.Kept l' ∧ (l'.z? = l.z? ∨ StaysAtFace l l'))
      (Line.parseAll third.lines) (Line.parseAll last.lines) := by
    rw [← hlast]
    exact Detector.forall₂_lines (Detector.isLocal_bareFace c) fun here hhere _ _ _ hjudged _ =>
      hjudged.bareFace (htidy₃.of_mem hhere)
  have hstepped₂ := forall₂_comp (fun o l l' h (hkept : l.Kept l' ∧ l'.z? = l.z?) =>
    (⟨h.1.trans hkept.1, hkept.2.trans h.2.1, fun hplunge hinherited =>
      hkept.1.follows.event_linear (h.2.2 hplunge hinherited)⟩ :
      o.line.Kept l' ∧ l'.z? = o.line.z? ∧ (o.plunge?.isSome = true → o.isInherited = true →
        l'.event = .motion .linear))) hstepped hkept₂
  have hds : ∀ d ∈ third.diagnostics, d ∈ first.diagnostics
      ++ (second.diagnostics ++ (third.diagnostics ++ (last.diagnostics ++ []))) := by
    intro d hd
    simp [hd]
  have hbecomes := forall₂_comp (fun o l l' h (hkept : l.Kept l' ∧ LiftsHeight c _ l l') =>
    Step.Becomes.lift hds h.1.follows h.2.1 h.2.2 hkept.1.follows hkept.2) hstepped₂ hkept₃
  rw [hrun]
  exact forall₂_comp (fun _ _ _ h hkept => hkept.2.elim (h.keep hkept.1.follows)
    (h.atFace hkept.1.follows)) hbecomes hkept₄

/-! ## Both programs side by side -/

/-- The program at the end follows the program at the start, step by step. -/
theorem FixChain.forall₂_steps (hclear : ¬ c.workOffsetClearanceZ ≤ 0) {text : String}
    (htidy : AllTidy (Text.splitLines text)) :
    List.Forall₂ (fun o n : Step α => o.Follows n ∧
        o.Becomes c ((standard c).run text).diagnostics n.line)
      (steps (Line.parseText text))
      (steps (Line.parseText (((standard c).run text).fixedText.getD text))) := by
  have hreread := forall₂_reread (keepLines_standard c (Text.splitLines text))
  have hbecomes := forall₂_comp (fun (o : Step α) l l' h (hsame : l'.number = l.number ∧
      TrimsTo l.raw l'.raw ∧ l'.words = l.words) =>
        (Step.Becomes.keep h (Line.follows_of_words hsame.1 hsame.2.2)
          (Line.value?_congr (by rw [hsame.2.2])) :
          o.Becomes c ((standard c).run text).diagnostics l'))
    (forall₂_runLines hclear htidy) hreread
  have hfollows : List.Forall₂ Line.Follows (Line.parseText text : List (Line α))
      (Line.parseText (((standard c).run text).fixedText.getD text)) :=
    ModalState.forall₂_steps_left.1 (hbecomes.imp fun _ _ h => h.follows)
  have hstart : ModalState.Follows ({} : ModalState α) {} := ⟨id, .refl _⟩
  exact (hstart.steps hfollows).mp (fun _ _ hfollows hbecomes => ⟨hfollows, hbecomes⟩)
    (ModalState.forall₂_steps_right.2 hbecomes)

/-- What goes into the part at the end is asked to do so. -/
theorem FixChain.exists_rapid_of_mem (hclear : ¬ c.workOffsetClearanceZ ≤ 0) {text : String}
    (htidy : AllTidy (Text.splitLines text)) {d : Diagnostic α}
    (hd : d ∈ ((Detector.rapidPlunge c).run
      (Line.parseText (((standard c).run text).fixedText.getD text))).diagnostics) :
    ∃ n ∈ steps (Line.parseText (((standard c).run text).fixedText.getD text) : List (Line α)),
      d.line = some n.line.number ∧ n.line.motionWord? = some .rapid ∧
        ∃ z, d.finding = .rapidPlunge z false := by
  obtain ⟨n, hn, before, after, v, hv, rfl⟩ := Detector.exists_verdict_of_mem hd
  obtain ⟨z, hplunge, hline, hfinding, -⟩ := Detector.rapidPlunge_eq_some hv
  have hinherited : n.isInherited = false := by
    -- What comes from the lines before comes from a line that the first pass has made a cut.
    by_contra hyes
    have hinherit : n.line.event = .inherit := by simpa [Step.isInherited] using hyes
    obtain ⟨o, -, hfollows, hbecomes⟩ :=
      forall_of_forall₂_right (forall₂_steps hclear htidy) n hn
    have hold := hfollows.plunge?_eq_some hinherit hplunge
    have holdInherit := hfollows.line.event_inherit hinherit
    have hcut := hbecomes.cut (by rw [hold]; rfl) (by simpa [Step.isInherited] using holdInherit)
    rw [hinherit] at hcut
    cases hcut
  have hrapid := (Step.plunge?_eq_some.1 hplunge).1
  have hstate := (ModalState.after_eq_of_mem hn).1
  rw [hinherited] at hfinding
  exact ⟨n, hn, hline, Step.motionWord?_of_isRapid hstate hrapid hinherited, z, hfinding⟩

end

end SpacerTurning
