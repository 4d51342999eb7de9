import SpacerTurning.Proofs.Check.Follows
import SpacerTurning.Proofs.Check.Reread
import SpacerTurning.Proofs.Check.Tidy

/-!
Passes over tidy lines.

Each pass leaves tidy lines that follow the ones that it was given.  Only the pass for work offsets
changes a height, and after the first pass no line relies on the lines before it to go into the
part.
-/

namespace SpacerTurning

open Number

variable {α : Type} [Scalar α]

/-- What every pass keeps of a line. -/
structure Line.Kept (l l' : Line α) : Prop where
  follows : l.Follows l'
  isRead : l'.IsRead
  tidy : IsTidy l'.raw.toList
  ne_nil : l.raw.toList ≠ [] → l'.raw.toList ≠ []

theorem Line.Kept.refl {l : Line α} (hl : l.IsRead) (htidy : IsTidy l.raw.toList) : l.Kept l :=
  ⟨.refl l, hl, htidy, id⟩

theorem Line.Kept.trans {a b c : Line α} (hab : a.Kept b) (hbc : b.Kept c) : a.Kept c where
  follows := hab.follows.trans hbc.follows
  isRead := hbc.isRead
  tidy := hbc.tidy
  ne_nil h := hbc.ne_nil (hab.ne_nil h)

theorem Line.IsRead.eq_of_raw {l l' : Line α} (hl : l.IsRead) (hl' : l'.IsRead)
    (hnumber : l'.number = l.number) (hraw : l'.raw = l.raw) : l' = l := by
  rw [hl, hl', hnumber, hraw]

theorem Line.words_apart {l : Line α} (hl : l.IsRead) (htidy : IsTidy l.raw.toList) :
    l.apart.words = l.words := by
  rw [hl.words]
  exact htidy.apartWords

/-- A feed can be put into a line: it has one, or its code goes on to its first parenthesis, and no
word is read across that. -/
def Line.TakesFeed (l : Line α) : Prop :=
  l.feed?.isSome = true ∨ (l.isEnded = false ∧ l.apart.words = l.words)

theorem Line.takesFeed_of_isTidy {l : Line α} (hl : l.IsRead) (htidy : IsTidy l.raw.toList) :
    l.TakesFeed :=
  Or.inr ⟨(isEnded_eq_false l).2 htidy.not_ended, words_apart hl htidy⟩

section

variable [LawfulScalar α] {l l' : Line α} {feed : α}

/-- A cut that is made of a line without a motion goes where the line goes, with a feed. -/
theorem Line.cut_reads (hl : l.IsRead) (hl' : l'.IsRead) (hraw : l'.raw = l.cutText feed)
    (hevent : l.event = .inherit) (htakes : l.TakesFeed) :
    l'.event = .motion .linear ∧ l'.x? = l.x? ∧ l'.z? = l.z? ∧ l'.feed?.isSome = true := by
  have hsame : (if l.feed?.isSome then l.words else l.apart.words) = l.words := by
    rcases htakes with hfeed | ⟨-, hwords⟩
    · rw [if_pos hfeed]
    · rw [hwords, ite_self]
  obtain ⟨w, hw, hletter, hcode⟩ := exists_cutWord (α := α)
  have hwords {letter : Char} (hN : letter ≠ 'N') (hF : letter ≠ 'F') :
      wordsWith letter l'.words = wordsWith letter [w] ++ wordsWith letter l.words := by
    rw [wordsWith_cut hl hl' hraw hN hF, hw, hsame]
    rfl
  have hother {letter : Char} (hN : letter ≠ 'N') (hF : letter ≠ 'F') (hG : letter ≠ 'G') :
      wordsWith letter l'.words = wordsWith letter l.words := by
    rw [hwords hN hF, wordsWith_of_ne (by simpa using hletter) hG, List.nil_append]
  have hG := hwords (by decide : 'G' ≠ 'N') (by decide)
  have hone : wordsWith 'G' [w] = [w] := wordsWith_of_all (by simpa using hletter)
  rw [hone, List.singleton_append] at hG
  refine ⟨event_of_linear hcode hevent hG (hother (by decide) (by decide) (by decide)),
    value?_congr (hother (by decide) (by decide) (by decide)),
    value?_congr (hother (by decide) (by decide) (by decide)), ?_⟩
  rw [feed?_cut hl hl' hraw]
  exact htakes.imp_right fun h => h.1

/-- A line that is given a feed has it, and keeps all of its other words. -/
theorem Line.insertFeed_reads (hl' : l'.IsRead)
    (hraw : l'.raw = Edit.insertBeforeComment l.raw (feedWord feed)) (hnone : l.feed? = none)
    (htakes : l.TakesFeed) :
    l'.feed?.isSome = true ∧
      ∀ letter, letter ≠ 'F' → wordsWith letter l'.words = wordsWith letter l.words := by
  obtain ⟨hended, hapart⟩ := htakes.resolve_left (by simp [hnone])
  constructor
  · rw [feed?_isSome, hl'.words, hraw, Ne, wordsWith_feed_insertFeed]
    exact fun hboth => (isEnded_eq_false l).1 hended hboth.1
  · intro letter hF
    rw [hl'.words, hraw, wordsWith_insertFeed _ _ hF, ← hapart]
    rfl

end

def StaysAtFace (l l' : Line α) : Prop :=
  ∃ z u, l.z? = some z ∧ l'.z? = some u ∧ (z == 0) = true ∧ (u == 0) = true

/-- A height stays, or it was reported as too close to the face and is the clearance now.  A
clearance that is no finite number at four places is written as zero. -/
def LiftsHeight (c : CheckingConstants α) (ds : List (Diagnostic α)) (l l' : Line α) : Prop :=
  l'.z? = l.z? ∨
    ∃ z u, l.z? = some z ∧ 0 ≤ z ∧ z < c.workOffsetMinClearance ∧
      (∃ d ∈ ds, d.line = some l.number ∧
        d.finding = .lowClearance z c.workOffsetMinClearance) ∧
      l'.z? = some u ∧
      (if Scalar.isFinite (Scalar.round4 c.workOffsetClearanceZ) then
        u == Scalar.round4 c.workOffsetClearanceZ else u == 0) = true

/-- A bare face says nothing but its height. -/
theorem Step.exists_of_isBareFace {t : Step α} (h : t.isBareFace = true) :
    ∃ z, t.line.words = [{ letter := 'Z', value := z }] ∧ (z == 0) = true := by
  unfold isBareFace at h
  split at h
  · next w hwords =>
    simp only [Bool.and_eq_true, decide_eq_true_eq] at h
    refine ⟨w.value, ?_, h.2⟩
    rw [hwords, ← h.1]
  · cases h

/-! ## Steps of the passes -/

namespace Detector

/-- A line that a detector has nothing to say of stays as it is. -/
theorem IsJudged.eq_of_none {judge : Detector α} {here : Step α} {l' : Line α}
    {before after : List (Step α)} (h : judge.IsJudged here l' before after)
    (hnone : judge before here after = none) : l' = here.line :=
  h.isRead.eq_of_raw h.isRead' h.number (by rw [h.raw, hnone]; rfl)

section

variable [LawfulScalar α] {c : CheckingConstants α} {here : Step α} {l' : Line α}
  {before after : List (Step α)}

/-- The first pass keeps every height, and makes a cut of what goes into the part without being
asked for a motion. -/
theorem IsJudged.rapidPlunge (h : (rapidPlunge c).IsJudged here l' before after)
    (htidy : IsTidy here.line.raw.toList) :
    here.line.Kept l' ∧ l'.z? = here.line.z? ∧
      (here.plunge?.isSome = true → here.isInherited = true → l'.event = .motion .linear) := by
  have hl := h.isRead
  have hl' := h.isRead'
  cases hjudge : Detector.rapidPlunge c before here after with
  | none =>
    have hnone : here.plunge? = none := Option.map_eq_none_iff.1 hjudge
    rw [h.eq_of_none hjudge, hnone]
    exact ⟨.refl hl htidy, rfl, fun hsome => by cases hsome⟩
  | some v =>
    obtain ⟨z, -, -, -, htext⟩ := rapidPlunge_eq_some hjudge
    rw [← h.raw_eq hjudge] at htext
    split at htext
    · next hinherited =>
      obtain ⟨feed, htext⟩ := htext
      have hevent : here.line.event = .inherit := by simpa [Step.isInherited] using hinherited
      obtain ⟨hlinear, hx, hz, -⟩ :=
        Line.cut_reads hl hl' htext hevent (Line.takesFeed_of_isTidy hl htidy)
      refine ⟨⟨⟨h.number, Or.inr ⟨hevent, hlinear⟩, hx, Or.inl hz⟩, hl', ?_, fun hne => ?_⟩, hz,
        fun _ _ => hlinear⟩
      · rw [htext]
        exact htidy.cutText feed
      · rw [htext]
        exact (KeepsLine.cutText here.line feed).2 hne
    · next hinherited =>
      have heq := hl.eq_of_raw hl' h.number htext
      rw [heq]
      exact ⟨.refl hl htidy, rfl, fun _ hyes => absurd hyes hinherited⟩

/-- The second pass keeps every height. -/
theorem IsJudged.missingFeed (h : (missingFeed c).IsJudged here l' before after)
    (htidy : IsTidy here.line.raw.toList) : here.line.Kept l' ∧ l'.z? = here.line.z? := by
  have hl := h.isRead
  have hl' := h.isRead'
  cases hjudge : Detector.missingFeed c before here after with
  | none =>
    rw [h.eq_of_none hjudge]
    exact ⟨.refl hl htidy, rfl⟩
  | some v =>
    obtain ⟨hswitches, -, feed, htext⟩ := missingFeed_eq_some hjudge
    rw [← h.raw_eq hjudge] at htext
    obtain ⟨-, hwords⟩ := Line.insertFeed_reads hl' htext (Step.feed?_of_switches hswitches)
      (Line.takesFeed_of_isTidy hl htidy)
    have hz : l'.z? = here.line.z? := Line.value?_congr (hwords 'Z' (by decide))
    refine ⟨⟨⟨h.number, Or.inl ?_, Line.value?_congr (hwords 'X' (by decide)), Or.inl hz⟩, hl', ?_,
      fun hne => ?_⟩, hz⟩
    · exact Line.event_congr (hwords 'G' (by decide)) (hwords 'T' (by decide))
    · rw [htext]
      exact htidy.insertFeed feed
    · rw [htext]
      exact (KeepsLine.insertBeforeComment _ (KeepsLine.feed_not_mem_feedWord feed)).2 hne

/-- The third pass changes nothing but the height of a line. -/
theorem IsJudged.wordsWith_workOffsetClearance
    (h : (Detector.workOffsetClearance c).IsJudged here l' before after) {letter : Char}
    (hletter : letter ≠ 'Z') : wordsWith letter l'.words = wordsWith letter here.line.words := by
  cases hjudge : Detector.workOffsetClearance c before here after with
  | none => rw [h.eq_of_none hjudge]
  | some v =>
    obtain ⟨-, htext, -⟩ := workOffsetClearance_eq_some hjudge
    rw [← h.raw_eq hjudge] at htext
    exact Line.wordsWith_height h.isRead h.isRead' htext hletter

/-- The third pass keeps every height but those too close to the face, which it reports and puts at
the clearance. -/
theorem IsJudged.workOffsetClearance (hclear : ¬ c.workOffsetClearanceZ ≤ 0)
    (h : (workOffsetClearance c).IsJudged here l' before after)
    (htidy : IsTidy here.line.raw.toList) {ds : List (Diagnostic α)}
    (hds : ∀ v, Detector.workOffsetClearance c before here after = some v → v.diagnostic ∈ ds) :
    here.line.Kept l' ∧ LiftsHeight c ds here.line l' := by
  have hl := h.isRead
  have hl' := h.isRead'
  cases hjudge : Detector.workOffsetClearance c before here after with
  | none =>
    rw [h.eq_of_none hjudge]
    exact ⟨.refl hl htidy, Or.inl rfl⟩
  | some v =>
    obtain ⟨hline, htext, z, hz, hz0, hless, hfinding⟩ := workOffsetClearance_eq_some hjudge
    rw [← h.raw_eq hjudge] at htext
    have hwords {letter : Char} (hletter : letter ≠ 'Z') :=
      h.wordsWith_workOffsetClearance hletter
    have hkept (hsafe : SafeHeight here.line.z? l'.z?) : here.line.Kept l' := by
      refine ⟨⟨h.number, Or.inl ?_, Line.value?_congr (hwords (by decide)), hsafe⟩, hl', ?_,
        fun hne => ?_⟩
      · exact Line.event_congr (hwords (by decide)) (hwords (by decide))
      · rw [htext]
        exact htidy.height _
      · rw [htext]
        exact (KeepsLine.height _ _).2 hne
    cases hfront : here.line.hasInFront 'Z' with
    | false =>
      have hsame := Line.z?_height_of_not hl hl' htext hfront
      refine ⟨hkept ?_, Or.inl hsame⟩
      rw [hsame]
      exact .refl _
    | true =>
      obtain ⟨u, hu, -, hvalue, hu0⟩ := Line.exists_z?_height hl' htext hfront
      exact ⟨hkept (Or.inr ⟨z, u, hz, hu, hz0, hu0 hclear⟩),
        Or.inr ⟨z, u, hz, hz0, hless, ⟨v.diagnostic, hds v hjudge, hline, hfinding⟩, hu, hvalue⟩⟩

/-- The last pass keeps every height, but for the way in which zero is written. -/
theorem IsJudged.bareFace (h : (bareFace c).IsJudged here l' before after)
    (htidy : IsTidy here.line.raw.toList) :
    here.line.Kept l' ∧ (l'.z? = here.line.z? ∨ StaysAtFace here.line l') := by
  have hl := h.isRead
  have hl' := h.isRead'
  cases hjudge : Detector.bareFace c before here after with
  | none =>
    rw [h.eq_of_none hjudge]
    exact ⟨.refl hl htidy, Or.inl rfl⟩
  | some v =>
    obtain ⟨hface, hinherited, -, feed, htext⟩ := bareFace_eq_some hjudge
    rw [← h.raw_eq hjudge] at htext
    have hevent : here.line.event = .inherit := by simpa [Step.isInherited] using hinherited
    obtain ⟨z, hwords, hz0⟩ := Step.exists_of_isBareFace hface
    have hx : here.line.x? = none := by simp [Line.x?, Line.value?, hwords]
    have hz : here.line.z? = some z := by simp [Line.z?, Line.value?, hwords]
    obtain ⟨hevent', -, hx', ⟨v, hz', hv0⟩, -⟩ := Line.face_reads hl' htext hl.comment
    refine ⟨⟨⟨h.number, Or.inr ⟨hevent, hevent'⟩, by rw [hx, hx'], ?_⟩, hl', ?_, fun hne => ?_⟩,
      Or.inr ⟨z, v, hz, hz', hz0, hv0⟩⟩
    · exact Or.inr ⟨z, v, hz, hz', LawfulScalar.nonneg_of_zero hz0,
        LawfulScalar.nonneg_of_zero hv0⟩
    · rw [htext]
      exact htidy.faceText hl feed
    · rw [htext]
      exact (KeepsLine.faceText hl feed).2 hne

end

end Detector

end SpacerTurning
