import SpacerTurning.Proofs.Check.Feeding
import SpacerTurning.Proofs.Check.Home
import SpacerTurning.Proofs.Check.Positions
import SpacerTurning.Proofs.Check.Sequence

/-!
Programs with sequence numbers.

Two programs run side by side that differ in sequence numbers only.  Every state is the same in
both, and a line is mended in both alike.  A line is the other with a number in front as long as
nothing but its words matters; a line that has been made a cut only has the same words, and no pass
looks at it again but for a feed.
-/

namespace SpacerTurning

open Number

variable {α : Type}

/-- The line reads a sequence number. -/
def Line.isNumbered (l : Line α) : Bool := l.words.any fun w => w.letter = 'N'

theorem Line.isNumbered_eq (l : Line α) :
    l.isNumbered = (wordsWith 'N' l.words).any fun _ => true := by
  rw [wordsWith, List.any_filter]
  simp [isNumbered]

variable [Scalar α]

/-! ## Lines -/

/-- Two lines differ in sequence numbers only.  One is the other with a number in front, which tells
whether a number is read as long as there is no feed; or both have been made cuts, with a feed unless
the code ends before. -/
structure Line.Renumbered (numbered : Nat → Bool) (l l' : Line α) : Prop where
  isRead : l.IsRead
  isRead' : l'.IsRead
  number : l'.number = l.number
  words {letter : Char} : letter ≠ 'N' → wordsWith letter l'.words = wordsWith letter l.words
  source : (IsNumbered l.raw.toList l'.raw.toList ∧
      (l.feed? = none → l'.isNumbered = numbered l.number)) ∨
    (l.motionWord? = some .linear ∧ (l.feed? = none → l.isEnded = true ∧ l'.isEnded = true))

namespace Line

/-- A line that is made a cut and has no feed then ends before the feed that it was given. -/
theorem isEnded_cut [LawfulScalar α] {l m : Line α} {feed : α} (hl : l.IsRead) (hm : m.IsRead)
    (hraw : m.raw = l.cutText feed) (hfeed : m.feed? = none) : m.isEnded = true := by
  have hcut := feed?_cut hl hm hraw
  rw [hfeed] at hcut
  obtain ⟨hnone, hended⟩ : l.feed? = none ∧ l.isEnded = true := by simpa [not_or] using hcut
  have hfront : (parse l.number (Edit.prependWord l.raw "G01") : Line α).isEnded = true := by
    simp only [isEnded, List.contains_iff_mem] at hended ⊢
    exact (Edit.isCutOf_prependWord (α := α) l.raw).ended.2 hended
  have hmended : m.raw
      = Edit.insertBeforeComment (Edit.prependWord l.raw "G01") (feedWord feed) := by
    rw [hraw, cutText, hnone]
    rfl
  exact Detector.isEnded_insertFeed hfront hmended

namespace Renumbered

variable {numbered : Nat → Bool} {l l' : Line α}

theorem event (h : l.Renumbered numbered l') : l'.event = l.event :=
  event_congr (h.words (by decide)) (h.words (by decide))

theorem motionWord? (h : l.Renumbered numbered l') : l'.motionWord? = l.motionWord? :=
  motionWord?_congr (h.words (by decide))

theorem x? (h : l.Renumbered numbered l') : l'.x? = l.x? := value?_congr (h.words (by decide))

theorem z? (h : l.Renumbered numbered l') : l'.z? = l.z? := value?_congr (h.words (by decide))

theorem feed? (h : l.Renumbered numbered l') : l'.feed? = l.feed? :=
  value?_congr (h.words (by decide))

theorem has (h : l.Renumbered numbered l') (code : Nat) : l'.has 'G' code = l.has 'G' code := by
  rw [has_eq, has_eq, h.words (by decide)]

theorem next (h : l.Renumbered numbered l') (s : ModalState α) : s.next l' = s.next l := by
  unfold ModalState.next
  rw [h.event, h.feed?, h.x?, h.z?, tool?_congr (h.words (by decide))]

/-! ## Lines that are mended alike -/

section

variable [LawfulScalar α] {m m' : Line α} {feed : α} (hm : m.IsRead) (hm' : m'.IsRead)
  (hnumber : m.number = l.number) (hnumber' : m'.number = l'.number)

include hm hm' hnumber hnumber'

theorem cut (h : l.Renumbered numbered l') (hevent : l.event = .inherit)
    (hraw : m.raw = l.cutText feed) (hraw' : m'.raw = l'.cutText feed) :
    m.Renumbered numbered m' := by
  have hmotion := (of_event_inherit hevent).1
  obtain ⟨hline, -⟩ := h.source.resolve_right fun hcut => by
    rw [hmotion] at hcut
    cases hcut.1
  have hfront := (hline.readsAlike (α := α)).prependCut
  have hwords {letter : Char} (hletter : letter ≠ 'N') :
      wordsWith letter m'.words = wordsWith letter m.words := by
    rw [hm.words, hm'.words, hraw, hraw', cutText, cutText, h.feed?]
    cases l.feed? with
    | none => exact hfront.insertFeed feed hletter
    | some _ => exact hfront.lineWords hletter
  refine ⟨hm, hm', by rw [hnumber, hnumber', h.number], hwords, Or.inr ⟨?_, fun hnone => ⟨?_, ?_⟩⟩⟩
  · exact motionWord?_cut h.isRead hm hraw hmotion
  · exact isEnded_cut h.isRead hm hraw hnone
  · have hnone' : m'.feed? = m.feed? := value?_congr (hwords (by decide))
    exact isEnded_cut h.isRead' hm' hraw' (hnone'.trans hnone)

theorem insertFeed (h : l.Renumbered numbered l') (hfeed : l.feed? = none)
    (hraw : m.raw = Edit.insertBeforeComment l.raw (feedWord feed))
    (hraw' : m'.raw = Edit.insertBeforeComment l'.raw (feedWord feed)) :
    m.Renumbered numbered m' := by
  have hstay {a b : Line α} (ha : a.IsRead) (hb : b.IsRead) (hended : a.isEnded = true)
      (hraw : b.raw = Edit.insertBeforeComment a.raw (feedWord feed)) : b.words = a.words := by
    rw [hb.words, hraw, Edit.lineWords_insert_of_ended (by simpa [isEnded] using hended), ha.words]
  have hsame : m'.number = m.number := by rw [hnumber, hnumber', h.number]
  rcases h.source with ⟨hline, hread⟩ | ⟨hlinear, hended⟩
  · have hnew : IsNumbered m.raw.toList m'.raw.toList := by
      rw [hraw, hraw']
      exact hline.insertBeforeComment _
    refine ⟨hm, hm', hsame, fun hletter => ?_, Or.inl ⟨hnew, fun hnone => ?_⟩⟩
    · rw [hm.words, hm'.words, hnew.wordsWith_lineWords hletter]
    · -- A feed that is not read stands behind the end of the code, where nothing is read.
      have hF : wordsWith 'F' m.words = [] := by simpa [hnone] using feed?_isSome m
      rw [hm.words, hraw, wordsWith_feed_insertFeed] at hF
      have hended : l'.isEnded = true := by simpa [isEnded] using hline.ended.2 hF.1
      rw [isNumbered, hstay h.isRead' hm' hended hraw', hnumber]
      exact hread hfeed
  · obtain ⟨hend, hend'⟩ := hended hfeed
    have hwords := hstay h.isRead hm hend hraw
    have hwords' := hstay h.isRead' hm' hend' hraw'
    refine ⟨hm, hm', hsame, fun hletter => ?_, Or.inr ⟨?_, fun _ => ⟨?_, ?_⟩⟩⟩
    · rw [hwords, hwords', h.words hletter]
    · rw [motionWord?_congr (l := l) (by rw [hwords]), hlinear]
    · exact Detector.isEnded_insertFeed hend hraw
    · exact Detector.isEnded_insertFeed hend' hraw'

theorem height (h : l.Renumbered numbered l') (hmotion : l.motionWord? ≠ some .linear)
    {height : α} (hraw : m.raw = Edit.replaceWord l.raw 'Z' ("Z" ++ Word.format height))
    (hraw' : m'.raw = Edit.replaceWord l'.raw 'Z' ("Z" ++ Word.format height)) :
    m.Renumbered numbered m' := by
  obtain ⟨hline, hread⟩ := h.source.resolve_right fun hcut => hmotion hcut.1
  have hnew : IsNumbered m.raw.toList m'.raw.toList := by
    rw [hraw, hraw']
    exact hline.replaceWord (by decide) _
  refine ⟨hm, hm', by rw [hnumber, hnumber', h.number], fun hletter => ?_,
    Or.inl ⟨hnew, fun hnone => ?_⟩⟩
  · rw [hm.words, hm'.words, hnew.wordsWith_lineWords hletter]
  · have hfeed : m.feed? = l.feed? := value?_congr (wordsWith_height h.isRead hm hraw (by decide))
    rw [isNumbered_eq, wordsWith_height h.isRead' hm' hraw' (by decide), ← isNumbered_eq, hnumber]
    exact hread (hfeed.symm.trans hnone)

end

end Renumbered

end Line

/-! ## Steps -/

structure Step.Renumbered (numbered : Nat → Bool) (o n : Step α) : Prop where
  line : o.line.Renumbered numbered n.line
  before : n.before = o.before
  after : n.after = o.after

/-- Sequence numbers change no state. -/
theorem ModalState.forall₂_renumbered {numbered : Nat → Bool} {lines lines' : List (Line α)}
    (h : List.Forall₂ (Line.Renumbered numbered) lines lines') :
    List.Forall₂ (Step.Renumbered numbered) (SpacerTurning.steps lines)
      (SpacerTurning.steps lines') := by
  have hlines : List.Forall₂ (fun o l => o.line.Renumbered numbered l)
      (SpacerTurning.steps lines) lines' := forall₂_steps_left.2 h
  have hnext (s s' : ModalState α) (l l' : Line α) (hs : s' = s)
      (hl : l.Renumbered numbered l') : s'.next l' = s.next l := by rw [hs, hl.next]
  have hsteps := forall₂_simulates (S := fun s s' => s' = s) hnext rfl hlines
  exact hsteps.imp fun o n ⟨hline, hbefore, hafter⟩ => ⟨hline, hbefore, hafter⟩

theorem firstWithin_congr {β γ : Type} {R : β → β → Prop} {read : β → Option γ}
    (hread : ∀ a b, R a b → read b = read a) {as bs : List β} (h : List.Forall₂ R as bs)
    (window : Nat) : firstWithin read window bs = firstWithin read window as := by
  induction h generalizing window with
  | nil => rfl
  | cons hab _ ih =>
    cases window with
    | zero => rfl
    | succ window => rw [firstWithin, firstWithin, hread _ _ hab, ih]

namespace Step

theorem isRapid_of_linear {s : Step α} (hstate : s.after = s.before.next s.line)
    (h : s.line.motionWord? = some .linear) : s.isRapid = false := by
  have hmotion : s.after.motion ≠ .rapid := by
    rw [hstate, ModalState.next_motion, Line.event, h]
    cases s.line.isMachine <;> cases s.line.tool?.isSome <;> simp [MotionState.after,
      MotionWord.state]
  simp [isRapid, hmotion]

namespace Renumbered

variable {numbered : Nat → Bool} {o n : Step α}

theorem isInherited (h : o.Renumbered numbered n) : n.isInherited = o.isInherited := by
  rw [Step.isInherited, Step.isInherited, h.line.event]

theorem isRapid (h : o.Renumbered numbered n) : n.isRapid = o.isRapid := by
  rw [Step.isRapid, Step.isRapid, h.after]

theorem isRapidZ (h : o.Renumbered numbered n) : n.isRapidZ = o.isRapidZ := by
  rw [Step.isRapidZ, Step.isRapidZ, h.isRapid, h.line.z?]

theorem plunge? (h : o.Renumbered numbered n) : n.plunge? = o.plunge? := by
  rw [Step.plunge?, Step.plunge?, h.isRapid, h.line.z?, h.before]

theorem switchesWithoutFeed (h : o.Renumbered numbered n) :
    n.switchesWithoutFeed = o.switchesWithoutFeed := by
  unfold Step.switchesWithoutFeed Line.isMachine Line.hasAxis
  rw [h.line.motionWord?, h.line.has, h.before, h.line.feed?, h.line.x?, h.line.z?]

theorem isDiagonal (h : o.Renumbered numbered n) : n.isDiagonal = o.isDiagonal := by
  rw [Step.isDiagonal, Step.isDiagonal, h.line.x?, h.line.z?, h.before]

/-- A bare face in the one program is one in the other, unless its line reads a sequence number. -/
theorem isBareFace (h : o.Renumbered numbered n) (hinherited : o.isInherited = true) :
    n.isBareFace = (o.isBareFace && !numbered o.line.number) := by
  have hevent : o.line.event = .inherit := by simpa [Step.isInherited] using hinherited
  obtain ⟨hline, hread⟩ := h.line.source.resolve_right fun hcut => by
    rw [(Line.of_event_inherit hevent).1] at hcut
    cases hcut.1
  obtain ⟨own, hown, hwords⟩ := hline.exists_lineWords (α := α)
  rw [← h.line.isRead.words, ← h.line.isRead'.words] at hwords
  have hsame : n.isBareFace = (o.isBareFace && own.isEmpty) := by
    unfold Step.isBareFace
    rw [hwords]
    cases own with
    | nil => simp
    | cons w own =>
      have hN : w.letter = 'N' := hown w List.mem_cons_self
      cases hrest : own ++ o.line.words <;> simp [hrest, hN]
  rw [hsame]
  cases hface : o.isBareFace with
  | false => rfl
  | true =>
    obtain ⟨z, hz, -⟩ := Step.exists_of_isBareFace hface
    have hnone : o.line.feed? = none := by simp [Line.feed?, Line.value?, hz]
    have hnumbered : n.line.isNumbered = !own.isEmpty := by
      cases own with
      | nil => simp [Line.isNumbered, hwords, hz]
      | cons w own => simp [Line.isNumbered, hwords, hown w List.mem_cons_self]
    rw [← hread hnone, hnumbered, Bool.not_not]

theorem precedingFeed? {before before' : List (Step α)}
    (h : List.Forall₂ (Step.Renumbered numbered) before before') (window : Nat) :
    Step.precedingFeed? window before' = Step.precedingFeed? window before :=
  firstWithin_congr (fun _ _ hab => hab.line.feed?) h window

theorem followsWorkOffset {before before' : List (Step α)}
    (hbefore : List.Forall₂ (Step.Renumbered numbered) before before')
    (h : o.Renumbered numbered n) (window : Nat) :
    Detector.followsWorkOffset window before' n = Detector.followsWorkOffset window before o := by
  unfold Detector.followsWorkOffset
  rw [h.isRapidZ, h.line.has]
  dsimp only
  rw [firstWithin_congr (fun a b hab => by rw [hab.line.has, hab.isRapidZ]) hbefore]

theorem chamferAfter? {after after' : List (Step α)}
    (h : List.Forall₂ (Step.Renumbered numbered) after after') :
    (Detector.chamferAfter? after').map (·.line.number)
      = (Detector.chamferAfter? after).map (·.line.number) := by
  have htake := List.forall₂_take Detector.chamferWindow h
  unfold Detector.chamferAfter?
  generalize after.take Detector.chamferWindow = as, after'.take Detector.chamferWindow = bs
    at htake ⊢
  induction htake with
  | nil => rfl
  | @cons a b as bs hab _ ih =>
    have hslants : (b.line.motionWord? == some .linear && b.isDiagonal)
        = (a.line.motionWord? == some .linear && a.isDiagonal) := by
      rw [hab.line.motionWord?, hab.isDiagonal]
    rw [List.find?_cons, List.find?_cons, hslants]
    split
    · rw [Option.map_some, Option.map_some, hab.line.number]
    · exact ih

end Renumbered

end Step

end SpacerTurning
