import SpacerTurning.Proofs.Check.Steps
import SpacerTurning.Proofs.Check.Words

/-!
Words with a letter.

What a line says of an axis, of its feed, its tool or its motion depends on the words with one
letter, in their order, and on no other words.  So a change to a line is described letter by letter.
-/

namespace SpacerTurning

open Number

variable {α : Type}

def wordsWith (letter : Char) (words : List (AddressWord α)) : List (AddressWord α) :=
  words.filter fun w => w.letter = letter

@[simp] theorem wordsWith_nil (letter : Char) : wordsWith letter ([] : List (AddressWord α)) = [] :=
  rfl

@[simp] theorem wordsWith_append (letter : Char) (a b : List (AddressWord α)) :
    wordsWith letter (a ++ b) = wordsWith letter a ++ wordsWith letter b := by
  simp [wordsWith]

theorem wordsWith_of_all {letter : Char} {words : List (AddressWord α)}
    (h : ∀ w ∈ words, w.letter = letter) : wordsWith letter words = words := by
  simpa [wordsWith] using h

theorem wordsWith_of_none {letter : Char} {words : List (AddressWord α)}
    (h : ∀ w ∈ words, w.letter ≠ letter) : wordsWith letter words = [] := by
  simpa [wordsWith] using h

theorem wordsWith_of_ne {letter other : Char} {words : List (AddressWord α)}
    (h : ∀ w ∈ words, w.letter = other) (hne : letter ≠ other) : wordsWith letter words = [] :=
  wordsWith_of_none fun w hw e => hne (e.symm.trans (h w hw))

variable [Scalar α]

theorem letter_of_mem_wordOf {l : Char} {n : List Char} {w : AddressWord α}
    (h : w ∈ (wordOf l n).toList) : w.letter = l.toUpper := by
  rw [Option.mem_toList, wordOf, Piece.word?, Option.map_eq_some_iff] at h
  obtain ⟨value, -, rfl⟩ := h
  rfl

namespace Line

variable {l l' : Line α} {letter : Char}

omit [Scalar α] in
theorem value?_eq (l : Line α) (letter : Char) :
    l.value? letter = (wordsWith letter l.words).head?.map (·.value) := by
  rw [wordsWith, List.head?_filter]
  rfl

theorem tool?_eq (l : Line α) : l.tool? = (wordsWith 'T' l.words).head?.bind (·.code?) := by
  rw [wordsWith, List.head?_filter]
  rfl

theorem has_eq (l : Line α) (letter : Char) (code : Nat) :
    l.has letter code = (wordsWith letter l.words).any fun w => w.code? == some code := by
  rw [wordsWith, List.any_filter]
  rfl

theorem motionWord?_eq (l : Line α) :
    l.motionWord? = ((wordsWith 'G' l.words).filterMap fun w =>
      w.code?.bind MotionWord.ofCode?).getLast? := rfl

omit [Scalar α] in
theorem value?_congr (h : wordsWith letter l'.words = wordsWith letter l.words) :
    l'.value? letter = l.value? letter := by
  rw [value?_eq, value?_eq, h]

theorem tool?_congr (h : wordsWith 'T' l'.words = wordsWith 'T' l.words) : l'.tool? = l.tool? := by
  rw [tool?_eq, tool?_eq, h]

theorem isMachine_congr (h : wordsWith 'G' l'.words = wordsWith 'G' l.words) :
    l'.isMachine = l.isMachine := by
  rw [isMachine, isMachine, has_eq, has_eq, h]

theorem motionWord?_congr (h : wordsWith 'G' l'.words = wordsWith 'G' l.words) :
    l'.motionWord? = l.motionWord? := by
  rw [motionWord?_eq, motionWord?_eq, h]

/-- What a line does follows from its preparatory words and its tool. -/
theorem event_congr (hG : wordsWith 'G' l'.words = wordsWith 'G' l.words)
    (hT : wordsWith 'T' l'.words = wordsWith 'T' l.words) : l'.event = l.event := by
  rw [event, event, isMachine_congr hG, tool?_congr hT, motionWord?_congr hG]

/-- A line that relies on the lines before it has no motion word, and none of machine coordinates
or of a tool either. -/
theorem of_event_inherit (h : l.event = .inherit) :
    l.motionWord? = none ∧ l.isMachine = false ∧ l.tool?.isSome = false := by
  rcases l.event_cases with ⟨-, he⟩ | ⟨-, -, he⟩ | ⟨hmachine, htool, ⟨word, -, he⟩ | ⟨hnone, -⟩⟩
  · cases h.symm.trans he
  · cases h.symm.trans he
  · cases h.symm.trans he
  · exact ⟨hnone, hmachine, htool⟩

theorem of_event_motion {word : MotionWord} (h : l.event = .motion word) :
    l.motionWord? = some word ∧ l.isMachine = false ∧ l.tool?.isSome = false := by
  rcases l.event_cases with ⟨-, he⟩ | ⟨-, -, he⟩ | ⟨hmachine, htool, ⟨word', hword, he⟩ | ⟨-, he⟩⟩
  · cases h.symm.trans he
  · cases h.symm.trans he
  · cases h.symm.trans he
    exact ⟨hword, hmachine, htool⟩
  · cases h.symm.trans he

theorem motionWord?_of_event {word : MotionWord} (h : l.event = .motion word) :
    l.motionWord? = some word :=
  (of_event_motion h).1

/-- The words that a cut is asked for with, in front of a line without motion words. -/
theorem motionWord?_of_linear {w : AddressWord α} (hcode : w.code? = some 1)
    (hnone : l.motionWord? = none)
    (hwords : wordsWith 'G' l'.words = w :: wordsWith 'G' l.words) :
    l'.motionWord? = some .linear := by
  rw [motionWord?_eq, List.getLast?_eq_none_iff] at hnone
  rw [motionWord?_eq, hwords, List.filterMap_cons, hcode]
  simp [hnone, MotionWord.ofCode?]

theorem isMachine_of_linear {w : AddressWord α} (hcode : w.code? = some 1)
    (hwords : wordsWith 'G' l'.words = w :: wordsWith 'G' l.words) :
    l'.isMachine = l.isMachine := by
  rw [isMachine, isMachine, has_eq, has_eq, hwords, List.any_cons, hcode]
  simp

/-- A line that relies on the lines before it is a cut of its own once it is asked for one. -/
theorem event_of_linear {w : AddressWord α} (hcode : w.code? = some 1) (hl : l.event = .inherit)
    (hG : wordsWith 'G' l'.words = w :: wordsWith 'G' l.words)
    (hT : wordsWith 'T' l'.words = wordsWith 'T' l.words) :
    l'.event = .motion .linear := by
  obtain ⟨hmotion, hmachine, htool⟩ := of_event_inherit hl
  rw [event, isMachine_of_linear hcode hG, tool?_congr hT, motionWord?_of_linear hcode hmotion hG,
    hmachine, htool]
  rfl

end Line

end SpacerTurning
