import SpacerTurning.Proofs.Check.Letters
import SpacerTurning.Proofs.Check.Steps
import SpacerTurning.Proofs.Number.Lawful

/-!
Programs that follow one another.

A program follows another one if it asks for a cut wherever it asks for something else, and differs
in no height below the face.  Both programs then run side by side: a rapid move of the one is a rapid
move of the other, and so is a move into the part.
-/

namespace SpacerTurning

open Number

variable {α : Type} [Scalar α]

/-- Two heights are the same, or none of them is below the face. -/
def SafeHeight (z z' : Option α) : Prop :=
  z' = z ∨ ∃ a b, z = some a ∧ z' = some b ∧ 0 ≤ a ∧ 0 ≤ b

namespace SafeHeight

theorem refl (z : Option α) : SafeHeight z z := Or.inl rfl

theorem trans {a b c : Option α} (hab : SafeHeight a b) (hbc : SafeHeight b c) :
    SafeHeight a c := by
  rcases hab with rfl | ⟨u, v, hu, hv, hu0, hv0⟩
  · exact hbc
  · rcases hbc with rfl | ⟨v', w, hv', hw, -, hw0⟩
    · exact Or.inr ⟨u, v, hu, hv, hu0, hv0⟩
    · exact Or.inr ⟨u, w, hu, hw, hu0, hw0⟩

theorem orElse {a a' b b' : Option α} (ha : SafeHeight a a') (hb : SafeHeight b b') :
    SafeHeight (a <|> b) (a' <|> b') := by
  rcases ha with rfl | ⟨u, v, rfl, rfl, hu, hv⟩
  · cases a' with
    | none => simpa using hb
    | some _ => exact refl _
  · exact Or.inr ⟨u, v, rfl, rfl, hu, hv⟩

end SafeHeight

/-- A line follows another one: it does the same, or asks for a cut where the other one relies on the
lines before it, and goes to the same place, or to another height above the face. -/
structure Line.Follows (l l' : Line α) : Prop where
  number : l'.number = l.number
  event : l'.event = l.event ∨ (l.event = .inherit ∧ l'.event = .motion .linear)
  x : l'.x? = l.x?
  z : SafeHeight l.z? l'.z?

namespace Line.Follows

variable {a b c : Line α}

theorem refl (l : Line α) : l.Follows l := ⟨rfl, Or.inl rfl, rfl, .refl _⟩

theorem trans (hab : a.Follows b) (hbc : b.Follows c) : a.Follows c where
  number := hbc.number.trans hab.number
  event := by
    rcases hbc.event with hc | ⟨hb, hc⟩
    · rw [hc]
      exact hab.event
    · rcases hab.event with h | ⟨-, h⟩
      · exact Or.inr ⟨h.symm.trans hb, hc⟩
      · rw [h] at hb
        cases hb
  x := hbc.x.trans hab.x
  z := hab.z.trans hbc.z

theorem event_linear (h : a.Follows b) (ha : a.event = .motion .linear) :
    b.event = .motion .linear := by
  rcases h.event with hb | ⟨ha', -⟩
  · exact hb.trans ha
  · rw [ha] at ha'
    cases ha'

/-- A line that relies on the lines before it follows such a line. -/
theorem event_inherit (h : a.Follows b) (hb : b.event = .inherit) : a.event = .inherit := by
  rcases h.event with h | ⟨ha, -⟩
  · exact h.symm.trans hb
  · exact ha

end Line.Follows

theorem Line.follows_of_words {l l' : Line α} (hnumber : l'.number = l.number)
    (hwords : l'.words = l.words) : l.Follows l' := by
  have hsame {letter : Char} : wordsWith letter l'.words = wordsWith letter l.words := by
    rw [hwords]
  have hz : l'.z? = l.z? := value?_congr hsame
  exact ⟨hnumber, Or.inl (event_congr hsame hsame), value?_congr hsame, Or.inl hz⟩

namespace ModalState

/-- A state follows another one: the motion is rapid only if the other one is, and the tool is where
it is, or somewhere else above the face. -/
structure Follows (s s' : ModalState α) : Prop where
  motion : s'.motion = .rapid → s.motion = .rapid
  z : SafeHeight s.z s'.z

theorem next_z (s : ModalState α) (l : Line α) :
    (s.next l).z = match l.event with
      | .machineCoordinates => s.z
      | .toolChange => none
      | .motion _ | .inherit => l.z? <|> s.z := by
  unfold next
  cases l.event <;> rfl

theorem next_x (s : ModalState α) (l : Line α) :
    (s.next l).x = match l.event with
      | .machineCoordinates => s.x
      | .toolChange => none
      | .motion _ | .inherit => l.x? <|> s.x := by
  unfold next
  cases l.event <;> rfl

theorem Follows.next {s s' : ModalState α} (hs : s.Follows s') {l l' : Line α} (hl : l.Follows l') :
    (s.next l).Follows (s'.next l') := by
  have hz : SafeHeight (l.z? <|> s.z) (l'.z? <|> s'.z) := hl.z.orElse hs.z
  constructor
  · rw [next_motion, next_motion]
    rcases hl.event with h | ⟨h, h'⟩
    · rw [h]
      cases l.event with
      | machineCoordinates => exact id
      | toolChange => exact id
      | motion word => exact id
      | inherit => exact hs.motion
    · rw [h']
      rintro ⟨⟩
  · rw [next_z, next_z]
    rcases hl.event with h | ⟨h, h'⟩
    · rw [h]
      cases l.event with
      | machineCoordinates => exact hs.z
      | toolChange => exact .refl none
      | motion word => exact hz
      | inherit => exact hz
    · rw [h, h']
      exact hz

end ModalState

/-- A step follows another one. -/
structure Step.Follows (o n : Step α) : Prop where
  line : o.line.Follows n.line
  before : o.before.Follows n.before
  after : o.after.Follows n.after
  state : o.after = o.before.next o.line
  state' : n.after = n.before.next n.line

theorem ModalState.Follows.steps {s s' : ModalState α} (hs : s.Follows s') {ls ls' : List (Line α)}
    (h : List.Forall₂ Line.Follows ls ls') :
    List.Forall₂ Step.Follows (s.steps ls) (s'.steps ls') := by
  induction h generalizing s s' with
  | nil => exact .nil
  | cons hl _ ih =>
    have hnext := hs.next hl
    exact .cons ⟨hl, hs, hnext, rfl, rfl⟩ (ih hnext)

theorem Step.plunge?_eq_some {s : Step α} {z : α} :
    s.plunge? = some z ↔ s.isRapid = true ∧ s.line.z? = some z ∧ ¬ z ≥ 0 ∧
      ∀ previous ∈ s.before.z, ¬ z ≥ previous := by
  unfold plunge?
  cases s.isRapid with
  | false => simp
  | true => cases s.before.z <;> simp [Option.filter_eq_some_iff]

/-- A rapid move that does not come from the lines before is asked for. -/
theorem Step.motionWord?_of_isRapid {s : Step α} (hs : s.after = s.before.next s.line)
    (hrapid : s.isRapid = true) (hinherited : s.isInherited = false) :
    s.line.motionWord? = some .rapid := by
  simp only [isRapid, Bool.and_eq_true, decide_eq_true_eq] at hrapid
  have hmotion := hrapid.1
  rw [hs, ModalState.next_motion] at hmotion
  cases hevent : s.line.event with
  | machineCoordinates =>
    rw [hevent] at hmotion
    cases hmotion
  | toolChange =>
    rw [hevent] at hmotion
    cases hmotion
  | motion word =>
    rw [hevent] at hmotion
    refine Line.motionWord?_of_event (hevent.trans ?_)
    cases word <;> first | rfl | cases hmotion
  | inherit => simp [isInherited, hevent] at hinherited

/-- What goes into the part without being asked for a motion follows a line that does. -/
theorem Step.Follows.plunge?_eq_some [LawfulScalar α] {o n : Step α} (h : o.Follows n)
    (hinherit : n.line.event = .inherit) {z : α} (hplunge : n.plunge? = some z) :
    o.plunge? = some z := by
  obtain ⟨hrapid, hz, hbelow, hdeeper⟩ := Step.plunge?_eq_some.1 hplunge
  refine Step.plunge?_eq_some.2 ⟨?_, ?_, hbelow, fun previous hprevious hle => ?_⟩
  · simp only [isRapid, Bool.and_eq_true, decide_eq_true_eq, Bool.not_eq_true'] at hrapid ⊢
    have hmachine := (Line.of_event_inherit (h.line.event_inherit hinherit)).2.1
    refine ⟨h.after.motion hrapid.1, ?_⟩
    rw [h.state, ModalState.next_machine]
    exact hmachine
  · rcases h.line.z with heq | ⟨a, b, -, hb, -, hb0⟩
    · rw [← heq, hz]
    · rw [hz] at hb
      obtain rfl := Option.some.inj hb
      exact absurd hb0 hbelow
  · rcases h.before.z with heq | ⟨a, b, ha, -, ha0, -⟩
    · exact hdeeper previous (by rw [heq]; exact hprevious) hle
    · rw [ha] at hprevious
      obtain rfl := Option.some.inj hprevious
      exact hbelow (LawfulScalar.le_trans ha0 hle)

end SpacerTurning
