import Mathlib
import SpacerTurning.Proofs.Generation.Build

/-!
Where the tool is while it moves rapidly.

Nothing is known of a tool that has just been taken up.  From its first move on it stands at the
height that a move named last.  A rapid move is clear if it names no height but the clearance
height, and leaves its diameter only at that height, or on the way to it as the first move of the
tool.

The moves of a section come in rounds: each round starts at the clearance height, or with a tool
that has not moved yet, and leads back to the clearance height, where the next one starts.
-/

namespace SpacerTurning

variable {α : Type}

/-- What is known of a tool. -/
structure Travel (α : Type) where
  /-- Height of the last move that named one, since the tool was taken up. -/
  z : Option α := none
  /-- The tool was taken up and has not moved yet. -/
  fresh : Bool := false

/-- A rapid move does not leave the clearance height, and makes for it before anything else. -/
structure Motion.IsClear (clearance : α) (t : Travel α) (m : Motion α) : Prop where
  height : m.mode = some .rapid → ∀ z ∈ m.z, z = clearance
  crossing : m.mode = some .rapid → m.x.isSome = true →
    (t.fresh = true ∧ m.z = some clearance) ∨ t.z = some clearance

namespace Travel

def takenUp : Travel α := { z := none, fresh := true }

def atHeight (z : α) : Travel α := { z := some z, fresh := false }

def move (t : Travel α) (m : Motion α) : Travel α := { z := m.z <|> t.z, fresh := false }

def next (t : Travel α) : Block α → Travel α
  | .toolChange _ _ => takenUp
  | .motion m => t.move m
  | _ => t

/-- What is known after the blocks of a program up to some point. -/
def after (blocks : List (Block α)) : Travel α := blocks.foldl next {}

/-! ## Moves -/

/-- Every move is clear where it is made. -/
def Clear (clearance : α) : Travel α → List (Motion α) → Prop
  | _, [] => True
  | t, m :: moves => m.IsClear clearance t ∧ Clear clearance (t.move m) moves

/-- Moves are clear, and lead to the clearance height. -/
def Rounds (clearance : α) (t : Travel α) (moves : List (Motion α)) : Prop :=
  Clear clearance t moves ∧ moves.foldl move t = atHeight clearance

variable {clearance : α} {t : Travel α} {a b : List (Motion α)}

theorem clear_append :
    Clear clearance t (a ++ b) ↔ Clear clearance t a ∧ Clear clearance (a.foldl move t) b := by
  induction a generalizing t with
  | nil => simp [Clear]
  | cons m a ih => rw [List.cons_append, Clear, Clear, ih, List.foldl_cons, and_assoc]

theorem Rounds.clear_append (ha : Rounds clearance t a)
    (hb : Clear clearance (atHeight clearance) b) : Clear clearance t (a ++ b) := by
  rw [Travel.clear_append, ha.2]
  exact ⟨ha.1, hb⟩

theorem Rounds.append (ha : Rounds clearance t a) (hb : Rounds clearance (atHeight clearance) b) :
    Rounds clearance t (a ++ b) := by
  refine ⟨ha.clear_append hb.1, ?_⟩
  rw [List.foldl_append, ha.2]
  exact hb.2

/-- Rounds that start at the clearance height can follow one another. -/
theorem rounds_flatMap {β : Type} {f : β → List (Motion α)} {bs : List β}
    (h : ∀ b ∈ bs, Rounds clearance (atHeight clearance) (f b)) :
    Rounds clearance (atHeight clearance) (bs.flatMap f) := by
  induction bs with
  | nil => exact ⟨trivial, rfl⟩
  | cons b bs ih =>
    rw [List.flatMap_cons]
    exact (h b List.mem_cons_self).append (ih fun b' hb' => h b' (List.mem_cons_of_mem b hb'))

/-! ## Single moves -/

@[simp] theorem move_rapidZ (t : Travel α) (z : α) : t.move (.rapidZ z) = atHeight z := rfl

@[simp] theorem move_rapidXZ (t : Travel α) (x z : α) : t.move (.rapidXZ x z) = atHeight z := rfl

@[simp] theorem move_feedZ (t : Travel α) (feed z : α) : t.move (.feedZ feed z) = atHeight z := rfl

@[simp] theorem move_feedXZ (t : Travel α) (feed x z : α) :
    t.move (.feedXZ feed x z) = atHeight z := rfl

@[simp] theorem move_rapidX (x z : α) : (atHeight z).move (.rapidX x) = atHeight z := rfl

@[simp] theorem move_feedX (feed x z : α) : (atHeight z).move (.feedX feed x) = atHeight z := rfl

/-- A mark is not a place. -/
@[simp] theorem move_marker (t : Travel α) (m : Motion α) (marker : Option DiameterMarker) :
    t.move { m with marker } = t.move m := rfl

end Travel

namespace Motion

open Travel

variable {clearance : α} {t : Travel α}

theorem isClear_of_linear {m : Motion α} (h : m.mode = some .linear) : m.IsClear clearance t := by
  constructor
  all_goals
    intro hrapid
    rw [h] at hrapid
    cases hrapid

@[simp] theorem isClear_feedZ (feed z : α) : IsClear clearance t (feedZ feed z) :=
  isClear_of_linear rfl

@[simp] theorem isClear_feedX (feed x : α) : IsClear clearance t (feedX feed x) :=
  isClear_of_linear rfl

@[simp] theorem isClear_feedXZ (feed x z : α) : IsClear clearance t (feedXZ feed x z) :=
  isClear_of_linear rfl

@[simp] theorem isClear_rapidZ : IsClear clearance t (rapidZ clearance) where
  height _ := by simp [rapidZ]
  crossing _ hx := by cases hx

@[simp] theorem isClear_rapidX (x : α) : IsClear clearance (atHeight clearance) (rapidX x) where
  height _ := by simp [rapidX]
  crossing _ _ := .inr rfl

@[simp] theorem isClear_rapidXZ (x : α) : IsClear clearance takenUp (rapidXZ x clearance) where
  height _ := by simp [rapidXZ]
  crossing _ _ := .inl ⟨rfl, rfl⟩

@[simp] theorem isClear_marker {m : Motion α} {marker : Option DiameterMarker} :
    IsClear clearance t { m with marker } ↔ IsClear clearance t m :=
  ⟨fun h => ⟨h.height, h.crossing⟩, fun h => ⟨h.height, h.crossing⟩⟩

end Motion

namespace Job

open Travel

variable [Scalar α] {clearance : α}

/-- One boring pass leads from the clearance height, or from a tool that has not moved yet, to the
clearance height. -/
theorem rounds_passMoves (clearance : α) (feeds : FeedRates α)
    (mark : Option (α × DiameterMarker)) (first : Bool) (pass : Pass α) :
    Rounds clearance (if first then takenUp else atHeight clearance)
      (passMoves clearance feeds mark first pass) := by
  unfold passMoves
  cases first with
  | true => cases pass.kind <;> simp [Rounds, Clear, Motion.approach]
  | false => cases pass.kind <;> simp [Rounds, Clear, Motion.approach]

theorem clear_boringMoves (clearance : α) (feeds : FeedRates α)
    (mark : Option (α × DiameterMarker)) (passes : List (Pass α)) :
    Clear clearance takenUp (boringMoves clearance feeds mark passes) := by
  cases passes with
  | nil => trivial
  | cons pass rest =>
    have hfirst := rounds_passMoves clearance feeds mark true pass
    have hrest : Rounds clearance (atHeight clearance)
        (rest.flatMap (passMoves clearance feeds mark false)) :=
      rounds_flatMap fun pass' _ => rounds_passMoves clearance feeds mark false pass'
    exact hfirst.clear_append hrest.1

/-- Facing starts with a tool that has not moved yet, and ends in the edge that it breaks. -/
theorem clear_faceMoves (j : Job α) (feeds : FeedRates α) (faceTo : α) :
    Clear j.clearance takenUp (j.faceMoves feeds faceTo) := by
  simp [faceMoves, Clear]

theorem rounds_hubRoughMoves (j : Job α) (feeds : FeedRates α) (hub : Hub α) (increment : α) :
    Rounds j.clearance (atHeight j.clearance) (j.hubRoughMoves feeds hub increment) := by
  refine rounds_flatMap fun z _ => ?_
  simp [Rounds, Clear]

theorem rounds_hubFinishMoves (j : Job α) (feeds : FeedRates α) (hub : Hub α) :
    Rounds j.clearance (atHeight j.clearance) (j.hubFinishMoves feeds hub) := by
  simp [hubFinishMoves, Rounds, Clear]

theorem rounds_hubMoves (j : Job α) (feeds : FeedRates α) (hub : Hub α) (increment : α) :
    Rounds j.clearance takenUp (j.hubMoves feeds hub increment) := by
  have hface : Rounds j.clearance takenUp
      [.rapidXZ j.outsideStock j.clearance, .feedZ feeds.finish 0.0,
        .feedX feeds.rough j.insideBore, .rapidZ j.clearance] := by
    simp [Rounds, Clear]
  exact (hface.append (j.rounds_hubRoughMoves _ _ _)).append (j.rounds_hubFinishMoves _ _)

end Job

end SpacerTurning
