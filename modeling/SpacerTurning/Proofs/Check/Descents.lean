import SpacerTurning.Proofs.Check.Mending
import SpacerTurning.Proofs.Check.Spaced
import SpacerTurning.Proofs.Number.Machine

/-!
Moves into the part, told from the lines.

What is in force at a line was said by the nearest line before it that says such a thing: the motion
by the nearest one that settles it, and the height by the nearest one that tells it, unless a tool
was taken up in between.  So which moves are reported can be told from the lines, without the state.
-/

namespace SpacerTurning

open Number

/-! ## Comparisons -/

/-- Numbers of which one is smaller than the other, or the other is at most as large, if both are
finite. -/
class ComparableScalar (α : Type) [Scalar α] : Prop where
  isFinite_zero : Scalar.isFinite (0 : α) = true
  not_ge_iff {a b : α} : Scalar.isFinite a = true → Scalar.isFinite b = true → (¬ a ≥ b ↔ a < b)

instance : ComparableScalar Rat where
  isFinite_zero := rfl
  not_ge_iff _ _ := not_le

instance : ComparableScalar Float where
  isFinite_zero := by decide +kernel
  not_ge_iff {a b} ha hb := by
    obtain ⟨p, hp⟩ := Binary64.exists_rank?_of_isFinite ha
    obtain ⟨q, hq⟩ := Binary64.exists_rank?_of_isFinite hb
    rw [ge_iff_le, Binary64.float_le_iff, Binary64.float_lt_iff, hp, hq]
    simp

variable {α : Type} [Scalar α]

/-! ## What a line says -/

namespace Line

/-- The line says which motion is in force, or that none is. -/
def settlesMotion (l : Line α) : Bool := l.isMachine || l.tool?.isSome || l.motionWord?.isSome

def asksForRapid (l : Line α) : Bool :=
  !l.isMachine && l.tool?.isNone && l.motionWord? == some .rapid

def takesTool (l : Line α) : Bool := !l.isMachine && l.tool?.isSome

def tellsHeight (l : Line α) : Bool := !l.isMachine && l.z?.isSome

/-- The nearest line before a place of which something holds. -/
def nearest? (p : Line α → Bool) (lines : List (Line α)) (i : Nat) : Option (Line α) :=
  (lines.take i).reverse.find? p

/-- The lines before a place and behind the last tool change before it, nearest first. -/
def sinceTool (lines : List (Line α)) (i : Nat) : List (Line α) :=
  (lines.take i).reverse.takeWhile fun l => !l.takesTool

/-- A line goes rapidly into the part: below the face, with the motion that the nearest line up to
it settles, and deeper than the nearest height that was told since the last tool change. -/
def PlungesAt (lines : List (Line α)) (i : Nat) (l : Line α) : Prop :=
  l.isMachine = false ∧ (∃ z ∈ l.z?, z < 0) ∧
    (∃ m ∈ nearest? settlesMotion lines (i + 1), m.asksForRapid = true) ∧
    ∀ m ∈ (sinceTool lines i).find? tellsHeight, ∀ previous ∈ m.z?, ∀ z ∈ l.z?, z < previous

instance (lines : List (Line α)) (i : Nat) (l : Line α) : Decidable (PlungesAt lines i l) :=
  inferInstanceAs (Decidable (_ ∧ _ ∧ _ ∧ _))

theorem event_of_settlesMotion {l : Line α} (h : l.settlesMotion = false) :
    l.event = .inherit := by
  simp only [settlesMotion, Bool.or_eq_false_iff, Option.isSome_eq_false_iff,
    Option.isNone_iff_eq_none] at h
  simp [event, h.1.1, h.1.2, h.2]

theorem after_event_of_settlesMotion {l : Line α} (h : l.settlesMotion = true)
    (motion : MotionState) : motion.after l.event = .rapid ↔ l.asksForRapid = true := by
  unfold settlesMotion at h
  unfold event asksForRapid
  cases hmachine : l.isMachine with
  | true => simp [MotionState.after]
  | false =>
    cases htool : l.tool? with
    | some tool => simp [MotionState.after]
    | none =>
      cases hmotion : l.motionWord? with
      | none => simp [hmachine, htool, hmotion] at h
      | some word => cases word <;> simp [MotionState.after, MotionWord.state]

end Line

/-! ## What is in force -/

namespace ModalState

/-- The motion behind lines is rapid if the nearest line that settles it asks for that. -/
theorem motion_afterLines (lines : List (Line α)) :
    (afterLines {} lines).motion = .rapid ↔
      ∃ m ∈ lines.reverse.find? Line.settlesMotion, m.asksForRapid = true := by
  induction lines using List.reverseRecOn with
  | nil => simp [afterLines]
  | append_singleton lines l ih =>
    rw [afterLines_concat, next_motion, List.reverse_concat, List.find?_cons]
    cases hsettles : l.settlesMotion with
    | true =>
      rw [Line.after_event_of_settlesMotion hsettles]
      simp
    | false =>
      rw [Line.event_of_settlesMotion hsettles]
      exact ih

theorem next_z_eq (s : ModalState α) (l : Line α) :
    (s.next l).z = if l.takesTool then none else if l.tellsHeight then l.z? else s.z := by
  rw [next_z]
  unfold Line.event Line.takesTool Line.tellsHeight
  cases l.isMachine with
  | true => simp
  | false =>
    cases l.tool? with
    | some tool => simp
    | none => cases l.motionWord? <;> cases l.z? <;> simp

/-- The height behind lines is that of the nearest line that tells one since the last tool
change. -/
theorem z_afterLines (lines : List (Line α)) :
    (afterLines {} lines).z
      = ((lines.reverse.takeWhile fun l => !l.takesTool).find? Line.tellsHeight).bind Line.z? := by
  induction lines using List.reverseRecOn with
  | nil => rfl
  | append_singleton lines l ih =>
    rw [afterLines_concat, next_z_eq, List.reverse_concat, List.takeWhile_cons]
    cases l.takesTool with
    | true => rfl
    | false =>
      rw [Bool.not_false, if_pos rfl, if_neg (by decide), List.find?_cons]
      cases l.tellsHeight with
      | true => rfl
      | false => exact ih

theorem steps_eq_map_zipIdx (s : ModalState α) (lines : List (Line α)) :
    s.steps lines = lines.zipIdx.map fun p =>
      ⟨p.1, s.afterLines (lines.take p.2), (s.afterLines (lines.take p.2)).next p.1⟩ := by
  refine List.ext_getElem? fun i => ?_
  rw [getElem?_steps, List.getElem?_map, List.getElem?_zipIdx, Option.map_map, Nat.zero_add]
  rfl

end ModalState

/-! ## What is reported -/

theorem Line.isMachine_of_rapid {l : Line α} {motion : MotionState}
    (h : motion.after l.event = .rapid) : l.isMachine = false := by
  by_contra hmachine
  rw [Bool.not_eq_false] at hmachine
  have hevent : l.event = .machineCoordinates := by simp [event, hmachine]
  rw [hevent] at h
  cases h

theorem Line.rapid_iff_nearest {lines : List (Line α)} {i : Nat} {l : Line α}
    (hl : lines[i]? = some l) :
    (ModalState.afterLines {} (lines.take i)).motion.after l.event = .rapid ↔
      ∃ m ∈ nearest? settlesMotion lines (i + 1), m.asksForRapid = true := by
  have htake : lines.take (i + 1) = lines.take i ++ [l] := by
    rw [List.take_add_one, hl]
    rfl
  rw [nearest?, ← ModalState.motion_afterLines, htake, ModalState.afterLines_concat,
    ModalState.next_motion]

theorem Line.IsRead.isFinite_of_z? {l : Line α} (hl : l.IsRead) {z : α} (hz : l.z? = some z) :
    Scalar.isFinite z = true := by
  obtain ⟨w, hw, rfl⟩ := Option.map_eq_some_iff.1 hz
  have hmem := List.mem_of_find?_eq_some hw
  rw [hl.words] at hmem
  obtain ⟨p, -, hp⟩ := List.mem_filterMap.1 hmem
  cases p with
  | word letter gap number =>
    obtain ⟨v, hread, rfl⟩ := Option.map_eq_some_iff.1 hp
    exact isFinite_of_read hread
  | other c => cases hp

section

variable [ComparableScalar α]

theorem ModalState.not_isDownTo_iff {lines : List (Line α)} (hlines : ∀ l ∈ lines, l.IsRead)
    {i : Nat} {z : α} (hz : Scalar.isFinite z = true) :
    ¬ (afterLines {} (lines.take i)).IsDownTo z ↔
      ∀ m ∈ (Line.sinceTool lines i).find? Line.tellsHeight, ∀ previous ∈ m.z?, z < previous := by
  have hfinite {m : Line α} (hm : m ∈ (Line.sinceTool lines i).find? Line.tellsHeight)
      {previous : α} (hprevious : m.z? = some previous) : Scalar.isFinite previous = true := by
    have hmem := (List.takeWhile_prefix _).subset (List.mem_of_find?_eq_some hm)
    exact (hlines m (List.mem_of_mem_take (List.mem_reverse.1 hmem))).isFinite_of_z? hprevious
  rw [IsDownTo, z_afterLines]
  constructor
  · intro hnew m hm previous hprevious
    have hknown := Option.bind_eq_some_iff.2 ⟨m, hm, hprevious⟩
    exact (ComparableScalar.not_ge_iff hz (hfinite hm hprevious)).1 fun hge =>
      hnew ⟨previous, hknown, hge⟩
  · rintro hdeeper ⟨previous, hprevious, hge⟩
    obtain ⟨m, hm, hprevious⟩ := Option.bind_eq_some_iff.1 hprevious
    exact (ComparableScalar.not_ge_iff hz (hfinite hm hprevious)).2
      (hdeeper m hm previous hprevious) hge

/-- The step of a line at its place goes into the part exactly if the lines tell so. -/
theorem Line.isSome_plunge?_iff {lines : List (Line α)} (hlines : ∀ l ∈ lines, l.IsRead) {i : Nat}
    {l : Line α} (hl : lines[i]? = some l) :
    (Step.plunge? ⟨l, ModalState.afterLines {} (lines.take i),
      (ModalState.afterLines {} (lines.take i)).next l⟩).isSome = true ↔ PlungesAt lines i l := by
  have hrapid := rapid_iff_nearest hl
  have hread := hlines l (List.mem_of_getElem? hl)
  rw [Option.isSome_iff_exists]
  constructor
  · rintro ⟨z, hplunge⟩
    obtain ⟨hmotion, hz, hbelow, hnew⟩ := ModalState.plunge?_next_eq_some.1 hplunge
    have hfinite := hread.isFinite_of_z? hz
    refine ⟨isMachine_of_rapid hmotion, ⟨z, hz, ?_⟩, hrapid.1 hmotion, ?_⟩
    · exact (ComparableScalar.not_ge_iff hfinite ComparableScalar.isFinite_zero).1 hbelow
    · intro m hm previous hprevious z' hz'
      obtain rfl : z = z' := Option.some.inj (hz.symm.trans hz')
      exact (ModalState.not_isDownTo_iff hlines hfinite).1 hnew m hm previous hprevious
  · rintro ⟨-, ⟨z, hz, hbelow⟩, hmotion, hdeeper⟩
    have hfinite := hread.isFinite_of_z? hz
    refine ⟨z, ModalState.plunge?_next_eq_some.2 ⟨hrapid.2 hmotion, hz, ?_, ?_⟩⟩
    · exact (ComparableScalar.not_ge_iff hfinite ComparableScalar.isFinite_zero).2 hbelow
    · exact (ModalState.not_isDownTo_iff hlines hfinite).2 fun m hm previous hprevious =>
        hdeeper m hm previous hprevious z hz

/-- The moves that are reported are those that the lines tell to go into the part, each once, in
their order and as critical. -/
theorem Detector.reported_rapidPlunge (c : CheckingConstants α) {lines : List (Line α)}
    (hlines : ∀ l ∈ lines, l.IsRead) :
    ((rapidPlunge c).run lines).diagnostics.map (fun d => (d.severity, d.line))
      = (lines.zipIdx.filter fun p => decide (Line.PlungesAt lines p.2 p.1)).map fun p =>
        (.critical, some p.1.number) := by
  have hwithout : ((rapidPlunge c).run lines).diagnostics.map (fun d => (d.severity, d.line))
      = (((rapidPlunge c).run lines).diagnostics.map Diagnostic.withoutFix).map
          fun d => (d.severity, d.line) := by
    rw [List.map_map]
    rfl
  rw [hwithout, map_withoutFix_run, steps, ModalState.steps_eq_map_zipIdx, List.filterMap_map,
    List.map_filterMap, ← List.filterMap_eq_map, List.filterMap_filter]
  refine List.filterMap_congr fun p hp => ?_
  have hplunge := Line.isSome_plunge?_iff hlines (List.mem_zipIdx_iff_getElem?.1 hp)
  simp only [Function.comp_apply, Step.plungeReport?, ← hplunge, decide_eq_true_eq]
  generalize Step.plunge? (α := α) _ = z?
  cases z? <;> rfl

end

/-- Of three rapid moves below the face one goes back up, and one is in machine coordinates. -/
theorem Detector.reported_rapidPlunge_fourth_line :
    let lines : List (Line Float) := Line.parseAll
      ["T101 (TURN)", "G01 X2. Z-1. F0.01", "G00 Z-0.5", "Z-1.2", "G53 Z-2."]
    (∀ l ∈ lines, l.IsRead) ∧
      ((rapidPlunge .standard).run lines).diagnostics.map (fun d => (d.severity, d.line))
        = [(.critical, some 4)] := by
  intro lines
  have hlines : ∀ l ∈ lines, l.IsRead := by
    intro l hl
    simp only [lines, Line.parseAll, Line.parseFrom, List.mem_cons, List.not_mem_nil,
      or_false] at hl
    rcases hl with rfl | rfl | rfl | rfl | rfl <;> rfl
  refine ⟨hlines, (reported_rapidPlunge .standard hlines).trans ?_⟩
  decide +kernel

end SpacerTurning
