import SpacerTurning.Proofs.Check.Follows
import SpacerTurning.Number.Binary64
import SpacerTurning.Proofs.Check.Leaves

/-!
Home moves.

A move in machine coordinates ends the motion that was in force, but not the height that the tool
was last seen at.  So the lines from a home move on are judged alike behind any two beginnings, but
for one: the first line that goes to a height again, if it goes there rapidly and below the face.
-/

namespace SpacerTurning

open Number

variable {α : Type} [Scalar α]

/-- A report without the proposal of what would mend it. -/
structure Alarm where
  severity : Severity
  message : String
  line : Nat
deriving DecidableEq, Repr

/-- A report on a line behind so many first ones, with the lines counted from behind them. -/
def Alarm.behind? (n : Nat) (a : Alarm) : Option Alarm :=
  if n < a.line then some { a with line := a.line - n } else none

def Diagnostic.alarm? (d : Diagnostic α) : Option Alarm :=
  d.line.map fun line => { severity := d.severity, message := d.message, line }

def Diagnostic.withoutFix (d : Diagnostic α) : Diagnostic α := { d with fix := none }

/-- The moves into the part that are reported behind a beginning. -/
def Detector.plungesBehind (c : CheckingConstants α) (first rest : List String) : List Alarm :=
  (((rapidPlunge c).run (Line.parseAll (first ++ rest))).diagnostics.filterMap
    Diagnostic.alarm?).filterMap (Alarm.behind? first.length)

/-- The first height that lines go to, for the motion at their start, if it is reached rapidly and
lies below the face.  Home moves are passed over, and a tool change ends the search. -/
def Line.firstDescent? : MotionState → List (Line α) → Option α
  | _, [] => none
  | motion, l :: rest =>
    match l.event with
    | .machineCoordinates => firstDescent? .unknown rest
    | .toolChange => none
    | .motion _ | .inherit =>
      match l.z? with
      | none => firstDescent? (motion.after l.event) rest
      | some z => if motion.after l.event = .rapid ∧ ¬ z ≥ 0 then some z else none

namespace ModalState

/-- The tool was last seen at a height or below it. -/
def IsDownTo (s : ModalState α) (z : α) : Prop := ∃ previous ∈ s.z, z ≥ previous

instance (s : ModalState α) (z : α) : Decidable (s.IsDownTo z) :=
  inferInstanceAs (Decidable (∃ previous ∈ s.z, z ≥ previous))

theorem steps_append (s : ModalState α) (a b : List (Line α)) :
    s.steps (a ++ b) = s.steps a ++ (s.afterLines a).steps b := by
  induction a generalizing s with
  | nil => rfl
  | cons l a ih =>
    rw [List.cons_append, steps, steps, ih, List.cons_append]
    rfl

end ModalState

/-- What is reported of a step that goes into the part, without what would mend it. -/
def Step.plungeReport? (s : Step α) : Option (Diagnostic α) :=
  s.plunge?.map fun z =>
    { finding := .rapidPlunge z s.isInherited, line := some s.line.number }

def Step.alarm? (s : Step α) : Option Alarm :=
  s.plunge?.map fun z =>
    let finding := Finding.rapidPlunge z s.isInherited
    { severity := finding.severity, message := finding.message, line := s.line.number }

def ModalState.alarms (s : ModalState α) (lines : List (Line α)) : List Alarm :=
  (s.steps lines).filterMap Step.alarm?

theorem ModalState.alarms_cons (s : ModalState α) (l : Line α) (lines : List (Line α)) :
    s.alarms (l :: lines)
      = (Step.alarm? ⟨l, s, s.next l⟩).toList ++ (s.next l).alarms lines := by
  unfold alarms
  rw [steps, List.filterMap_cons]
  cases Step.alarm? ⟨l, s, s.next l⟩ <;> rfl

/-! ## The lines behind a beginning -/

/-- The lines before decide on the feed that is proposed, and on nothing else that is reported. -/
theorem Detector.map_withoutFix_run (c : CheckingConstants α) (lines : List (Line α)) :
    ((rapidPlunge c).run lines).diagnostics.map Diagnostic.withoutFix
      = (steps lines).filterMap Step.plungeReport? := by
  have haux (before rest : List (Step α)) :
      ((verdicts (rapidPlunge c) before rest).filterMap fun v =>
        v.map (·.diagnostic)).map Diagnostic.withoutFix = rest.filterMap Step.plungeReport? := by
    induction rest generalizing before with
    | nil => rfl
    | cons s rest ih =>
      have hhead : ((rapidPlunge c before s rest).map (·.diagnostic)).map Diagnostic.withoutFix
          = s.plungeReport? := by
        unfold rapidPlunge Step.plungeReport?
        cases s.plunge? with
        | none => rfl
        | some z => cases s.isInherited <;> rfl
      have htail := ih (s :: before)
      rw [List.map_filterMap] at htail ⊢
      rw [verdicts, List.filterMap_cons, List.filterMap_cons, hhead, htail]
  exact haux [] (steps lines)

theorem Detector.filterMap_alarm?_run (c : CheckingConstants α) (lines : List (Line α)) :
    ((rapidPlunge c).run lines).diagnostics.filterMap Diagnostic.alarm?
      = ({} : ModalState α).alarms lines := by
  have hwithout (ds : List (Diagnostic α)) :
      ds.filterMap Diagnostic.alarm?
        = (ds.map Diagnostic.withoutFix).filterMap Diagnostic.alarm? := by
    rw [List.filterMap_map]
    rfl
  rw [hwithout, map_withoutFix_run, List.filterMap_filterMap]
  refine List.filterMap_congr fun s _ => ?_
  unfold Step.plungeReport? Step.alarm?
  cases s.plunge? <;> rfl

theorem Line.parseFrom_append (n : Nat) (a b : List String) :
    (parseFrom n (a ++ b) : List (Line α)) = parseFrom n a ++ parseFrom (n + a.length) b := by
  induction a generalizing n with
  | nil => rfl
  | cons raw a ih =>
    rw [List.cons_append, parseFrom, parseFrom, ih, List.cons_append, List.length_cons,
      Nat.add_right_comm, Nat.add_assoc]

theorem Step.line_of_alarm? {s : Step α} {a : Alarm} (h : s.alarm? = some a) :
    a.line = s.line.number := by
  unfold alarm? at h
  obtain ⟨z, -, rfl⟩ := Option.map_eq_some_iff.1 h
  rfl

theorem Line.number_lt_of_mem {n : Nat} {raws : List String} {l : Line α}
    (h : l ∈ parseFrom n raws) : l.number < n + raws.length := by
  induction raws generalizing n with
  | nil => cases h
  | cons raw raws ih =>
    rw [List.length_cons]
    rcases List.mem_cons.1 h with rfl | h
    · show n < n + (raws.length + 1)
      omega
    · have := ih h
      omega

/-- No report on the first lines is one on the lines behind them. -/
theorem ModalState.filterMap_alarms_first (s : ModalState α) (raws : List String) :
    (s.alarms (Line.parseFrom 1 raws)).filterMap (Alarm.behind? raws.length) = [] := by
  rw [List.filterMap_eq_nil_iff]
  intro a ha
  obtain ⟨st, hst, ha⟩ := List.mem_filterMap.1 ha
  have hline : a.line < 1 + raws.length := by
    rw [Step.line_of_alarm? ha]
    exact Line.number_lt_of_mem (after_eq_of_mem hst).2
  unfold Alarm.behind?
  rw [if_neg (by omega)]

/-- Lines are reported alike wherever they are counted from. -/
theorem ModalState.filterMap_alarms_rest (s : ModalState α) (n m : Nat) (hm : 0 < m)
    (raws : List String) :
    (s.alarms (Line.parseFrom (m + n) raws)).filterMap (Alarm.behind? n)
      = s.alarms (Line.parseFrom m raws) := by
  induction raws generalizing s m with
  | nil => rfl
  | cons raw raws ih =>
    have hhead : (Step.alarm? ⟨.parse (m + n) raw, s, s.next (.parse (m + n) raw)⟩).bind
        (Alarm.behind? n) = Step.alarm? ⟨.parse m raw, s, s.next (.parse m raw)⟩ := by
      have hplunge : Step.plunge? ⟨.parse (m + n) raw, s, s.next (.parse (m + n) raw)⟩
          = Step.plunge? ⟨.parse m raw, s, s.next (.parse m raw)⟩ := rfl
      unfold Step.alarm?
      rw [hplunge]
      cases Step.plunge? ⟨.parse m raw, s, s.next (.parse m raw)⟩ with
      | none => rfl
      | some z =>
        have hbehind : n < m + n := by omega
        have hline : m + n - n = m := Nat.add_sub_cancel m n
        show Alarm.behind? n { severity := _, message := _, line := m + n } = _
        unfold Alarm.behind?
        rw [if_pos hbehind]
        simp only [hline]
        rfl
    have htail := ih (s.next (.parse m raw)) (m + 1) (Nat.succ_pos m)
    unfold alarms at htail ⊢
    rw [Line.parseFrom, Line.parseFrom, steps, steps, List.filterMap_filterMap, List.filterMap_cons,
      List.filterMap_cons, hhead, ← htail, List.filterMap_filterMap, Nat.add_right_comm]
    rfl

/-- What is reported behind a beginning is what the rest does from the state at its end. -/
theorem Detector.plungesBehind_eq (c : CheckingConstants α) (first rest : List String) :
    plungesBehind c first rest
      = (ModalState.afterLines {} (Line.parseAll first : List (Line α))).alarms
          (Line.parseAll rest) := by
  unfold plungesBehind
  rw [filterMap_alarm?_run, Line.parseAll, Line.parseFrom_append, ModalState.alarms,
    ModalState.steps_append, List.filterMap_append, List.filterMap_append]
  have hfirst := ModalState.filterMap_alarms_first ({} : ModalState α) first
  have hrest :=
    (ModalState.afterLines {} (Line.parseAll first : List (Line α))).filterMap_alarms_rest
    first.length 1 Nat.one_pos rest
  unfold ModalState.alarms at hfirst hrest
  rw [hfirst, List.nil_append]
  exact hrest

/-! ## Two states of one motion -/

namespace ModalState

variable {a b : ModalState α}

theorem plunge?_next_eq_some {l : Line α} {z : α} :
    Step.plunge? ⟨l, a, a.next l⟩ = some z ↔
      a.motion.after l.event = .rapid ∧ l.z? = some z ∧ ¬ z ≥ 0 ∧ ¬ a.IsDownTo z := by
  have hrapid : Step.isRapid ⟨l, a, a.next l⟩ = true ↔ a.motion.after l.event = .rapid := by
    simp only [Step.isRapid, Bool.and_eq_true, decide_eq_true_eq, Bool.not_eq_true', next_motion,
      next_machine]
    refine ⟨And.left, fun h => ⟨h, ?_⟩⟩
    by_contra hmachine
    have hevent : l.event = .machineCoordinates := by simp [Line.event, hmachine]
    rw [hevent] at h
    cases h
  rw [Step.plunge?_eq_some, hrapid, IsDownTo]
  simp only [not_exists, not_and]

/-- What a line does is reported alike from two states of one motion if its height is as deep for
the one as for the other. -/
theorem alarm?_congr (hmotion : a.motion = b.motion) {l : Line α}
    (hz : ∀ z ∈ l.z?, a.motion.after l.event = .rapid → ¬ z ≥ 0 → (a.IsDownTo z ↔ b.IsDownTo z)) :
    Step.alarm? ⟨l, a, a.next l⟩ = Step.alarm? ⟨l, b, b.next l⟩ := by
  have hplunge : Step.plunge? ⟨l, a, a.next l⟩ = Step.plunge? ⟨l, b, b.next l⟩ := by
    ext z
    rw [plunge?_next_eq_some, plunge?_next_eq_some, ← hmotion]
    refine and_congr_right fun hrapid => and_congr_right fun hline =>
      and_congr_right fun hbelow => ?_
    rw [hz z hline hrapid hbelow]
  unfold Step.alarm?
  rw [hplunge]
  rfl

theorem alarms_congr (hmotion : a.motion = b.motion) (hz : a.z = b.z) (lines : List (Line α)) :
    a.alarms lines = b.alarms lines := by
  induction lines generalizing a b with
  | nil => rfl
  | cons l lines ih =>
    have hhead : Step.alarm? ⟨l, a, a.next l⟩ = Step.alarm? ⟨l, b, b.next l⟩ :=
      alarm?_congr hmotion fun z _ _ _ => by rw [IsDownTo, IsDownTo, hz]
    have hmotion' : (a.next l).motion = (b.next l).motion := by
      rw [next_motion, next_motion, hmotion]
    have hz' : (a.next l).z = (b.next l).z := by
      rw [next_z, next_z, hz]
    rw [alarms_cons, alarms_cons, hhead, ih hmotion' hz']

/-- A line that is tracked is reported differently exactly if it goes down to a height that is new
from the one state and not from the other. -/
theorem alarm?_eq_iff (hmotion : a.motion = b.motion) {l : Line α} {z : α} (hz : l.z? = some z)
    (hrapid : a.motion.after l.event = .rapid) (hbelow : ¬ z ≥ 0) :
    Step.alarm? ⟨l, a, a.next l⟩ = Step.alarm? ⟨l, b, b.next l⟩ ↔
      (a.IsDownTo z ↔ b.IsDownTo z) := by
  have hsome {s : ModalState α} (hs : s.motion.after l.event = .rapid) :
      (Step.alarm? ⟨l, s, s.next l⟩).isSome = true ↔ ¬ s.IsDownTo z := by
    unfold Step.alarm?
    rw [Option.isSome_map, Option.isSome_iff_exists]
    constructor
    · rintro ⟨z', hplunge⟩
      obtain ⟨-, hz', -, hnew⟩ := plunge?_next_eq_some.1 hplunge
      rw [hz] at hz'
      rwa [Option.some.inj hz']
    · exact fun hnew => ⟨z, plunge?_next_eq_some.2 ⟨hs, hz, hbelow, hnew⟩⟩
  constructor
  · intro heq
    have ha := hsome hrapid
    have hb := hsome (hmotion ▸ hrapid)
    rw [heq, hb] at ha
    exact (not_iff_not.1 ha).symm
  · intro hdown
    refine alarm?_congr hmotion fun z' hz' _ _ => ?_
    rw [hz] at hz'
    rwa [← Option.some.inj hz']

theorem alarms_eq_iff_of_tracked (hmotion : a.motion = b.motion) {l : Line α}
    (htracked : ∀ s : ModalState α, (s.next l).z = (l.z? <|> s.z)) {lines : List (Line α)}
    (hrest : (a.next l).alarms lines = (b.next l).alarms lines ↔
      ∀ z ∈ Line.firstDescent? (a.next l).motion lines,
        ((a.next l).IsDownTo z ↔ (b.next l).IsDownTo z)) :
    a.alarms (l :: lines) = b.alarms (l :: lines) ↔
      ∀ z ∈ (match l.z? with
        | none => Line.firstDescent? (a.motion.after l.event) lines
        | some z => if a.motion.after l.event = MotionState.rapid ∧ ¬ z ≥ 0 then some z else none),
        (a.IsDownTo z ↔ b.IsDownTo z) := by
  rw [alarms_cons, alarms_cons]
  cases hz : l.z? with
  | none =>
    have hhead : Step.alarm? ⟨l, a, a.next l⟩ = Step.alarm? ⟨l, b, b.next l⟩ :=
      alarm?_congr hmotion fun z hline => by simp [hz] at hline
    have hstay (s : ModalState α) : (s.next l).z = s.z := by
      rw [htracked, hz]
      rfl
    unfold IsDownTo at hrest ⊢
    rw [hstay, hstay, next_motion] at hrest
    rw [hhead, List.append_right_inj, hrest]
  | some z =>
    -- Both states know the height behind the line, so only the line itself counts.
    have htail : (a.next l).alarms lines = (b.next l).alarms lines := by
      refine alarms_congr ?_ ?_ lines
      · rw [next_motion, next_motion, hmotion]
      · rw [htracked, htracked, hz]
        rfl
    have hlist {x y : Option Alarm} : x.toList = y.toList ↔ x = y := by
      cases x <;> cases y <;> simp
    rw [htail, List.append_left_inj, hlist]
    dsimp only
    by_cases hdescent : a.motion.after l.event = .rapid ∧ ¬ z ≥ 0
    · rw [alarm?_eq_iff hmotion hz hdescent.1 hdescent.2, if_pos hdescent]
      simp
    · have hhead : Step.alarm? ⟨l, a, a.next l⟩ = Step.alarm? ⟨l, b, b.next l⟩ := by
        refine alarm?_congr hmotion fun z' hline hrapid hbelow => ?_
        rw [hz] at hline
        obtain rfl := Option.some.inj hline
        exact absurd ⟨hrapid, hbelow⟩ hdescent
      rw [if_neg hdescent]
      simp [hhead]

/-- From states of one motion, lines are reported alike unless they first go down to a height that
is new from the one and not from the other. -/
theorem alarms_eq_iff (hmotion : a.motion = b.motion) (lines : List (Line α)) :
    a.alarms lines = b.alarms lines ↔
      ∀ z ∈ Line.firstDescent? a.motion lines, (a.IsDownTo z ↔ b.IsDownTo z) := by
  induction lines generalizing a b with
  | nil => simp [alarms, steps, Line.firstDescent?]
  | cons l lines ih =>
    have hmotion' : (a.next l).motion = (b.next l).motion := by
      rw [next_motion, next_motion, hmotion]
    have hrest := ih hmotion'
    have hhead (hstill : a.motion.after l.event ≠ .rapid) :
        Step.alarm? ⟨l, a, a.next l⟩ = Step.alarm? ⟨l, b, b.next l⟩ :=
      alarm?_congr hmotion fun _ _ hrapid _ => absurd hrapid hstill
    rw [Line.firstDescent?]
    cases hevent : l.event with
    | machineCoordinates =>
      unfold IsDownTo at hrest ⊢
      rw [next_z, next_z, next_motion, hevent] at hrest
      rw [alarms_cons, alarms_cons, hhead (by simp [hevent, MotionState.after]),
        List.append_right_inj]
      exact hrest
    | toolChange =>
      have hz' : (a.next l).z = (b.next l).z := by
        rw [next_z, next_z, hevent]
      rw [alarms_cons, alarms_cons, hhead (by simp [hevent, MotionState.after]),
        alarms_congr hmotion' hz' lines]
      simp
    | motion _ | inherit =>
      have htracked := alarms_eq_iff_of_tracked hmotion
        (fun s => by rw [next_z, hevent]) hrest
      rw [hevent] at htracked
      exact htracked

end ModalState

/-! ## Two beginnings -/

/-- From a home move on, lines are reported alike behind two beginnings exactly if the height that
they first go down to rapidly is new behind both or behind none. -/
theorem Detector.plungesBehind_eq_iff (c : CheckingConstants α) {first first' rest : List String}
    (hhome : ∃ l ∈ (Line.parseAll rest : List (Line α)).head?, l.isMachine = true) :
    plungesBehind c first rest = plungesBehind c first' rest ↔
      ∀ z ∈ Line.firstDescent? .unknown (Line.parseAll rest : List (Line α)),
        ((ModalState.afterLines {} (Line.parseAll first)).IsDownTo z ↔
          (ModalState.afterLines {} (Line.parseAll first')).IsDownTo z) := by
  rw [plungesBehind_eq, plungesBehind_eq]
  generalize ModalState.afterLines {} (Line.parseAll first : List (Line α)) = a
  generalize ModalState.afterLines {} (Line.parseAll first' : List (Line α)) = b
  obtain ⟨l, hhead, hmachine⟩ := hhome
  generalize (Line.parseAll rest : List (Line α)) = lines at hhead ⊢
  obtain ⟨lines, rfl⟩ := List.head?_eq_some_iff.1 hhead
  have hevent : l.event = .machineCoordinates := by simp [Line.event, hmachine]
  have hquiet (s : ModalState α) : Step.alarm? ⟨l, s, s.next l⟩ = none := by
    unfold Step.alarm?
    rw [Option.map_eq_none_iff, Option.eq_none_iff_forall_ne_some]
    intro z hplunge
    have hrapid := (ModalState.plunge?_next_eq_some.1 hplunge).1
    rw [hevent] at hrapid
    cases hrapid
  have hmotion (s : ModalState α) : (s.next l).motion = .unknown := by
    rw [ModalState.next_motion, hevent]
    rfl
  have hiff := ModalState.alarms_eq_iff ((hmotion a).trans (hmotion b).symm) lines
  unfold ModalState.IsDownTo at hiff ⊢
  rw [ModalState.next_z, ModalState.next_z, hevent, hmotion] at hiff
  rw [ModalState.alarms_cons, ModalState.alarms_cons, hquiet, hquiet, Line.firstDescent?, hevent]
  exact hiff

/-- A move to a depth that was cut before the home move is reported behind one beginning only. -/
theorem Detector.plungesBehind_ne :
    let home : Line Float := .parse 1 "G00 G53 X-1. Z-11."
    let rest := ["G00 G53 X-1. Z-11.", "G00 Z-0.5"]
    home.isMachine = true ∧
      plungesBehind (α := Float) .standard [] rest
        = [{ severity := .critical, message := "rapid move into part at Z-0.5", line := 2 }] ∧
      plungesBehind (α := Float) .standard ["G01 X3. Z-1. F0.01"] rest = [] := by
  decide +kernel

/-- A move deeper than what was cut before the home move is reported behind both. -/
theorem Detector.plungesBehind_eq_iff_deeper :
    let rest := ["G00 G53 X-1. Z-11.", "G00 Z-2."]
    (∃ l ∈ (Line.parseAll rest : List (Line Float)).head?, l.isMachine = true) ∧
      plungesBehind (α := Float) .standard [] rest
        = plungesBehind (α := Float) .standard ["G01 X3. Z-1. F0.01"] rest := by
  have hhome : ∃ l ∈ (Line.parseAll ["G00 G53 X-1. Z-11.", "G00 Z-2."] : List (Line Float)).head?,
      l.isMachine = true := ⟨_, rfl, by decide +kernel⟩
  exact ⟨hhome, (plungesBehind_eq_iff .standard hhome).2 (by decide +kernel)⟩

end SpacerTurning
