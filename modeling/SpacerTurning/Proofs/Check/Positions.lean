import SpacerTurning.Proofs.Check.Leaves

/-!
Steps by their places.

What a detector says of a step may depend on the steps around it.  Here every step has its place in
the program, and what stands before and behind it follows from that place.
-/

namespace SpacerTurning

open Number

variable {α : Type} [Scalar α]

namespace ModalState

theorem getElem?_steps (s : ModalState α) (lines : List (Line α)) (i : Nat) :
    (s.steps lines)[i]? = lines[i]?.map fun l =>
      ⟨l, s.afterLines (lines.take i), (s.afterLines (lines.take i)).next l⟩ := by
  induction lines generalizing s i with
  | nil => simp [steps]
  | cons l lines ih =>
    cases i with
    | zero => rfl
    | succ i =>
      rw [steps, List.getElem?_cons_succ, List.getElem?_cons_succ, ih, List.take_succ_cons]
      rfl

theorem before_zero {s : ModalState α} {lines : List (Line α)} {st : Step α}
    (h : (s.steps lines)[0]? = some st) : st.before = s := by
  rw [getElem?_steps, Option.map_eq_some_iff] at h
  obtain ⟨l, -, rfl⟩ := h
  rfl

theorem before_succ {s : ModalState α} {lines : List (Line α)} {i : Nat} {st st' : Step α}
    (h : (s.steps lines)[i]? = some st) (h' : (s.steps lines)[i + 1]? = some st') :
    st'.before = st.after := by
  rw [getElem?_steps, Option.map_eq_some_iff] at h h'
  obtain ⟨l, hl, rfl⟩ := h
  obtain ⟨l', -, rfl⟩ := h'
  show s.afterLines (lines.take (i + 1)) = _
  rw [List.take_add_one, hl, afterLines, List.foldl_append]
  rfl

theorem getElem?_of_succ {s : ModalState α} {lines : List (Line α)} {i : Nat} {st' : Step α}
    (h : (s.steps lines)[i + 1]? = some st') : ∃ st, (s.steps lines)[i]? = some st := by
  have hlt := (List.getElem?_eq_some_iff.1 h).1
  exact ⟨(s.steps lines)[i], List.getElem?_eq_getElem (by omega)⟩

end ModalState

theorem exists_getElem?_of_forall₂ {β γ : Type} {R : β → γ → Prop} {as : List β} {bs : List γ}
    (h : List.Forall₂ R as bs) {i : Nat} {a : β} (ha : as[i]? = some a) :
    ∃ b, bs[i]? = some b ∧ R a b := by
  induction h generalizing i with
  | nil => simp at ha
  | cons hab _ ih =>
    cases i with
    | zero =>
      obtain rfl := Option.some.inj ha
      exact ⟨_, rfl, hab⟩
    | succ i => exact ih ha

theorem Line.getElem?_parseFrom (n : Nat) (raws : List String) (i : Nat) :
    (parseFrom n raws : List (Line α))[i]? = raws[i]?.map (parse (n + i)) := by
  induction raws generalizing n i with
  | nil => simp [parseFrom]
  | cons raw raws ih =>
    cases i with
    | zero => rfl
    | succ i =>
      rw [parseFrom, List.getElem?_cons_succ, List.getElem?_cons_succ, ih, Nat.add_assoc,
        Nat.add_comm 1 i]

theorem Step.line_of_getElem? {raws : List String} {i : Nat} {here : Step α}
    (h : (steps (Line.parseAll raws))[i]? = some here) :
    ∃ raw, raws[i]? = some raw ∧ here.line = .parse (1 + i) raw := by
  rw [steps, ModalState.getElem?_steps, Option.map_eq_some_iff] at h
  obtain ⟨l, hl, rfl⟩ := h
  rw [Line.parseAll, Line.getElem?_parseFrom, Option.map_eq_some_iff] at hl
  obtain ⟨raw, hraw, rfl⟩ := hl
  exact ⟨raw, hraw, rfl⟩

theorem Step.number_of_getElem? {raws : List String} {i : Nat} {here : Step α}
    (h : (steps (Line.parseAll raws))[i]? = some here) : here.line.number = i + 1 := by
  obtain ⟨raw, -, hline⟩ := line_of_getElem? h
  rw [hline, Nat.add_comm]
  rfl

/-! ## Verdicts -/

namespace Detector

omit [Scalar α] in
theorem getElem?_verdicts (judge : Detector α) (before st : List (Step α)) (i : Nat) :
    (judge.verdicts before st)[i]? = st[i]?.map fun here =>
      judge ((st.take i).reverse ++ before) here (st.drop (i + 1)) := by
  induction st generalizing before i with
  | nil => simp [verdicts]
  | cons s st ih =>
    cases i with
    | zero => rfl
    | succ i =>
      rw [verdicts, List.getElem?_cons_succ, ih, List.getElem?_cons_succ, List.take_succ_cons,
        List.reverse_cons, List.append_assoc]
      rfl

/-- The verdict of a detector at a place of a program. -/
def at? (judge : Detector α) (lines : List (Line α)) (i : Nat) : Option (Verdict α) :=
  (steps lines)[i]?.bind fun here =>
    judge ((steps lines).take i).reverse here ((steps lines).drop (i + 1))

theorem at?_eq {judge : Detector α} {lines : List (Line α)} {i : Nat} {here : Step α}
    (h : (steps lines)[i]? = some here) : judge.at? lines i
      = judge ((steps lines).take i).reverse here ((steps lines).drop (i + 1)) := by
  rw [at?, h]
  rfl

theorem mem_diagnostics_iff {judge : Detector α} {lines : List (Line α)} {d : Diagnostic α} :
    d ∈ (judge.run lines).diagnostics ↔ ∃ i v, judge.at? lines i = some v ∧ v.diagnostic = d := by
  rw [run, List.mem_filterMap]
  constructor
  · rintro ⟨v?, hmem, hd⟩
    obtain ⟨i, hi⟩ := List.mem_iff_getElem?.1 hmem
    rw [getElem?_verdicts, Option.map_eq_some_iff] at hi
    obtain ⟨here, hhere, rfl⟩ := hi
    obtain ⟨v, hv, rfl⟩ := Option.map_eq_some_iff.1 hd
    rw [List.append_nil] at hv
    exact ⟨i, v, (at?_eq hhere).trans hv, rfl⟩
  · rintro ⟨i, v, hv, rfl⟩
    obtain ⟨here, hhere, hjudge⟩ := Option.bind_eq_some_iff.1 hv
    refine ⟨some v, List.mem_iff_getElem?.2 ⟨i, ?_⟩, rfl⟩
    rw [getElem?_verdicts, hhere, List.append_nil, Option.map_some, hjudge]

theorem getElem?_run_lines (judge : Detector α) (lines : List (Line α)) (i : Nat) :
    (judge.run lines).lines[i]?
      = (steps lines)[i]?.map fun here => outcome here.line (judge.at? lines i) := by
  have hline : lines[i]? = (steps lines)[i]?.map (·.line) := by
    rw [← List.getElem?_map, steps, ModalState.map_line_steps]
  rw [run, List.getElem?_zipWith, getElem?_verdicts, hline]
  cases hhere : (steps lines)[i]? with
  | none => rfl
  | some here =>
    rw [at?_eq hhere, List.append_nil]
    rfl

/-- A pass keeps a program if it keeps each line that it has something to say of. -/
theorem run_lines_eq_of_forall {judge : Detector α} {raws : List String}
    (h : ∀ (i : Nat) (v : Verdict α) (here : Step α), (steps (Line.parseAll raws))[i]? = some here →
      judge.at? (Line.parseAll raws) i = some v → v.text = here.line.raw) :
    (judge.run (Line.parseAll raws)).lines = raws := by
  refine List.ext_getElem? fun i => ?_
  have hraws : raws = (steps (Line.parseAll raws : List (Line α))).map fun s => s.line.raw := by
    conv => lhs; rw [← Line.map_raw_parseAll (α := α) raws]
    conv => lhs; rw [← ModalState.map_line_steps {} (Line.parseAll raws : List (Line α))]
    rw [List.map_map]
    rfl
  have hraw : raws[i]? = (steps (Line.parseAll raws : List (Line α)))[i]?.map (·.line.raw) := by
    conv => lhs; rw [hraws]
    rw [List.getElem?_map]
  rw [getElem?_run_lines, hraw]
  cases hhere : (steps (Line.parseAll raws : List (Line α)))[i]? with
  | none => rfl
  | some here =>
    rw [Option.map_some, Option.map_some]
    cases hv : judge.at? (Line.parseAll raws) i with
    | none => rfl
    | some v => exact congrArg some (h i v here hhere hv)

/-- What a pass leaves at a place, and what it was judged by. -/
theorem exists_isJudged_at (judge : Detector α) {raws : List String} {i : Nat} {here : Step α}
    (h : (steps (Line.parseAll raws))[i]? = some here) :
    ∃ l', (Line.parseAll (judge.run (Line.parseAll raws)).lines)[i]? = some l' ∧
      judge.IsJudged here l' ((steps (Line.parseAll raws)).take i).reverse
        ((steps (Line.parseAll raws)).drop (i + 1)) := by
  obtain ⟨raw, -, hline⟩ := Step.line_of_getElem? h
  refine ⟨.parse (1 + i) (outcome here.line (judge.at? (Line.parseAll raws) i)), ?_, ?_⟩
  · rw [Line.parseAll, Line.getElem?_parseFrom, getElem?_run_lines, h]
    rfl
  · refine ⟨(ModalState.after_eq_of_mem (List.mem_of_getElem? h)).1, ?_, Line.isRead_parse _ _,
      ?_, ?_⟩
    · rw [hline]
      exact Line.isRead_parse _ _
    · rw [hline]
      rfl
    · rw [at?_eq h]
      rfl

end Detector

/-! ## Steps around a step -/

/-- A work offset is chosen so many steps before a place at most, and no height is approached
rapidly in between. -/
def FollowsAt (st : List (Step α)) (window i : Nat) : Prop :=
  ∃ g, g < i ∧ i ≤ g + window ∧ (∃ s, st[g]? = some s ∧ s.line.has 'G' 154 = true) ∧
    ∀ j s, g < j → j < i → st[j]? = some s → s.line.has 'G' 154 = false ∧ s.isRapidZ = false

theorem firstWithin_eq_true {β : Type} {choice : β → Option Bool} {st : List β} {window i : Nat}
    (hi : i ≤ st.length) : firstWithin choice window (st.take i).reverse = some true ↔
      ∃ g, g < i ∧ i ≤ g + window ∧ (∃ s, st[g]? = some s ∧ choice s = some true) ∧
        ∀ j s, g < j → j < i → st[j]? = some s → choice s = none := by
  induction i generalizing window with
  | zero => simp [firstWithin]
  | succ i ih =>
    have hlast : st[i]? = some st[i] := List.getElem?_eq_getElem hi
    rw [List.take_add_one, hlast, Option.toList_some, List.reverse_append, List.reverse_singleton,
      List.singleton_append]
    cases window with
    | zero =>
      rw [firstWithin]
      · constructor
        · intro h
          cases h
        · rintro ⟨g, hg, hwindow, -⟩
          omega
      · simp
    | succ window =>
      rw [firstWithin]
      cases hchoice : choice st[i] with
      | some said =>
        constructor
        · intro h
          obtain rfl := Option.some.inj h
          exact ⟨i, Nat.lt_succ_self i, by omega, ⟨_, hlast, hchoice⟩,
            fun j s hj hj' => by omega⟩
        · rintro ⟨g, hg, -, ⟨s, hs, htrue⟩, hnone⟩
          rcases Nat.lt_succ_iff_lt_or_eq.1 hg with hlt | rfl
          · have := hnone i _ hlt (Nat.lt_succ_self i) hlast
            rw [hchoice] at this
            cases this
          · rw [hlast] at hs
            obtain rfl := Option.some.inj hs
            rw [← htrue, hchoice]
      | none =>
        rw [ih (Nat.le_of_succ_le hi)]
        constructor
        · rintro ⟨g, hg, hwindow, hsome, hnone⟩
          refine ⟨g, by omega, by omega, hsome, fun j s hj hj' hs => ?_⟩
          rcases Nat.lt_succ_iff_lt_or_eq.1 hj' with hlt | rfl
          · exact hnone j s hj hlt hs
          · rw [hlast] at hs
            rw [← Option.some.inj hs, hchoice]
        · rintro ⟨g, hg, hwindow, ⟨s, hs, htrue⟩, hnone⟩
          have hne : g ≠ i := by
            rintro rfl
            rw [hlast] at hs
            rw [Option.some.inj hs, htrue] at hchoice
            cases hchoice
          exact ⟨g, by omega, by omega, ⟨s, hs, htrue⟩,
            fun j s hj hj' => hnone j s hj (by omega)⟩

namespace Detector

theorem followsWorkOffset_iff {st : List (Step α)} {window i : Nat} {here : Step α}
    (h : st[i]? = some here) :
    followsWorkOffset window (st.take i).reverse here = true ↔
      here.isRapidZ = true ∧ here.line.has 'G' 154 = false ∧ FollowsAt st window i := by
  have hi : i ≤ st.length := (List.getElem?_eq_some_iff.1 h).1.le
  simp only [followsWorkOffset, Bool.and_eq_true, Bool.not_eq_true', beq_iff_eq]
  rw [firstWithin_eq_true hi, and_assoc]
  refine and_congr_right fun _ => and_congr_right fun _ => ?_
  unfold FollowsAt
  refine exists_congr fun g => and_congr_right fun _ => and_congr_right fun _ => ?_
  refine and_congr ?_ ?_
  · refine exists_congr fun s => and_congr_right fun _ => ?_
    cases s.line.has 'G' 154 <;> cases s.isRapidZ <;> simp
  · refine forall_congr' fun j => forall_congr' fun s => ?_
    refine imp_congr_right fun _ => imp_congr_right fun _ => imp_congr_right fun _ => ?_
    cases s.line.has 'G' 154 <;> cases s.isRapidZ <;> simp

/-- A chamfer is found at a place behind. -/
theorem exists_of_chamferAfter? {st : List (Step α)} {i : Nat} {s : Step α}
    (h : chamferAfter? (st.drop (i + 1)) = some s) :
    ∃ c, i < c ∧ c ≤ i + chamferWindow ∧ st[c]? = some s ∧
      s.line.motionWord? = some .linear ∧ s.isDiagonal = true := by
  have hpred := List.find?_some h
  have hmem := List.mem_of_find?_eq_some h
  simp only [Bool.and_eq_true, beq_iff_eq] at hpred
  obtain ⟨k, hk⟩ := List.mem_iff_getElem?.1 hmem
  rw [List.getElem?_take] at hk
  split at hk
  · next hlt =>
    rw [List.getElem?_drop] at hk
    exact ⟨i + 1 + k, by omega, by omega, hk, hpred.1, hpred.2⟩
  · cases hk

theorem chamferAfter?_isSome {st : List (Step α)} {i c : Nat} {s : Step α} (hlow : i < c)
    (hhigh : c ≤ i + chamferWindow) (hs : st[c]? = some s)
    (hmotion : s.line.motionWord? = some .linear) (hdiagonal : s.isDiagonal = true) :
    (chamferAfter? (st.drop (i + 1))).isSome = true := by
  refine List.find?_isSome.2 ⟨s, List.mem_iff_getElem?.2 ⟨c - (i + 1), ?_⟩, ?_⟩
  · have hplace : i + 1 + (c - (i + 1)) = c := by omega
    rw [List.getElem?_take, if_pos (by omega), List.getElem?_drop, hplace, hs]
  · simp [hmotion, hdiagonal]

end Detector

end SpacerTurning
