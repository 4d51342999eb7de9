import SpacerTurning.Number.Binary64
import SpacerTurning.Proofs.Check.BoreSteps
import SpacerTurning.Proofs.Check.Positions

/-!
Cuts behind their tools.

The blocks of a bore and the modal state follow the tools of a program by rules of their own.  A block
begins at any line that names a tool for a bore.  For the modal state machine coordinates come first,
so that a line in them takes up no tool, whatever it names.  Behind a tool that was taken up outside
machine coordinates both agree on the tool, and what is known of the position was said behind it.
-/

namespace SpacerTurning

open Number

variable {α : Type} [Scalar α]

/-! ## The state behind a tool -/

namespace ModalState

theorem next_of_tool?_eq_none (s : ModalState α) {l : Line α} (h : l.tool? = none) :
    (s.next l).tool = s.tool ∧
      (s.next l).x = (if l.isMachine then s.x else l.x? <|> s.x) ∧
      (s.next l).z = (if l.isMachine then s.z else l.z? <|> s.z) := by
  unfold next Line.event
  cases l.isMachine with
  | true => simp
  | false => cases l.motionWord? <;> simp [h]

theorem next_of_tool? (s : ModalState α) {l : Line α} {tool : Nat} (h : l.tool? = some tool)
    (hmachine : l.isMachine = false) :
    (s.next l).tool = some tool ∧ (s.next l).x = none ∧ (s.next l).z = none := by
  unfold next Line.event
  simp [h, hmachine]

theorem tool_next_of_isMachine (s : ModalState α) {l : Line α} (h : l.isMachine = true) :
    (s.next l).tool = s.tool := by
  unfold next Line.event
  simp [h]

end ModalState

namespace Bore

/-- From behind a place up to another one, no line takes up a tool or ends the program. -/
def StaysWithin (st : List (Step α)) (k i : Nat) : Prop :=
  ∀ n s, k < n → n ≤ i → st[n]? = some s → isWithinBlock s = true

/-- Behind a place and up to another one, a line outside machine coordinates said a value, and none
behind it said another. -/
def SaidBehind (st : List (Step α)) (said : Line α → Option α) (v : α) (k i : Nat) : Prop :=
  ∃ n s, k < n ∧ n ≤ i ∧ st[n]? = some s ∧ s.line.isMachine = false ∧ said s.line = some v ∧
    ∀ m s', n < m → m ≤ i → st[m]? = some s' → s'.line.isMachine = true ∨ said s'.line = none

section

variable {s : ModalState α} {lines : List (Line α)} {k i : Nat} {taken here : Step α}

theorem StaysWithin.of_succ {st : List (Step α)} (h : StaysWithin st k (i + 1)) :
    StaysWithin st k i := fun n s hn hi => h n s hn (Nat.le_succ_of_le hi)

/-- One line more of a block: it goes on from the state before it, and takes up no tool. -/
theorem StaysWithin.exists_last (h : StaysWithin (s.steps lines) k (i + 1)) (hk : k ≤ i)
    (hhere : (s.steps lines)[i + 1]? = some here) :
    ∃ last, (s.steps lines)[i]? = some last ∧ here.after = last.after.next here.line ∧
      here.line.tool? = none := by
  obtain ⟨last, hlast⟩ := ModalState.getElem?_of_succ hhere
  have hafter := (ModalState.after_eq_of_mem (List.mem_of_getElem? hhere)).1
  rw [ModalState.before_succ hlast hhere] at hafter
  have hwithin := h (i + 1) here (by omega) le_rfl hhere
  rw [isWithinBlock, Bool.and_eq_true, Option.isNone_iff_eq_none] at hwithin
  exact ⟨last, hlast, hafter, hwithin.1⟩

theorem StaysWithin.tool_eq (h : StaysWithin (s.steps lines) k i) (hle : k ≤ i)
    (htaken : (s.steps lines)[k]? = some taken) (hhere : (s.steps lines)[i]? = some here) :
    here.after.tool = taken.after.tool := by
  induction i, hle using Nat.le_induction generalizing here with
  | base =>
    rw [htaken] at hhere
    rw [Option.some.inj hhere]
  | succ i hle ih =>
    obtain ⟨last, hlast, hafter, htool⟩ := h.exists_last hle hhere
    rw [hafter, (ModalState.next_of_tool?_eq_none _ htool).1]
    exact ih h.of_succ hlast

/-- What is known of a coordinate, and was not known at the tool, was said behind it. -/
theorem StaysWithin.saidBehind {said : Line α → Option α} {known : ModalState α → Option α}
    (hnext : ∀ (s : ModalState α) (l : Line α), l.tool? = none →
      known (s.next l) = if l.isMachine then known s else said l <|> known s)
    (h : StaysWithin (s.steps lines) k i) (hle : k ≤ i)
    (htaken : (s.steps lines)[k]? = some taken) (hunknown : known taken.after = none)
    (hhere : (s.steps lines)[i]? = some here) {v : α} (hv : known here.after = some v) :
    SaidBehind (s.steps lines) said v k i := by
  induction i, hle using Nat.le_induction generalizing here with
  | base =>
    rw [htaken] at hhere
    rw [← Option.some.inj hhere, hunknown] at hv
    cases hv
  | succ i hle ih =>
    obtain ⟨last, hlast, hafter, htool⟩ := h.exists_last hle hhere
    rw [hafter, hnext _ _ htool] at hv
    by_cases hkept : here.line.isMachine = true ∨ said here.line = none
    · -- what was said before the last line still stands
      have hbefore : known last.after = some v := by
        rcases hkept with hmachine | hsaid
        · rwa [if_pos hmachine] at hv
        · rw [hsaid] at hv
          split at hv <;> exact hv
      obtain ⟨n, st, hn, hni, hst, hmachine, hsaid, hlater⟩ := ih h.of_succ hlast hbefore
      refine ⟨n, st, hn, by omega, hst, hmachine, hsaid, fun m s' hm hmi hs' => ?_⟩
      rcases Nat.le_succ_iff.1 hmi with hmi | rfl
      · exact hlater m s' hm hmi hs'
      · rw [hhere] at hs'
        rwa [← Option.some.inj hs']
    · rw [not_or, Bool.not_eq_true] at hkept
      obtain ⟨w, hsaid⟩ := Option.ne_none_iff_exists'.1 hkept.2
      rw [hkept.1, hsaid] at hv
      obtain rfl : w = v := Option.some.inj hv
      exact ⟨i + 1, here, by omega, le_rfl, hhere, hkept.1, hsaid, fun m s' hm hmi => by omega⟩

end

/-! ## The cuts of a block -/

theorem of_mem_blocks {c : CheckingConstants α} {st : List (Step α)} {b : BoreBlock α}
    (h : b ∈ blocks c st) : ∃ k taken tool, st[k]? = some taken ∧ taken.line.tool? = some tool ∧
      isBoreTool taken.line = true ∧ b = blockOf c taken.line.number tool (st.drop (k + 1)) := by
  induction st with
  | nil => cases h
  | cons first after ih =>
    have hbehind (h : b ∈ blocks c after) : ∃ k taken tool, (first :: after)[k]? = some taken ∧
        taken.line.tool? = some tool ∧ isBoreTool taken.line = true ∧
        b = blockOf c taken.line.number tool ((first :: after).drop (k + 1)) := by
      obtain ⟨k, taken, tool, hk, hrest⟩ := ih h
      exact ⟨k + 1, taken, tool, hk, hrest⟩
    rw [blocks] at h
    split at h
    · next tool htool =>
      split at h
      · next hbore =>
        rcases List.mem_cons.1 h with rfl | h
        · exact ⟨0, first, tool, rfl, htool, hbore, rfl⟩
        · exact hbehind h
      · exact hbehind h
    · exact hbehind h

theorem of_mem_cuts {c : CheckingConstants α} {toolLine tool : Nat} {after : List (Step α)}
    {cut : BoreCut α} (h : cut ∈ (blockOf c toolLine tool after).cuts) :
    ∃ n here, after[n]? = some here ∧ cut? c here = some cut ∧
      ∀ (m : Nat) (s : Step α), m ≤ n → after[m]? = some s → isWithinBlock s = true := by
  obtain ⟨here, hmem, hcut⟩ := List.mem_filterMap.1 h
  obtain ⟨n, hn⟩ := List.mem_iff_getElem?.1 hmem
  have hsame {m : Nat} (hm : m ≤ n) : after[m]? = (after.takeWhile isWithinBlock)[m]? := by
    have hlt := hm.trans_lt (List.getElem?_eq_some_iff.1 hn).1
    rw [List.prefix_iff_getElem?.1 (List.takeWhile_prefix isWithinBlock) m hlt,
      List.getElem?_eq_getElem hlt]
  refine ⟨n, here, (hsame le_rfl).trans hn, hcut, fun m s hm hs => ?_⟩
  rw [hsame hm] at hs
  exact List.mem_takeWhile_imp (List.mem_of_getElem? hs)

theorem of_cut? {c : CheckingConstants α} {here : Step α} {cut : BoreCut α}
    (h : cut? c here = some cut) : here.line.number = cut.line ∧
      here.after.x = some cut.diameter ∧
      ∃ z, here.after.z = some z ∧ z < -c.boreSurfaceDepth := by
  unfold cut? at h
  split at h
  · split at h
    · next x z hx hz =>
      split at h
      · next hbelow =>
        cases h
        exact ⟨rfl, hx, z, hz, hbelow⟩
      · cases h
    · cases h
  · cases h

/-- The step of a cut, at a place behind the step that takes its tool up. -/
structure CutsAt (c : CheckingConstants α) (st : List (Step α)) (b : BoreBlock α)
    (cut : BoreCut α) (k i : Nat) (taken here : Step α) : Prop where
  atTool : st[k]? = some taken
  atCut : st[i]? = some here
  behind : k < i
  within : StaysWithin st k i
  /-- Lines are counted from one, places from zero. -/
  toolLine : b.toolLine = k + 1
  tool : taken.line.tool? = some b.tool
  bore : isBoreTool taken.line = true
  line : cut.line = i + 1
  x : here.after.x = some cut.diameter
  z : ∃ z, here.after.z = some z ∧ z < -c.boreSurfaceDepth

theorem exists_cutsAt {c : CheckingConstants α} {raws : List String} {b : BoreBlock α}
    (hb : b ∈ collect c (Line.parseAll raws)) {cut : BoreCut α} (hcut : cut ∈ b.cuts) :
    ∃ k i taken here, CutsAt c (steps (Line.parseAll raws)) b cut k i taken here := by
  obtain ⟨k, taken, tool, htaken, htool, hbore, rfl⟩ := of_mem_blocks hb
  obtain ⟨n, here, hhere, hcut, hwithin⟩ := of_mem_cuts hcut
  obtain ⟨hline, hx, hz⟩ := of_cut? hcut
  rw [List.getElem?_drop] at hhere
  refine ⟨k, k + 1 + n, taken, here, htaken, hhere, by omega, fun m s hm hmi hs => ?_,
    Step.number_of_getElem? htaken, htool, hbore, ?_, hx, hz⟩
  · refine hwithin (m - (k + 1)) s (by omega) ?_
    rw [List.getElem?_drop]
    rwa [show k + 1 + (m - (k + 1)) = m by omega]
  · rw [← hline, Step.number_of_getElem? hhere]

/-- Every cut of a block stands behind the line of its tool.  If that line is not in machine
coordinates, the tool of the block is the active one at the cut, and the diameter and the height of
the cut were said behind the tool.  If it is, the tool before it is still the active one. -/
theorem cuts_of_tool (c : CheckingConstants α) (text : String) {b : BoreBlock α}
    (hb : b ∈ collect c (Line.parseText text)) {cut : BoreCut α} (hcut : cut ∈ b.cuts) :
    ∃ k i taken here, CutsAt c (steps (Line.parseText text)) b cut k i taken here ∧
      (taken.line.isMachine = false → here.after.tool = some b.tool ∧
        SaidBehind (steps (Line.parseText text)) Line.x? cut.diameter k i ∧
        ∀ z, here.after.z = some z → SaidBehind (steps (Line.parseText text)) Line.z? z k i) ∧
      (taken.line.isMachine = true → here.after.tool = taken.before.tool) := by
  obtain ⟨k, i, taken, here, h⟩ := exists_cutsAt hb hcut
  have htool := h.within.tool_eq h.behind.le h.atTool h.atCut
  have hafter := (ModalState.after_eq_of_mem (List.mem_of_getElem? h.atTool)).1
  refine ⟨k, i, taken, here, h, fun hmachine => ?_, fun hmachine => ?_⟩
  · obtain ⟨htaken, hx, hz⟩ := ModalState.next_of_tool? taken.before h.tool hmachine
    rw [← hafter] at htaken hx hz
    refine ⟨htool.trans htaken, ?_, fun z hknown => ?_⟩
    · exact h.within.saidBehind (fun s l hl => (s.next_of_tool?_eq_none hl).2.1) h.behind.le
        h.atTool hx h.atCut h.x
    · exact h.within.saidBehind (fun s l hl => (s.next_of_tool?_eq_none hl).2.2) h.behind.le
        h.atTool hz h.atCut hknown
  · rw [htool, hafter, ModalState.tool_next_of_isMachine _ hmachine]

theorem cuts_of_tool_third_line :
    let text := "T303 (BORE)\nG00 X2.3 Z0.2\nG01 Z-1. F0.01"
    let b : BoreBlock Float := { toolLine := 1, tool := 303, cuts := [{ line := 3, diameter := 2.3 }] }
    b ∈ collect .standard (Line.parseText text) ∧
      ∃ k i taken here,
        CutsAt .standard (steps (Line.parseText text)) b { line := 3, diameter := 2.3 } k i taken
          here ∧
        taken.line.isMachine = false ∧ here.after.tool = some 303 ∧
        SaidBehind (steps (Line.parseText text)) Line.x? 2.3 k i := by
  intro text b
  have hb : b ∈ collect .standard (Line.parseText text) := by decide +kernel
  obtain ⟨k, i, taken, here, hcut, hagree, -⟩ :=
    cuts_of_tool .standard text hb (List.mem_singleton_self _)
  have hfirst : (steps (Line.parseText text : List (Line Float)))[0]?.map (·.line.isMachine)
      = some false := by decide +kernel
  obtain rfl : k = 0 := (Nat.succ.inj hcut.toolLine).symm
  rw [hcut.atTool] at hfirst
  have hmachine : taken.line.isMachine = false := Option.some.inj hfirst
  obtain ⟨htool, hx, -⟩ := hagree hmachine
  exact ⟨hb, 0, i, taken, here, hcut, hmachine, htool, hx⟩

/-- A tool that is taken up in machine coordinates opens a block, and is not the active one at the
cuts of it. -/
theorem not_active_of_machine :
    let lines : List (Line Float) := Line.parseText "T303 G53 (BORE)\nG01 X2. F0.01\nZ-1."
    ∃ b ∈ collect .standard lines, ∃ cut ∈ b.cuts, ∃ here ∈ steps lines,
      here.line.number = cut.line ∧ b.tool = 303 ∧ here.after.tool = none := by
  decide +kernel

end Bore
end SpacerTurning
