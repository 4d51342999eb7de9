import SpacerTurning.Proofs.Check.Positions
import SpacerTurning.Proofs.Check.Reread
import SpacerTurning.Proofs.Number.Machine

/-!
What a chain leaves alone.

A pass reports each line at most once, in their order, and changes no line that it does not report.  So a
chain changes none that it does not report, and the text at the end has the lines of the chain.  Where
the lines are put together, a carriage return that ends one comes to stand before a line feed, and is
then no part of the line.
-/

namespace SpacerTurning

open Number

/-! ## Carriage returns -/

namespace Text

theorem dropLastReturn_concat (l : List Char) : dropLastReturn (l ++ ['\r']) = l := by
  rw [dropLastReturn_append (List.cons_ne_nil _ _)]
  exact List.append_nil l

theorem withoutReturn_eq_iff {line : String} :
    withoutReturn line = line ↔ line.toList.getLast? ≠ some '\r' := by
  rw [← String.toList_inj, withoutReturn, String.toList_ofList]
  constructor
  · intro h hlast
    obtain ⟨l, hl⟩ := List.getLast?_eq_some_iff.1 hlast
    rw [hl, dropLastReturn_concat] at h
    simp at h
  · exact dropLastReturn_of_getLast?_ne

theorem eq_withoutReturn_append {line : String} (h : line.toList.getLast? = some '\r') :
    line = withoutReturn line ++ "\r" := by
  obtain ⟨l, hl⟩ := List.getLast?_eq_some_iff.1 h
  rw [← String.toList_inj, String.toList_append, withoutReturn, String.toList_ofList, hl,
    dropLastReturn_concat]
  rfl

end Text

section

variable {α : Type} [Scalar α]

/-! ## What a pass reports -/

/-- A pass leaves a line for every line, reports lines in their order, and leaves those alone that it
does not report. -/
def FixPass.IsFramed (pass : FixPass α) : Prop :=
  ∀ raws, (pass.apply (Line.parseAll raws)).lines.length = raws.length ∧
    (∃ ns : List Nat, (pass.apply (Line.parseAll raws)).diagnostics.map (·.line) = ns.map some ∧
      ns.Pairwise (· < ·)) ∧
    ∀ i, (∀ d ∈ (pass.apply (Line.parseAll raws)).diagnostics, d.line ≠ some (i + 1)) →
      (pass.apply (Line.parseAll raws)).lines[i]? = raws[i]?

namespace Detector

variable {judge : Detector α}

omit [Scalar α] in
/-- The lines that are reported are some of those that are judged. -/
theorem exists_sublist_numbers (hlocal : judge.IsLocal) (before st : List (Step α)) :
    ∃ ns : List Nat, ns.Sublist (st.map (·.line.number)) ∧
      ((judge.verdicts before st).filterMap fun v => v.map (·.diagnostic)).map (·.line)
        = ns.map some := by
  induction st generalizing before with
  | nil => exact ⟨[], .slnil, rfl⟩
  | cons here after ih =>
    obtain ⟨ns, hsub, hlines⟩ := ih (here :: before)
    rw [verdicts, List.filterMap_cons]
    cases hv : judge before here after with
    | none => exact ⟨ns, hsub.cons _, hlines⟩
    | some v =>
      refine ⟨here.line.number :: ns, hsub.cons_cons _, ?_⟩
      rw [Option.map_some, List.map_cons, List.map_cons, hlines, hlocal before here after v hv]

theorem pairwise_numbers (raws : List String) :
    ((steps (Line.parseAll raws : List (Line α))).map (·.line.number)).Pairwise (· < ·) := by
  rw [List.pairwise_map, List.pairwise_iff_getElem]
  intro i j hi hj hij
  rw [Step.number_of_getElem? (List.getElem?_eq_getElem hi),
    Step.number_of_getElem? (List.getElem?_eq_getElem hj)]
  omega

theorem isFramed (hlocal : judge.IsLocal) (name description : String) :
    (FixPass.ofDetector name description judge).IsFramed := by
  intro raws
  refine ⟨?_, ?_, fun i hquiet => ?_⟩
  · show (judge.run (Line.parseAll raws)).lines.length = _
    rw [length_run_lines, ← List.length_map (·.raw), Line.map_raw_parseAll]
  · obtain ⟨ns, hsub, hlines⟩ :=
      exists_sublist_numbers hlocal [] (steps (Line.parseAll raws : List (Line α)))
    exact ⟨ns, hlines, (pairwise_numbers raws).sublist hsub⟩
  · show (judge.run (Line.parseAll raws)).lines[i]? = _
    rw [getElem?_run_lines]
    cases hhere : (steps (Line.parseAll raws : List (Line α)))[i]? with
    | none =>
      have hlength : (steps (Line.parseAll raws : List (Line α))).length = raws.length := by
        rw [steps, ModalState.length_steps, ← List.length_map (·.raw), Line.map_raw_parseAll]
      rw [List.getElem?_eq_none_iff, hlength] at hhere
      rw [List.getElem?_eq_none hhere]
      rfl
    | some here =>
      obtain ⟨raw, hraw, hline⟩ := Step.line_of_getElem? hhere
      cases hv : judge.at? (Line.parseAll raws) i with
      | none =>
        rw [hraw, Option.map_some, outcome, hline]
        rfl
      | some v =>
        have hnumber : v.diagnostic.line = some (i + 1) := by
          rw [at?_eq hhere] at hv
          rw [hlocal _ _ _ v hv, Step.number_of_getElem? hhere]
        exact absurd hnumber (hquiet _ (mem_diagnostics_iff.2 ⟨i, v, hv, rfl⟩))

end Detector

namespace FixChain

theorem isFramed_of_mem_standard {c : CheckingConstants α} {pass : FixPass α}
    (h : pass ∈ standard c) : pass.IsFramed := by
  simp only [standard, List.mem_cons, List.not_mem_nil, or_false] at h
  rcases h with rfl | rfl | rfl | rfl
  · exact Detector.isFramed (Detector.isLocal_rapidPlunge c) _ _
  · exact Detector.isFramed (Detector.isLocal_missingFeed c) _ _
  · exact Detector.isFramed (Detector.isLocal_workOffsetClearance c) _ _
  · exact Detector.isFramed (Detector.isLocal_bareFace c) _ _

/-- Passes one after another change no line that none of them reports. -/
theorem getElem?_runLines {chain : FixChain α} (hframed : ∀ pass ∈ chain, pass.IsFramed)
    (raws : List String) :
    (runLines chain raws).1.length = raws.length ∧
      ∀ i, (∀ d ∈ (runLines chain raws).2, d.line ≠ some (i + 1)) →
        (runLines chain raws).1[i]? = raws[i]? := by
  induction chain generalizing raws with
  | nil => exact ⟨rfl, fun _ _ => rfl⟩
  | cons pass rest ih =>
    have hrest := ih fun pass h => hframed pass (List.mem_cons_of_mem _ h)
    obtain ⟨hlength, -, hquiet⟩ := hframed pass List.mem_cons_self raws
    by_cases henabled : pass.enabled = true
    · simp only [runLines, if_pos henabled, if_pos hlength]
      obtain ⟨hlengths, hquiets⟩ := hrest (pass.apply (Line.parseAll raws)).lines
      refine ⟨hlengths.trans hlength, fun i hnone => ?_⟩
      rw [hquiets i fun d hd => hnone d (List.mem_append_right _ hd),
        hquiet i fun d hd => hnone d (List.mem_append_left _ hd)]
    · simp only [runLines, if_neg henabled]
      exact hrest raws

/-! ## The text at the end -/

theorem endsWithFeed_textOf {source : String} {raws : List String} (hne : raws ≠ [])
    (hsingle : ∀ raw ∈ raws, '\n' ∉ raw.toList)
    (hlast : Text.endsWithFeed source = false → ∀ raw ∈ raws.getLast?, raw.toList ≠ []) :
    Text.endsWithFeed (textOf source raws) = Text.endsWithFeed source := by
  obtain ⟨init, last, rfl⟩ : ∃ init last, raws = init ++ [last] :=
    ⟨raws.dropLast, raws.getLast hne, (List.dropLast_append_getLast hne).symm⟩
  rw [Text.endsWithFeed, textOf, String.toList_append, Text.toList_intercalate_feed]
  cases hends : Text.endsWithFeed source with
  | true => simp
  | false =>
    have hlastNe := hlast hends last (by simp)
    have hc := List.getLast?_eq_some_getLast hlastNe
    have hother : last.toList.getLast hlastNe ≠ '\n' := by
      intro h
      exact hsingle last (by simp) (h ▸ List.getLast_mem hlastNe)
    simp [List.getLast?_append, hc, hother]

/-- A line of the text at the end. -/
theorem getElem?_splitLines_textOf {source : String} {raws : List String} (hne : raws ≠ [])
    (hsingle : ∀ raw ∈ raws, '\n' ∉ raw.toList)
    (hlast : Text.endsWithFeed source = false → ∀ raw ∈ raws.getLast?, raw.toList ≠ []) (i : Nat) :
    (Text.splitLines (textOf source raws))[i]? = raws[i]?.map fun raw =>
      if i + 1 < raws.length ∨ Text.endsWithFeed source = true then Text.withoutReturn raw
      else raw := by
  obtain ⟨init, last, rfl⟩ : ∃ init last, raws = init ++ [last] :=
    ⟨raws.dropLast, raws.getLast hne, (List.dropLast_append_getLast hne).symm⟩
  rw [splitLines_textOf hsingle fun hends => hlast hends last (by simp), List.length_append,
    List.length_singleton]
  rcases lt_trichotomy i init.length with hlt | rfl | hgt
  · rw [List.getElem?_append_left (by rwa [List.length_map]), List.getElem?_append_left hlt,
      List.getElem?_map]
    simp [hlt]
  · rw [List.getElem?_append_right (by simp), List.getElem?_append_right (Nat.le_refl _),
      List.length_map, Nat.sub_self]
    simp
  · rw [List.getElem?_eq_none (by simp; omega), List.getElem?_eq_none (by simp; omega)]
    rfl

end FixChain

end

/-- Every pass leaves a line for every line and reports lines in their order.  The text at the end has as
many lines as the program and ends as it does.  A line that is not reported is the same in it, unless it
ends with a carriage return and a line feed stands behind it: then it has lost that. -/
theorem FixChain.framed (c : CheckingConstants Float) :
    (∀ pass ∈ standard c, ∀ raws,
      (pass.apply (Line.parseAll raws)).lines.length = raws.length ∧
        ∃ ns : List Nat, (pass.apply (Line.parseAll raws)).diagnostics.map (·.line) = ns.map some ∧
          ns.Pairwise (· < ·)) ∧
      ∀ text fixed, ((standard c).run text).fixedText = some fixed →
        (Text.splitLines fixed).length = (Text.splitLines text).length ∧
        Text.endsWithFeed fixed = Text.endsWithFeed text ∧
        ∀ i line, (Text.splitLines text)[i]? = some line →
          (∀ d ∈ ((standard c).run text).diagnostics, d.line ≠ some (i + 1)) →
          ∃ line', (Text.splitLines fixed)[i]? = some line' ∧
            (line' = line ∨ line = line' ++ "\r") ∧
            (line' ≠ line ↔ line.toList.getLast? = some '\r' ∧
              (i + 1 < (Text.splitLines text).length ∨ Text.endsWithFeed text = true)) := by
  constructor
  · intro pass hpass raws
    obtain ⟨hlength, hlines, -⟩ := isFramed_of_mem_standard hpass raws
    exact ⟨hlength, hlines⟩
  · intro text fixed hfixed
    have hkeep := keepLines_standard c (Text.splitLines text)
    obtain ⟨hlength, hquiet⟩ :=
      getElem?_runLines (fun _ => isFramed_of_mem_standard (c := c)) (Text.splitLines text)
    obtain ⟨hsingle, hlast⟩ := hkeep.of_splitLines
    simp only [run, Option.ite_none_left_eq_some, Option.some.injEq] at hfixed ⊢
    obtain ⟨hchanged, rfl⟩ := hfixed
    generalize hfinal : (runLines (standard c) (Text.splitLines text)).1 = final at *
    have hne : final ≠ [] := by
      rintro rfl
      exact hchanged (List.length_eq_zero_iff.1 hlength.symm).symm
    refine ⟨?_, ?_, fun i line hline hnone => ?_⟩
    · rw [← hlength]
      exact (forall₂_splitLines_textOf hne hsingle hlast).length_eq.symm
    · exact endsWithFeed_textOf hne hsingle hlast
    · rw [getElem?_splitLines_textOf hne hsingle hlast, hquiet i hnone, hline, hlength]
      refine ⟨_, rfl, ?_⟩
      dsimp only
      split
      · next hbehind =>
        constructor
        · by_cases hreturn : line.toList.getLast? = some '\r'
          · exact Or.inr (Text.eq_withoutReturn_append hreturn)
          · exact Or.inl (Text.withoutReturn_eq_iff.2 hreturn)
        · rw [Ne, Text.withoutReturn_eq_iff, not_not, and_iff_left hbehind]
      · next hbehind => exact ⟨Or.inl rfl, by simp [hbehind]⟩

theorem FixChain.framed_plunge :
    let c : CheckingConstants Float := .standard
    let text := "G00 X3. Z0.2\r\nZ-0.09\nX2.\n"
    let fixed := "G00 X3. Z0.2\nG01 Z-0.09 F0.008\nX2.\n"
    ((standard c).run text).fixedText = some fixed ∧
      (Text.splitLines fixed).length = (Text.splitLines text).length ∧
      Text.endsWithFeed fixed = Text.endsWithFeed text ∧
      (∀ d ∈ ((standard c).run text).diagnostics, d.line ≠ some 3) ∧
      (Text.splitLines fixed)[2]? = some "X2." := by
  intro c text fixed
  have hfixed : ((standard c).run text).fixedText = some fixed := by decide +kernel
  have hnone : ∀ d ∈ ((standard c).run text).diagnostics, d.line ≠ some 3 := by decide +kernel
  obtain ⟨hlength, hends, hquiet⟩ := (framed c).2 text fixed hfixed
  obtain ⟨line, hline, -, hchanged⟩ := hquiet 2 "X2." (by decide +kernel) hnone
  have hsame : line = "X2." := by
    by_contra h
    exact absurd (hchanged.1 h).1 (by decide)
  exact ⟨hfixed, hlength, hends, hnone, hsame ▸ hline⟩

/-- A line of nothing but a carriage return becomes empty where another line is changed. -/
theorem FixChain.not_framed_of_return :
    let c : CheckingConstants Float := .standard
    let text := "G00 X3. Z0.2\nZ-0.09\n\r\r\n"
    let fixed := "G00 X3. Z0.2\nG01 Z-0.09 F0.008\n\r\n"
    ((standard c).run text).fixedText = some fixed ∧
      (∀ d ∈ ((standard c).run text).diagnostics, d.line = some 2) ∧
      (Text.splitLines text)[2]? = some "\r" ∧ (Text.splitLines fixed)[2]? = some "" := by
  decide +kernel

end SpacerTurning
