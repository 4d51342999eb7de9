import SpacerTurning.Proofs.Shop.Resolution

/-!
Parts of which less is known.

A check that lacks a dimension says so, and none of the findings that say so is critical.  So a part that
is feasible stays so when some of what is known about it is left out.  Only the lathe can bring a check
with it when it is left out: the round size is then looked for on all lathes, and of a lathe without a
record nothing was checked before.
-/

namespace SpacerTurning

section

variable {α : Type}

/-- What is known about the part of `g` is known about the part of `f` too. -/
structure PartFacts.KnowsLess (g f : PartFacts α) : Prop where
  round : g.round = none ∨ g.round = f.round
  thickness : g.thickness = none ∨ g.thickness = f.thickness
  boreMm : g.boreMm = none ∨ g.boreMm = f.boreMm
  hubMm : g.hubMm = none ∨ g.hubMm = f.hubMm
  hubHeight : g.hubHeight = none ∨ g.hubHeight = f.hubHeight
  counterboreMm : g.counterboreMm = none ∨ g.counterboreMm = f.counterboreMm
  lathe : g.lathe = none ∨ g.lathe = f.lathe
  kind : g.kind = none ∨ g.kind = f.kind

/-- No finding is critical. -/
def Harmless (fs : List (Finding α)) : Prop := ∀ d ∈ fs, d.severity ≠ .critical

@[simp] theorem harmless_nil : Harmless ([] : List (Finding α)) := List.forall_mem_nil _

@[simp] theorem harmless_cons {d : Finding α} {fs : List (Finding α)} :
    Harmless (d :: fs) ↔ d.severity ≠ .critical ∧ Harmless fs :=
  List.forall_mem_cons

@[simp] theorem harmless_append {fs gs : List (Finding α)} :
    Harmless (fs ++ gs) ↔ Harmless fs ∧ Harmless gs :=
  List.forall_mem_append

theorem harmless_when {condition : Bool} {d : Finding α} (h : d.severity ≠ .critical) :
    Harmless (PartFacts.when condition d) := by
  cases condition
  · exact harmless_nil
  · exact harmless_cons.2 ⟨h, harmless_nil⟩

theorem FeasibilityReport.feasible_ofFindings {fs : List (Finding α)} :
    (ofFindings fs).feasible = true ↔ Harmless fs := by
  simp [ofFindings, Harmless, List.isEmpty_iff]

namespace PartFacts

variable [Scalar α] {f g : PartFacts α} {s : Standards α} {id : LatheId} {r : LatheRecord α}
  {rule : KindRule α}

theorem harmless_checkHeight : Harmless (f.checkHeight s) := by
  unfold checkHeight
  split
  · dsimp only
    split
    · exact harmless_cons.2 ⟨nofun, harmless_nil⟩
    · exact harmless_when nofun
  · exact harmless_nil

theorem harmless_checkAspect : Harmless f.checkAspect := by
  unfold checkAspect
  split
  · exact harmless_when nofun
  · exact harmless_nil

omit [Scalar α] in
theorem harmless_notes : Harmless f.notes := by
  unfold notes
  split <;> simp [Finding.severity]

theorem feasible_iff :
    (f.feasibility s).feasible = true ↔ Harmless (f.checkLathe s) ∧ Harmless f.checkBores := by
  unfold feasibility findings
  rw [FeasibilityReport.feasible_ofFindings]
  simp [harmless_checkHeight, harmless_checkAspect, harmless_notes]

/-! ## Checks that only say less -/

namespace KnowsLess

theorem checkRound (h : g.KnowsLess f) (hf : Harmless (f.checkRound r)) :
    Harmless (g.checkRound r) := by
  unfold PartFacts.checkRound at hf ⊢
  rcases h.round with hround | hround
  · rw [hround]
    exact harmless_cons.2 ⟨nofun, harmless_nil⟩
  · rw [hround]
    exact hf

theorem checkThickness (h : g.KnowsLess f) (hf : Harmless (f.checkThickness r)) :
    Harmless (g.checkThickness r) := by
  unfold PartFacts.checkThickness at hf ⊢
  rcases h.thickness with hthickness | hthickness
  · rw [hthickness]
    exact harmless_cons.2 ⟨nofun, harmless_nil⟩
  · rw [hthickness]
    exact hf

theorem checkRule (h : g.KnowsLess f) (hf : Harmless (f.checkRule id rule)) :
    Harmless (g.checkRule id rule) := by
  unfold PartFacts.checkRule at hf ⊢
  simp only [harmless_append] at hf ⊢
  obtain ⟨⟨hthin, hthick⟩, hhub⟩ := hf
  refine ⟨⟨?_, ?_⟩, ?_⟩
  · rcases h.thickness with hthickness | hthickness
    · rw [hthickness]
      exact harmless_nil
    · rw [hthickness]
      exact hthin
  · rcases h.thickness with hthickness | hthickness
    · rw [hthickness]
      exact harmless_nil
    · rw [hthickness]
      exact hthick
  · rcases h.hubHeight with hheight | hheight
    · rw [hheight]
      cases rule.maxHubHeight
      · exact harmless_nil
      · exact harmless_cons.2 ⟨nofun, harmless_nil⟩
    · rw [hheight]
      exact hhub

theorem checkKind (h : g.KnowsLess f) (hf : Harmless (f.checkKind r)) : Harmless (g.checkKind r) := by
  unfold PartFacts.checkKind at hf ⊢
  rcases h.kind with hkind | hkind
  · rw [hkind]
    exact harmless_cons.2 ⟨nofun, harmless_nil⟩
  · rw [hkind]
    cases hknown : f.kind with
    | none => exact harmless_cons.2 ⟨nofun, harmless_nil⟩
    | some kind =>
      rw [hknown] at hf
      dsimp only at hf ⊢
      cases hrule : r.rule? kind with
      | none =>
        rw [hrule] at hf
        exact hf
      | some rule =>
        rw [hrule] at hf
        exact h.checkRule hf

theorem checkBores (h : g.KnowsLess f) (hf : Harmless f.checkBores) : Harmless g.checkBores := by
  have hbore {name : String} {mm less : Option α} {round : α} (hless : less = none ∨ less = mm)
      (hmm : Harmless (checkBore name mm round)) : Harmless (checkBore name less round) := by
    rcases hless with rfl | rfl
    · exact harmless_nil
    · exact hmm
  unfold PartFacts.checkBores at hf ⊢
  rcases h.round with hround | hround
  · rw [hround]
    exact harmless_nil
  · rw [hround]
    cases hknown : f.round with
    | none => exact harmless_nil
    | some round =>
      rw [hknown] at hf
      simp only [harmless_append] at hf ⊢
      obtain ⟨⟨⟨hcenter, hhub⟩, hcounterbore⟩, -⟩ := hf
      exact ⟨⟨⟨hbore h.boreMm hcenter, hbore h.hubMm hhub⟩, hbore h.counterboreMm hcounterbore⟩,
        harmless_when nofun⟩

end KnowsLess

theorem severity_candidates {round : α} :
    (candidates s round).severity ≠ .critical ↔ s.forRound round ≠ .unsupported := by
  unfold candidates
  cases s.forRound round <;> simp [Finding.severity]

/-- Without a lathe only the round size is looked at, on all lathes. -/
theorem harmless_checkLathe_of_none (h : f.lathe = none) :
    Harmless (f.checkLathe s) ↔ ¬ ∃ round, f.round = some round ∧ s.forRound round = .unsupported := by
  unfold checkLathe
  rw [h]
  dsimp only
  rw [harmless_cons, and_iff_right nofun]
  cases f.round with
  | none => simp
  | some round =>
    show Harmless [candidates s round] ↔ _
    rw [harmless_cons, severity_candidates, and_iff_left harmless_nil]
    simp

theorem supportsRound_of_harmless {round : α} (hround : f.round = some round)
    (h : Harmless (f.checkRound r)) : r.supportsRound round = true := by
  unfold checkRound at h
  rw [hround] at h
  by_contra hnot
  rw [Bool.not_eq_true] at hnot
  exact h _ (List.mem_append_left _ (mem_when.2 ⟨by rw [hnot]; rfl, rfl⟩)) rfl

/-- A lathe is known to run the round size of a part that passes its checks, if there is a record. -/
theorem forRound_ne_unsupported {round : α} (hround : f.round = some round)
    (hlathe : f.lathe = some id) (hget : s.get? id = some r) (hf : Harmless (f.checkLathe s)) :
    s.forRound round ≠ .unsupported := by
  unfold checkLathe at hf
  rw [hlathe] at hf
  dsimp only at hf
  rw [hget] at hf
  simp only [harmless_append] at hf
  have hmem := Standards.mem_forRound_of_get? hget (supportsRound_of_harmless hround hf.1.1)
  intro hnone
  rw [hnone] at hmem
  cases hmem

namespace KnowsLess

omit [Scalar α] in
theorem eq_some_round (h : g.KnowsLess f) {round : α} (hg : g.round = some round) :
    f.round = some round := by
  rcases h.round with hnone | hsame
  · rw [hnone] at hg
    cases hg
  · rw [← hsame, hg]

theorem checkLathe (h : g.KnowsLess f) (hlathe : g.lathe = f.lathe)
    (hf : Harmless (f.checkLathe s)) : Harmless (g.checkLathe s) := by
  cases hknown : f.lathe with
  | none =>
    rw [harmless_checkLathe_of_none hknown] at hf
    rw [harmless_checkLathe_of_none (hlathe.trans hknown)]
    rintro ⟨round, hround, hnone⟩
    exact hf ⟨round, h.eq_some_round hround, hnone⟩
  | some id =>
    unfold PartFacts.checkLathe at hf ⊢
    rw [hknown] at hf
    rw [hlathe, hknown]
    dsimp only at hf ⊢
    cases hget : s.get? id with
    | none => exact harmless_cons.2 ⟨nofun, harmless_nil⟩
    | some r =>
      rw [hget] at hf
      simp only [harmless_append] at hf ⊢
      obtain ⟨⟨hround, hthickness⟩, hkind⟩ := hf
      exact ⟨⟨h.checkRound hround, h.checkThickness hthickness⟩, h.checkKind hkind⟩

end KnowsLess

/-- A part that is feasible stays so when less is known about it, unless its lathe is left out, had no
record, and no lathe runs the round size. -/
theorem feasible_of_knowsLess (hless : g.KnowsLess f) (hf : (f.feasibility s).feasible = true) :
    (g.feasibility s).feasible = true ↔
      ¬ (g.lathe = none ∧ (∃ id, f.lathe = some id ∧ s.get? id = none) ∧
        ∃ round, g.round = some round ∧ s.forRound round = .unsupported) := by
  obtain ⟨hlathe, hbores⟩ := feasible_iff.1 hf
  rw [feasible_iff, and_iff_left (hless.checkBores hbores)]
  rcases hless.lathe with hnone | hsame
  · rw [harmless_checkLathe_of_none hnone, and_iff_right hnone]
    refine not_congr (Iff.intro (fun hround => ⟨?_, hround⟩) And.right)
    obtain ⟨round, hround, hunsupported⟩ := hround
    have hknown := hless.eq_some_round hround
    -- Had the size been looked for before, on one lathe or on all of them, it would have been missed.
    cases hlatheKnown : f.lathe with
    | none =>
      rw [harmless_checkLathe_of_none hlatheKnown] at hlathe
      exact absurd ⟨round, hknown, hunsupported⟩ hlathe
    | some id =>
      refine ⟨id, rfl, ?_⟩
      by_contra hrecord
      obtain ⟨r, hget⟩ := Option.ne_none_iff_exists'.1 hrecord
      exact forRound_ne_unsupported hknown hlatheKnown hget hlathe hunsupported
  · refine iff_of_true (hless.checkLathe hsame hlathe) ?_
    rintro ⟨hg, ⟨id, hid, -⟩, -⟩
    rw [hsame, hid] at hg
    cases hg

end PartFacts

end

/-- A part on a lathe with its record, of which everything but the round size is left out. -/
theorem PartFacts.feasible_of_knowsLess_round :
    let f : PartFacts Float := {
      round := some 7.0, thickness := some 1.0, boreMm := some 60, hubMm := some 70
      hubHeight := some 0.5, lathe := some .l2, kind := some .hubCentric }
    let g : PartFacts Float := { round := some 7.0 }
    g.KnowsLess f ∧ (f.feasibility .standard).feasible = true ∧
      (g.feasibility .standard).feasible = true := by
  intro f g
  have hless : g.KnowsLess f :=
    ⟨.inr rfl, .inl rfl, .inl rfl, .inl rfl, .inl rfl, .inl rfl, .inl rfl, .inl rfl⟩
  have hf : (f.feasibility .standard).feasible = true := by decide +kernel
  refine ⟨hless, hf, (feasible_of_knowsLess hless hf).2 ?_⟩
  rintro ⟨-, ⟨id, hid, hget⟩, -⟩
  obtain rfl := Option.some.inj hid
  cases hget

/-- Standards that are accepted and have a record of one lathe only. -/
def Standards.ofSecondLathe : Standards Float :=
  ⟨[{ lathe := .l2, roundSizes := [7.0], chuckCapacity := 7.0, minThickness := 0.5,
      maxThickness := 2.0, maxDrillDepth := 4.0, rules := [{ kind := .standard }] }]⟩

/-- A part on a lathe without a record is feasible until the lathe is left out. -/
theorem PartFacts.not_feasible_of_lathe_forgotten :
    let f : PartFacts Float := { round := some 6.0, lathe := some .l1 }
    let g : PartFacts Float := { round := some 6.0 }
    Standards.ofSecondLathe.fault? = none ∧ g.KnowsLess f ∧
      (f.feasibility .ofSecondLathe).feasible = true ∧
      (g.feasibility .ofSecondLathe).feasible = false := by
  refine ⟨by decide +kernel, ?_, by decide +kernel, by decide +kernel⟩
  exact ⟨.inr rfl, .inl rfl, .inl rfl, .inl rfl, .inl rfl, .inl rfl, .inl rfl, .inl rfl⟩

end SpacerTurning
