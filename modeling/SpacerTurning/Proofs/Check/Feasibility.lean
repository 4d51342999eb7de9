import SpacerTurning.Check.Feasibility
import SpacerTurning.Proofs.Number.Lengths
import SpacerTurning.Proofs.Part.Order

/-!
Bores that fit in the stock.

Building a part compares the bore and the hub with the stock, as they are with their fits, and those are
the diameters that the feasibility of the part is judged by.  The diameter of a counterbore is compared
with the bore only, so it is the one that the judgement can still find too wide.
-/

namespace SpacerTurning

open Number Number.Binary64

section

variable {α : Type}

theorem FeasibilityReport.exists_mem_critical {fs : List (Finding α)} {finding : Finding α}
    (h : finding.severity = .critical) :
    (∃ d ∈ (ofFindings fs).critical, d.finding = finding) ↔ finding ∈ fs := by
  simp only [ofFindings, List.mem_map, List.mem_filter, decide_eq_true_eq]
  constructor
  · rintro ⟨d, ⟨found, ⟨hmem, -⟩, rfl⟩, rfl⟩
    exact hmem
  · intro hmem
    exact ⟨{ finding }, ⟨finding, ⟨hmem, h⟩, rfl⟩, rfl⟩

namespace PartFacts

theorem mem_when {condition : Bool} {found finding : Finding α} :
    finding ∈ when condition found ↔ condition = true ∧ finding = found := by
  cases condition <;> simp [when]

/-! ## What each check finds -/

/-- What a part is checked for. -/
inductive Check where
  | lathe | round | thickness | kind | bores | height | aspect | note

end PartFacts

/-- The check of a part that a finding comes from.  What could not be verified can come from any. -/
def Finding.check? : Finding α → Option PartFacts.Check
  | .noRecord _ | .runsOn .. | .runsNowhere _ => some .lathe
  | .roundNotRun .. | .exceedsChuck .. => some .round
  | .thicknessOutOfRange .. => some .thickness
  | .kindNotMade .. | .tooThin .. | .tooThick .. | .hubTooHigh .. => some .kind
  | .boreTooWide .. => some .bores
  | .pastDrillDepth .. | .nearDrillDepth .. => some .height
  | .warpRisk .. => some .aspect
  | .thinLipNote | .hubNote | .steelNote => some .note
  | _ => none

namespace PartFacts

/-- Findings of one check, and what it could not verify. -/
def Check.Finds (check : Check) (fs : List (Finding α)) : Prop :=
  ∀ finding ∈ fs, finding.check? = some check ∨ ∃ what missing, finding = .unverified what missing

namespace Check

variable {check other : Check} {fs gs : List (Finding α)} {finding : Finding α}

@[simp] theorem finds_nil : check.Finds ([] : List (Finding α)) := List.forall_mem_nil _

@[simp] theorem finds_cons : check.Finds (finding :: fs) ↔
    (finding.check? = some check ∨ ∃ what missing, finding = .unverified what missing) ∧
      check.Finds fs :=
  List.forall_mem_cons

@[simp] theorem finds_append : check.Finds (fs ++ gs) ↔ check.Finds fs ∧ check.Finds gs :=
  List.forall_mem_append

theorem finds_when {condition : Bool} (h : finding.check? = some check) :
    check.Finds (when condition finding) := by
  cases condition
  · exact finds_nil
  · exact finds_cons.2 ⟨.inl h, finds_nil⟩

/-- No check makes the findings of another one. -/
theorem Finds.notMem (h : check.Finds fs) (hfinding : finding.check? = some other)
    (hne : other ≠ check) : finding ∉ fs := by
  intro hmem
  rcases h finding hmem with hcheck | ⟨what, missing, rfl⟩
  · exact hne (Option.some.inj (hfinding.symm.trans hcheck))
  · cases hfinding

end Check

variable [Scalar α] {f : PartFacts α} {s : Standards α} {r : LatheRecord α} {finding : Finding α}

theorem finds_checkRound : Check.round.Finds (f.checkRound r) := by
  unfold checkRound
  split
  · exact Check.finds_append.2 ⟨Check.finds_when rfl, Check.finds_when rfl⟩
  · simp

theorem finds_checkThickness : Check.thickness.Finds (f.checkThickness r) := by
  unfold checkThickness
  split
  · exact Check.finds_when rfl
  · simp

theorem finds_checkRule {lathe : LatheId} {rule : KindRule α} :
    Check.kind.Finds (f.checkRule lathe rule) := by
  unfold checkRule
  refine Check.finds_append.2 ⟨Check.finds_append.2 ⟨?thin, ?thick⟩, ?hub⟩
  case thin | thick =>
    split
    · exact Check.finds_when rfl
    · exact Check.finds_nil
  case hub =>
    split
    · exact Check.finds_nil
    · exact Check.finds_when rfl
    · simp

theorem finds_checkKind : Check.kind.Finds (f.checkKind r) := by
  unfold checkKind
  split
  · simp
  · split
    · simp [Finding.check?]
    · exact finds_checkRule

theorem finds_checkBores : Check.bores.Finds f.checkBores := by
  have hbore (name : String) (mm : Option α) (round : α) :
      Check.bores.Finds (checkBore name mm round) := by
    unfold checkBore
    split
    · exact Check.finds_when rfl
    · exact Check.finds_nil
  unfold checkBores
  split
  · exact Check.finds_nil
  · cases f.boreMm <;> simp [hbore, when]

theorem finds_checkHeight : Check.height.Finds (f.checkHeight s) := by
  unfold checkHeight
  split
  · dsimp only
    split
    · simp [Finding.check?]
    · exact Check.finds_when rfl
  · exact Check.finds_nil

theorem finds_checkAspect : Check.aspect.Finds f.checkAspect := by
  unfold checkAspect
  split
  · exact Check.finds_when rfl
  · exact Check.finds_nil

omit [Scalar α] in
theorem finds_notes : Check.note.Finds f.notes := by
  unfold notes
  split <;> simp [Finding.check?]

/-- Without a record of its lathe, a part is not checked against one. -/
theorem finds_checkLathe (h : f.lathe.bind s.get? = none) : Check.lathe.Finds (f.checkLathe s) := by
  have hcandidates (size : α) : (candidates s size).check? = some .lathe := by
    unfold candidates
    split <;> rfl
  unfold checkLathe
  split
  · cases f.round <;> simp [hcandidates]
  · next hlathe =>
    rw [hlathe, Option.bind_some] at h
    simp [h, Finding.check?]

theorem checkLathe_of_record (h : f.lathe.bind s.get? = some r) :
    f.checkLathe s = f.checkRound r ++ f.checkThickness r ++ f.checkKind r := by
  obtain ⟨id, hlathe, hget⟩ := Option.bind_eq_some_iff.1 h
  simp [checkLathe, hlathe, hget]

/-- Only the check of the bores makes findings about them. -/
theorem mem_findings_of_bores (h : finding.check? = some .bores) :
    finding ∈ f.findings s ↔ finding ∈ f.checkBores := by
  have hlathe : finding ∉ f.checkLathe s := by
    cases hrecord : f.lathe.bind s.get? with
    | none => exact (finds_checkLathe hrecord).notMem h nofun
    | some r =>
      simp [checkLathe_of_record hrecord, finds_checkRound.notMem h nofun,
        finds_checkThickness.notMem h nofun, finds_checkKind.notMem h nofun]
  simp [findings, hlathe, finds_checkHeight.notMem h nofun, finds_checkAspect.notMem h nofun,
    finds_notes.notMem h nofun]

/-- Only the check against the record of the lathe makes findings about the round size. -/
theorem mem_findings_of_round (h : finding.check? = some .round) :
    finding ∈ f.findings s ↔
      ∃ r, f.lathe.bind s.get? = some r ∧ finding ∈ f.checkRound r := by
  have hlathe : finding ∈ f.checkLathe s ↔
      ∃ r, f.lathe.bind s.get? = some r ∧ finding ∈ f.checkRound r := by
    cases hrecord : f.lathe.bind s.get? with
    | none => simp [(finds_checkLathe hrecord).notMem h nofun]
    | some r =>
      simp [checkLathe_of_record hrecord, finds_checkThickness.notMem h nofun,
        finds_checkKind.notMem h nofun]
  simp [findings, hlathe, finds_checkBores.notMem h nofun, finds_checkHeight.notMem h nofun,
    finds_checkAspect.notMem h nofun, finds_notes.notMem h nofun]

/-! ## Bores that are too wide -/

variable {name : String} {mm round : α}

theorem boreTooWide_mem_checkBore {bore : String} {width : Option α} {size : α} :
    .boreTooWide name mm round ∈ checkBore bore width size ↔
      width = some mm ∧ toInches mm ≥ size ∧ name = bore ∧ round = size := by
  cases width with
  | none => simp [checkBore]
  | some width =>
    simp only [checkBore, mem_when, decide_eq_true_eq, Finding.boreTooWide.injEq, Option.some.injEq]
    constructor
    · rintro ⟨hwide, rfl, rfl, rfl⟩
      exact ⟨rfl, hwide, rfl, rfl⟩
    · rintro ⟨rfl, hwide, rfl, rfl⟩
      exact ⟨hwide, rfl, rfl, rfl⟩

/-- Of a part that was built, only the counterbore can be too wide. -/
theorem boreTooWide_mem_findings_ofPart {o : Order α} {c : CuttingConstants α} {part : Part α}
    (h : o.build c = .ok part) :
    .boreTooWide name mm round ∈ (ofPart part).findings s ↔
      ∃ shelf, part.variant.counterbore? = some shelf ∧ shelf.diameter ≥ part.round ∧
        name = "counterbore" ∧ mm = shelf.nominalMm ∧ round = part.round := by
  obtain ⟨-, -, -, -, hbore, hboreRound, -⟩ := Order.of_build h
  have hnotBore : .boreTooWide name mm round ∉ checkBore "CB" (ofPart part).boreMm part.round := by
    rw [boreTooWide_mem_checkBore]
    rintro ⟨hmm, hwide, -⟩
    obtain rfl := Option.some.inj hmm
    exact hboreRound (hbore ▸ hwide)
  have hnotHub : .boreTooWide name mm round ∉ checkBore "OB" (ofPart part).hubMm part.round := by
    rw [boreTooWide_mem_checkBore]
    rintro ⟨hmm, hwide, -⟩
    obtain ⟨hub, hhub, rfl⟩ := Option.map_eq_some_iff.1 hmm
    obtain ⟨-, -, hdiameter, hhubRound, -⟩ := Order.hub_of_build h hhub
    exact hhubRound (hdiameter ▸ hwide)
  -- The bore of a part is known, so nothing is left unverified.
  have hbores : (ofPart part).checkBores
      = checkBore "CB" (ofPart part).boreMm part.round ++ checkBore "OB" (ofPart part).hubMm part.round
        ++ checkBore "counterbore" (ofPart part).counterboreMm part.round ++ [] := rfl
  rw [mem_findings_of_bores rfl, hbores]
  simp only [List.mem_append, hnotBore, hnotHub, List.not_mem_nil, false_or, or_false]
  rw [boreTooWide_mem_checkBore]
  constructor
  · rintro ⟨hmm, hwide, hname, hround⟩
    obtain ⟨shelf, hshelf, rfl⟩ := Option.map_eq_some_iff.1 hmm
    obtain ⟨-, hdiameter, -⟩ := Order.counterbore_of_build h hshelf
    exact ⟨shelf, hshelf, hdiameter ▸ hwide, hname, rfl, hround⟩
  · rintro ⟨shelf, hshelf, hwide, hname, rfl, hround⟩
    obtain ⟨-, hdiameter, -⟩ := Order.counterbore_of_build h hshelf
    exact ⟨Option.map_eq_some_iff.2 ⟨shelf, hshelf, rfl⟩, hdiameter ▸ hwide, hname, hround⟩

end PartFacts

end

namespace Order

variable {o : Order Float} {c : CuttingConstants Float} {part : Part Float}

theorem isNaN_fitBore {mm : Float} (hmm : mm.isFinite = true) :
    (o.fitBore c mm).isNaN = (o.fitted && c.cbToleranceMm.isNaN) := by
  unfold fitBore
  cases o.fitted with
  | false => exact isNaN_of_isFinite hmm
  | true => exact isNaN_add _ hmm

theorem isNaN_fitHub {mm : Float} (hmm : mm.isFinite = true) :
    (o.fitHub c mm).isNaN = (o.fitted && c.obToleranceMm.isNaN) := by
  unfold fitHub
  cases o.fitted with
  | false => exact isNaN_of_isFinite hmm
  | true => exact isNaN_sub _ hmm

theorem bore_lt_round_iff (h : o.build c = .ok part) :
    part.bore < part.round ↔ ¬ (o.fitted = true ∧ c.cbToleranceMm.isNaN = true) := by
  obtain ⟨hround, -, hboreMm, hfitted, hbore, hle, -⟩ := of_build h
  rw [lt_iff_isNaN (isNaN_of_isFinite (isLength_iff.1 hround).1) hle, hbore, isNaN_toInches, hfitted,
    isNaN_fitBore (isLength_iff.1 hboreMm).1, Bool.and_eq_false_iff, not_and_or, Bool.not_eq_true,
    Bool.not_eq_true]

theorem hub_lt_round_iff (h : o.build c = .ok part) {hub : Hub Float}
    (hhub : part.variant.hub? = some hub) :
    hub.diameter < part.round ↔ ¬ (o.fitted = true ∧ c.obToleranceMm.isNaN = true) := by
  obtain ⟨hround, -⟩ := of_build h
  obtain ⟨hnominal, hfitted, hdiameter, hle, -⟩ := hub_of_build h hhub
  rw [lt_iff_isNaN (isNaN_of_isFinite (isLength_iff.1 hround).1) hle, hdiameter, isNaN_toInches,
    hfitted, isNaN_fitHub (isLength_iff.1 hnominal).1, Bool.and_eq_false_iff, not_and_or,
    Bool.not_eq_true, Bool.not_eq_true]

theorem counterbore_lt_round_iff (h : o.build c = .ok part) {shelf : Counterbore Float}
    (hshelf : part.variant.counterbore? = some shelf) :
    shelf.diameter < part.round ↔ ¬ shelf.diameter ≥ part.round := by
  obtain ⟨hround, -⟩ := of_build h
  obtain ⟨hnominal, hdiameter, -⟩ := counterbore_of_build h hshelf
  refine float_lt_iff_not_le ?_ (isNaN_of_isFinite (isLength_iff.1 hround).1)
  rw [hdiameter, isNaN_toInches]
  exact isNaN_of_isFinite (isLength_iff.1 hnominal).1

/-- A part that was built is judged too wide for its stock exactly at a counterbore that is not smaller,
and its bore and hub are smaller unless the fit applied to them is no number. -/
theorem bores_in_stock (h : o.build c = .ok part) :
    (∀ (s : Standards Float) (name : String) (mm round : Float),
        (∃ d ∈ ((PartFacts.ofPart part).feasibility s).critical,
          d.finding = .boreTooWide name mm round) ↔
        ∃ shelf, part.variant.counterbore? = some shelf ∧ ¬ shelf.diameter < part.round ∧
          name = "counterbore" ∧ mm = shelf.nominalMm ∧ round = part.round) ∧
      (part.bore < part.round ↔ ¬ (o.fitted = true ∧ c.cbToleranceMm.isNaN = true)) ∧
      ∀ hub, part.variant.hub? = some hub →
        (hub.diameter < part.round ↔ ¬ (o.fitted = true ∧ c.obToleranceMm.isNaN = true)) := by
  refine ⟨fun s name mm round => ?_, bore_lt_round_iff h, fun hub => hub_lt_round_iff h⟩
  unfold PartFacts.feasibility
  rw [FeasibilityReport.exists_mem_critical rfl, PartFacts.boreTooWide_mem_findings_ofPart h]
  refine exists_congr fun shelf => and_congr_right fun hshelf => ?_
  rw [counterbore_lt_round_iff h hshelf, not_not]

theorem bores_in_stock_hub :
    let o : Order Float := {
      programNumber := some 7, title := some "HUB", round := some 5.75, thickness := some "0.75"
      boreMm := some 60, lathe := some "L1", fitted := true, kind := some .hubCentric
      hubMm := some 70, hubHeight := some 0.5 }
    let hub : Hub Float :=
      { nominalMm := 70, fittedMm := 70 - 0.1, diameter := toInches (70 - 0.1), height := 0.5 }
    ∃ part, o.build .standard = .ok part ∧ part.variant.hub? = some hub ∧
      (∀ (s : Standards Float) (name : String) (mm round : Float),
        ¬ ∃ d ∈ ((PartFacts.ofPart part).feasibility s).critical,
          d.finding = .boreTooWide name mm round) ∧
      part.bore < 5.75 ∧ hub.diameter < 5.75 := by
  intro o hub
  have hbuild : o.build .standard = .ok
      { programNumber := 7, title := "HUB", round := 5.75, thickness := .ofInches 0.75, boreMm := 60
        fittedBoreMm := 60 + 0.1, bore := toInches (60 + 0.1), lathe := .l1, fitted := true
        feedMode := .proven, variant := .hubCentric hub } := by
    decide +kernel
  have hfits : (CuttingConstants.standard : CuttingConstants Float).cbToleranceMm.isNaN = false ∧
      (CuttingConstants.standard : CuttingConstants Float).obToleranceMm.isNaN = false := by
    decide +kernel
  obtain ⟨hwide, hbore, hhub⟩ := bores_in_stock hbuild
  refine ⟨_, hbuild, rfl, fun s name mm round hfound => ?_, hbore.2 fun h => ?_,
    (hhub hub rfl).2 fun h => ?_⟩
  · obtain ⟨shelf, hshelf, -⟩ := (hwide s name mm round).1 hfound
    cases hshelf
  · rw [hfits.1] at h
    cases h.2
  · rw [hfits.2] at h
    cases h.2

/-- A step can be ordered that is wider than its stock. -/
theorem not_counterbore_in_stock :
    let o : Order Float := {
      programNumber := some 7, title := some "STEP", round := some 5.75, thickness := some "0.75"
      boreMm := some 60, lathe := some "L1", kind := some .step, counterboreMm := some 150
      counterboreDepth := some 0.3 }
    let part : Part Float := {
      programNumber := 7, title := "STEP", round := 5.75, thickness := .ofInches 0.75, boreMm := 60
      fittedBoreMm := 60, bore := toInches 60, lathe := .l1, fitted := false, feedMode := .proven
      variant := .step { nominalMm := 150, diameter := toInches 150, depth := 0.3 } }
    o.build .standard = .ok part ∧ 5.75 < (toInches 150 : Float) ∧
      { finding := .boreTooWide "counterbore" 150 5.75 } ∈
        ((PartFacts.ofPart part).feasibility .standard).critical := by
  decide +kernel

end Order

end SpacerTurning
