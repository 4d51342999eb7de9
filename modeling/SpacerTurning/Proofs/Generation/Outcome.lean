import SpacerTurning.Number.Binary64
import SpacerTurning.Proofs.Generation.Agreement

/-!
When a program is made.

Steps of two kinds can refuse.  Most of them judge dimensions, and two look a row up.  The depths of a
part that passes its check never lack one, since its thickness is a length and the formula stands in.
So what is missing is always a pair of work offsets, and it is missed before anything is planned.  A
third kind does not refuse and may still come to nothing: a plan whose step is rounded away never gets
to the bore.
-/

namespace SpacerTurning

open Number

/-! ## Steps that look nothing up -/

/-- A result, or a dimension that was turned down: no table lacked a row.  Where bores are planned on
the way, there may also be no end. -/
inductive JudgesOnly {α β : Type} (planning : Prop) : Except (Refusal α) β → Prop
  | ok (b : β) : JudgesOnly planning (.ok b)
  | invalid (dimension : Dimension) (reason : Reason α) :
    JudgesOnly planning (.error (.invalid dimension reason))
  | endless (h : planning) : JudgesOnly planning (.error .endless)

namespace JudgesOnly

variable {α β γ : Type} {planning : Prop}

theorem bind {x : Except (Refusal α) β} {f : β → Except (Refusal α) γ} (hx : JudgesOnly planning x)
    (hf : ∀ b, JudgesOnly planning (f b)) : JudgesOnly planning (x >>= f) := by
  cases hx with
  | ok b => exact hf b
  | invalid dimension reason => exact .invalid dimension reason
  | endless h => exact .endless h

theorem map {x : Except (Refusal α) β} (hx : JudgesOnly planning x) (f : β → γ) :
    JudgesOnly planning (x.map f) := by
  cases hx with
  | ok b => exact .ok (f b)
  | invalid dimension reason => exact .invalid dimension reason
  | endless h => exact .endless h

theorem mapM {f : β → Except (Refusal α) γ} (hf : ∀ b, JudgesOnly planning (f b)) (bs : List β) :
    JudgesOnly planning (bs.mapM f) := by
  induction bs with
  | nil => exact .ok []
  | cons b bs ih =>
    rw [List.mapM_cons]
    exact (hf b).bind fun c => ih.bind fun cs => .ok (c :: cs)

theorem demand (condition : Bool) (dimension : Dimension) (reason : Reason α) :
    JudgesOnly planning (demand condition (.invalid dimension reason)) := by
  cases condition with
  | false => exact .invalid dimension reason
  | true => exact .ok ()

theorem ne_missing {x : Except (Refusal α) β} (h : JudgesOnly planning x) (table : ShopTable)
    (key : String) : x ≠ .error (.missing table key) := by
  cases h <;> simp

theorem ne_endless {x : Except (Refusal α) β} (h : JudgesOnly False x) : x ≠ .error .endless := by
  cases h with
  | ok b => simp
  | invalid dimension reason => simp
  | endless h => cases h

end JudgesOnly

variable {α : Type} [Scalar α] {planning : Prop}

theorem judgesOnly_demandLength (dimension : Dimension) (x : α) :
    JudgesOnly planning (demandLength dimension x) := by
  unfold demandLength
  split
  · exact .ok x
  · exact .invalid dimension _

theorem Part.judgesOnly_check (part : Part α) : JudgesOnly planning part.check := by
  have hlength (dimension : Dimension) (x : α) : JudgesOnly planning (demandLength dimension x) :=
    judgesOnly_demandLength dimension x
  have hhub (hub : Hub α) : JudgesOnly planning (part.checkHub hub) :=
    (hlength _ _).bind fun _ => .demand _ _ _
  unfold check
  refine (hlength _ _).bind fun _ => (hlength _ _).bind fun _ => (hlength _ _).bind fun _ =>
    (hlength _ _).bind fun _ => (JudgesOnly.demand _ _ _).bind fun _ => ?_
  cases part.variant.counterbore? with
  | none =>
    cases part.variant.hub? with
    | none => exact .ok ()
    | some hub => exact (hhub hub).bind fun _ => .ok ()
  | some shelf =>
    have hshelf := (hlength .counterboreDepth shelf.depth).bind fun _ => .ok ()
    cases part.variant.hub? with
    | none => exact hshelf
    | some hub => exact (hhub hub).bind fun _ => hshelf

namespace Boring

variable (c : CuttingConstants α)

theorem judgesOnly_checkTarget (dimension : Dimension) (diameter : α) :
    JudgesOnly planning (checkTarget c dimension diameter) :=
  (JudgesOnly.demand _ _ _).bind fun _ => .demand _ _ _

theorem judgesOnly_opening (start target z : α) (chamfer : Bool) :
    JudgesOnly True (opening c start target z chamfer) := by
  have hrough : JudgesOnly True (roughDiameters c start target) := by
    unfold roughDiameters
    dsimp only
    split
    · exact .ok _
    · exact .endless trivial
  exact hrough.bind fun _ => .ok _

theorem judgesOnly_plan (target drill : α) (chamfer : Bool) :
    JudgesOnly True (plan c target drill chamfer) :=
  (judgesOnly_checkTarget c _ _).bind fun _ => (JudgesOnly.demand _ _ _).bind fun _ =>
    (judgesOnly_opening c _ _ _ _).bind fun _ => .ok _

theorem judgesOnly_twoZonePlan (holder counterbore drill step : α) (chamfer : Bool) :
    JudgesOnly True (twoZonePlan c holder counterbore drill step chamfer) :=
  (judgesOnly_checkTarget c _ _).bind fun _ => (judgesOnly_checkTarget c _ _).bind fun _ =>
    (JudgesOnly.demand _ _ _).bind fun _ => (JudgesOnly.demand _ _ _).bind fun _ =>
    (JudgesOnly.demand _ _ _).bind fun _ => (judgesOnly_plan c _ _ _).bind fun _ =>
    (judgesOnly_opening c _ _ _ _).bind fun _ => .ok _

theorem judgesOnly_continuation (start target z : α) (chamfer : Bool) :
    JudgesOnly True (continuation c start target z chamfer) :=
  (JudgesOnly.demand _ _ _).bind fun _ => (JudgesOnly.demand _ _ _).bind fun _ =>
    judgesOnly_opening c _ _ _ _

end Boring

namespace Job

variable (j : Job α)

theorem judgesOnly_shelfZ (hub : Hub α) : JudgesOnly planning (j.shelfZ hub) :=
  (JudgesOnly.demand _ _ _).bind fun _ => .ok _

theorem judgesOnly_thinLipPasses (hub : Hub α) : JudgesOnly True (j.thinLipPasses hub) :=
  (j.judgesOnly_shelfZ hub).bind fun _ =>
    (Boring.judgesOnly_plan _ _ _ _).bind fun _ => .ok _

theorem judgesOnly_borePasses : JudgesOnly True j.borePasses := by
  unfold borePasses
  split
  · exact Boring.judgesOnly_plan _ _ _ _
  · exact Boring.judgesOnly_plan _ _ _ _
  · exact Boring.judgesOnly_plan _ _ _ _
  · exact j.judgesOnly_thinLipPasses _
  · exact (Boring.judgesOnly_twoZonePlan _ _ _ _ _ _).map _
  · exact (Boring.judgesOnly_twoZonePlan _ _ _ _ _ _).map _
  · exact (Boring.judgesOnly_twoZonePlan _ _ _ _ _ _).map _

theorem judgesOnly_hubSection (hub : Hub α) (increment : α) (comment : String) :
    JudgesOnly planning (j.hubSection hub increment comment) :=
  (JudgesOnly.demand _ _ _).bind fun _ => .ok _

theorem judgesOnly_op2TurnSection : JudgesOnly planning j.op2TurnSection := by
  unfold op2TurnSection
  split
  · exact j.judgesOnly_hubSection _ _ _
  · exact j.judgesOnly_hubSection _ _ _
  · exact j.judgesOnly_hubSection _ _ _
  · exact .ok _

theorem judgesOnly_fullDepthDiameter (shelf : α) (passes : List (Pass α)) :
    JudgesOnly planning (fullDepthDiameter shelf passes) := by
  unfold fullDepthDiameter
  split
  · exact .ok _
  · exact .invalid _ _

theorem judgesOnly_op2ChamferSection : JudgesOnly True j.op2ChamferSection := by
  unfold op2ChamferSection
  split
  · exact (j.judgesOnly_shelfZ _).bind fun _ => (j.judgesOnly_thinLipPasses _).bind fun _ =>
      (judgesOnly_fullDepthDiameter _ _).bind fun _ =>
      (Boring.judgesOnly_continuation _ _ _ _ _).bind fun _ => .ok _
  · exact (JudgesOnly.demand _ _ _).bind fun _ =>
      (Boring.judgesOnly_continuation _ _ _ _ _).bind fun _ => .ok _
  · exact .ok _

/-- Sections are made without looking anything up. -/
theorem judgesOnly_sectionOf (kind : SectionKind) : JudgesOnly True (j.sectionOf kind) := by
  cases kind with
  | header | op1Drill | op1Turn | flip | footer => exact .ok _
  | op1Bore => exact j.judgesOnly_borePasses.map _
  | op2Turn => exact j.judgesOnly_op2TurnSection
  | op2Chamfer => exact j.judgesOnly_op2ChamferSection

end Job

/-! ## Look-ups -/

theorem Depths.exists_lookup (key : String) {thickness : α} (h : isLength thickness = true)
    (breakthrough : α) :
    ∃ found source, lookup key (some thickness) breakthrough = .ok (found, source) := by
  unfold lookup
  split
  · exact ⟨_, _, rfl⟩
  · exact ⟨formula thickness breakthrough, .formula, by simp [Option.filter, h]⟩

section

variable {part : Part α} (lathe : Lathe α) (constants : CuttingConstants α)
  (templates : Templates α)

theorem Job.exists_resolve (hlength : isLength part.thickness.inches = true)
    {offsets : WorkOffsets} (h : WorkOffsets.get? part.lathe part.thickness.key = some offsets) :
    ∃ j, resolve part lathe constants templates = .ok j := by
  obtain ⟨found, source, hlookup⟩ :=
    Depths.exists_lookup part.thickness.key hlength constants.drillBreakthrough
  exact ⟨_, by rw [resolve, hlookup, WorkOffsets.find, h]; rfl⟩

theorem Job.resolve_eq_missing (hlength : isLength part.thickness.inches = true)
    (h : WorkOffsets.get? part.lathe part.thickness.key = none) :
    resolve part lathe constants templates
      = .error (.missing (.workOffsets part.lathe.latheClass) part.thickness.key) := by
  obtain ⟨found, source, hlookup⟩ :=
    Depths.exists_lookup part.thickness.key hlength constants.drillBreakthrough
  rw [resolve, hlookup, WorkOffsets.find, h]
  rfl

end

namespace Program

theorem judgesOnly_ofJob (j : Job α) : JudgesOnly True (ofJob j) :=
  (JudgesOnly.mapM j.judgesOnly_sectionOf _).bind fun _ => .ok _

variable {lathes : Lathes α} {constants : CuttingConstants α} {templates : Templates α}
  {part : Part α}

theorem build_eq {lathe : Lathe α} (hcheck : part.check = .ok ())
    (hlathe : lathes.get? part.lathe = some lathe) :
    build lathes constants templates part
      = Job.resolve part lathe constants templates >>= ofJob := by
  rw [build, hcheck, hlathe]
  rfl

variable (lathes constants templates part) in
/-- A dimension is turned down before the look-ups, or the look-ups miss the work offsets, or the
sections are made. -/
theorem build_cases :
    (¬ (part.check = .ok () ∧ (lathes.get? part.lathe).isSome) ∧
      ∃ dimension reason,
        build lathes constants templates part = .error (.invalid dimension reason)) ∨
    (part.check = .ok () ∧ (lathes.get? part.lathe).isSome ∧
      WorkOffsets.get? part.lathe part.thickness.key = none ∧
      build lathes constants templates part
        = .error (.missing (.workOffsets part.lathe.latheClass) part.thickness.key)) ∨
    (part.check = .ok () ∧ (lathes.get? part.lathe).isSome ∧
      (WorkOffsets.get? part.lathe part.thickness.key).isSome ∧
      ∃ lathe j, Job.resolve part lathe constants templates = .ok j ∧
        build lathes constants templates part = ofJob j) := by
  have hjudges : JudgesOnly False part.check := part.judgesOnly_check
  cases hcheck : part.check with
  | error e =>
    rw [hcheck] at hjudges
    cases hjudges with
    | invalid dimension reason => exact .inl ⟨by simp, dimension, reason, by rw [build, hcheck]; rfl⟩
    | endless h => cases h
  | ok _ =>
    cases hlathe : lathes.get? part.lathe with
    | none => exact .inl ⟨by simp, _, _, by rw [build, hcheck, hlathe]; rfl⟩
    | some lathe =>
      have hlength := (Part.check_eq_ok.1 hcheck).2.1
      have hbuild : build lathes constants templates part = _ := build_eq hcheck hlathe
      cases hoffsets : WorkOffsets.get? part.lathe part.thickness.key with
      | none =>
        rw [Job.resolve_eq_missing lathe constants templates hlength hoffsets] at hbuild
        exact .inr (.inl ⟨rfl, rfl, rfl, hbuild⟩)
      | some offsets =>
        obtain ⟨j, hj⟩ := Job.exists_resolve lathe constants templates hlength hoffsets
        rw [hj] at hbuild
        exact .inr (.inr ⟨rfl, rfl, rfl, lathe, j, hj, hbuild⟩)

/-- A row is missed exactly where a part that could be made has no work offsets. -/
theorem build_eq_missing_iff {table : ShopTable} {key : String} :
    build lathes constants templates part = .error (.missing table key) ↔
      part.check = .ok () ∧ (lathes.get? part.lathe).isSome ∧
        WorkOffsets.get? part.lathe part.thickness.key = none ∧
        table = .workOffsets part.lathe.latheClass ∧ key = part.thickness.key := by
  obtain ⟨hready, dimension, reason, hbuild⟩ | ⟨hcheck, hlathe, hoffsets, hbuild⟩ |
    ⟨-, -, hoffsets, lathe, j, -, hbuild⟩ := build_cases lathes constants templates part
  · rw [hbuild]
    exact iff_of_false (by simp) fun h => hready ⟨h.1, h.2.1⟩
  · rw [hbuild]
    simp [hcheck, hlathe, hoffsets, eq_comm]
  · rw [hbuild]
    refine iff_of_false ((judgesOnly_ofJob j).ne_missing table key) fun h => ?_
    rw [h.2.2.1] at hoffsets
    cases hoffsets

end Program

/-! ## Plain bores -/

/-- The bore is opened in one zone, and nothing but a hub is turned on the second side. -/
def SpacerKind.hasPlainBore : SpacerKind → Bool
  | .standard | .hubCentric | .twoPieceStud => true
  | _ => false

omit [Scalar α] in
theorem Part.variant_of_hasPlainBore {part : Part α} (h : part.kind.hasPlainBore = true) :
    part.variant = .standard ∨
      ∃ hub, part.variant = .hubCentric hub ∨ part.variant = .twoPieceStud hub := by
  unfold kind at h
  cases hvariant : part.variant with
  | standard => exact .inl rfl
  | hubCentric hub => exact .inr ⟨hub, .inl rfl⟩
  | twoPieceStud hub => exact .inr ⟨hub, .inr rfl⟩
  | thinLip | step | steelRing | twoPieceLug =>
    rw [hvariant] at h
    cases h

theorem Boring.exists_plan_iff {c : CuttingConstants Rat} {target drill : Rat} {chamfer : Bool} :
    (∃ passes, plan c target drill chamfer = .ok passes) ↔
      (c.safeEntryDiameter < target ∧ target ≤ c.maxBoreDiameter ∧ drill < 0) ∧
        RoughingEnds c c.safeEntryDiameter target := by
  have hopening : (∃ passes, opening c c.safeEntryDiameter target drill chamfer = .ok passes) ↔
      RoughingEnds c c.safeEntryDiameter target := exists_opening_iff
  rw [← hopening]
  simp only [plan_eq_ok_iff]
  constructor
  · rintro ⟨passes, hbounds, opened, hopened, -⟩
    exact ⟨hbounds, opened, hopened⟩
  · rintro ⟨hbounds, opened, hopened⟩
    exact ⟨_, hbounds, opened, hopened, rfl⟩

namespace Job

variable {j : Job Rat}

theorem exists_hubSection_iff {hub : Hub Rat} {increment : Rat} {comment : String} :
    (∃ s, j.hubSection hub increment comment = .ok s) ↔ 0 < increment := by
  simp only [hubSection, bind_eq_ok, demand_eq_ok, Bool.not_eq_true', decide_eq_false_iff_not]
  constructor
  · rintro ⟨s, _, hincrement, -⟩
    exact Scalar.not_le_zero_rat.1 hincrement
  · exact fun hincrement => ⟨_, (), Scalar.not_le_zero_rat.2 hincrement, rfl⟩

theorem exists_op2TurnSection_iff (hkind : j.part.kind.hasPlainBore = true) :
    (∃ s, j.op2TurnSection = .ok s) ↔
      (j.part.variant.hub?.isSome → 0 < j.constants.hubZIncrement) := by
  unfold op2TurnSection
  obtain h | ⟨hub, h | h⟩ := Part.variant_of_hasPlainBore hkind
  · simp [h, Variant.hub?]
  · simp [h, Variant.hub?, exists_hubSection_iff]
  · simp [h, Variant.hub?, exists_hubSection_iff]

theorem borePasses_eq (hkind : j.part.kind.hasPlainBore = true) :
    j.borePasses = j.plainPasses := by
  unfold borePasses
  obtain h | ⟨hub, h | h⟩ := Part.variant_of_hasPlainBore hkind <;> rw [h]

theorem op2ChamferSection_eq (hkind : j.part.kind.hasPlainBore = true) :
    j.op2ChamferSection = .ok { kind := .op2Chamfer, blocks := j.boreChamferRun } := by
  unfold op2ChamferSection
  obtain h | ⟨hub, h | h⟩ := Part.variant_of_hasPlainBore hkind <;> rw [h]

theorem exists_borePasses_iff (hkind : j.part.kind.hasPlainBore = true) :
    (∃ passes, j.borePasses = .ok passes) ↔
      (j.constants.safeEntryDiameter < j.part.bore ∧ j.part.bore ≤ j.constants.maxBoreDiameter ∧
        j.depths.drill < 0) ∧
        Boring.RoughingEnds j.constants j.constants.safeEntryDiameter j.part.bore := by
  rw [borePasses_eq hkind]
  exact Boring.exists_plan_iff

theorem borePasses_eq_endless_iff (hkind : j.part.kind.hasPlainBore = true) :
    j.borePasses = .error .endless ↔
      (j.constants.safeEntryDiameter < j.part.bore ∧ j.part.bore ≤ j.constants.maxBoreDiameter ∧
        j.depths.drill < 0) ∧
        ¬ Boring.RoughingEnds j.constants j.constants.safeEntryDiameter j.part.bore := by
  rw [borePasses_eq hkind, ← Boring.opening_eq_endless_iff]
  exact Boring.plan_eq_endless_iff

/-- Only the bore and a hub can be turned down. -/
theorem exists_sectionOf_iff (hkind : j.part.kind.hasPlainBore = true) :
    (∀ kind, ∃ s, j.sectionOf kind = .ok s) ↔
      (∃ passes, j.borePasses = .ok passes) ∧ ∃ s, j.op2TurnSection = .ok s := by
  constructor
  · intro h
    obtain ⟨s, hs⟩ := h .op1Bore
    obtain ⟨passes, hpasses, -⟩ := map_eq_ok.1 hs
    exact ⟨⟨passes, hpasses⟩, h .op2Turn⟩
  · rintro ⟨⟨passes, hpasses⟩, hturn⟩ kind
    cases kind with
    | header | op1Drill | op1Turn | flip | footer => exact ⟨_, rfl⟩
    | op1Bore => exact ⟨_, map_eq_ok.2 ⟨passes, hpasses, rfl⟩⟩
    | op2Turn => exact hturn
    | op2Chamfer => exact ⟨_, op2ChamferSection_eq hkind⟩

/-- Only the bore can have no end. -/
theorem borePasses_of_sectionOf (hkind : j.part.kind.hasPlainBore = true) {kind : SectionKind}
    (h : j.sectionOf kind = .error .endless) : j.borePasses = .error .endless := by
  cases kind with
  | header | op1Drill | op1Turn | flip | footer => cases h
  | op1Bore => exact map_eq_error.1 h
  | op2Turn => exact absurd h j.judgesOnly_op2TurnSection.ne_endless
  | op2Chamfer =>
    rw [sectionOf, op2ChamferSection_eq hkind] at h
    cases h

end Job

namespace Program

theorem exists_ofJob_iff {α : Type} [Scalar α] {j : Job α} :
    (∃ p, ofJob j = .ok p) ↔ ∀ kind, ∃ s, j.sectionOf kind = .ok s := by
  have hmap : (∃ p, ofJob j = .ok p) ↔ ∃ ss, j.part.kind.sectionOrder.mapM j.sectionOf = .ok ss := by
    simp only [ofJob, bind_eq_ok]
    constructor
    · rintro ⟨p, ss, hss, -⟩
      exact ⟨ss, hss⟩
    · rintro ⟨ss, hss⟩
      exact ⟨_, ss, hss, rfl⟩
  rw [hmap, exists_mapM_eq_ok]
  exact ⟨fun h kind => h kind (j.part.kind.mem_sectionOrder kind), fun h kind _ => h kind⟩

variable {lathes : Lathes Rat} {constants : CuttingConstants Rat} {templates : Templates Rat}
  {part : Part Rat}

/-- The bore is opened before anything that can turn a dimension down. -/
theorem ofJob_eq_endless_iff {j : Job Rat} (hkind : j.part.kind.hasPlainBore = true) :
    ofJob j = .error .endless ↔ j.borePasses = .error .endless := by
  constructor
  · intro h
    rcases bind_eq_error.1 h with h | ⟨sections, -, h⟩
    · obtain ⟨kind, -, hsection⟩ := exists_of_mapM_eq_error h
      exact Job.borePasses_of_sectionOf hkind hsection
    · cases h
  · intro h
    have horder : j.part.kind.sectionOrder = SectionKind.all := by
      obtain h | ⟨hub, h | h⟩ := Part.variant_of_hasPlainBore hkind <;> rw [Part.kind, h] <;> rfl
    simp [ofJob, horder, SectionKind.all, Job.sectionOf, h, Except.map, bind, Except.bind]

/-- The depths of a part that passed its check are never in the way. -/
theorem drill_lt_zero {lathe : Lathe Rat} {j : Job Rat} (hcheck : part.check = .ok ())
    (h : Job.resolve part lathe constants templates = .ok j) : j.depths.drill < 0 := by
  have hdeep := Job.round4_drill_lt hcheck h
  have hnear := Exact.abs_round4_sub_le j.depths.drill
  rw [abs_le] at hnear
  norm_num at hdeep
  linarith

theorem exists_ofJob_iff_of_resolve {lathe : Lathe Rat} {j : Job Rat}
    (hkind : part.kind.hasPlainBore = true) (hcheck : part.check = .ok ())
    (h : Job.resolve part lathe constants templates = .ok j) :
    (∃ p, ofJob j = .ok p) ↔
      constants.safeEntryDiameter < part.bore ∧ part.bore ≤ constants.maxBoreDiameter ∧
        Boring.RoughingEnds constants constants.safeEntryDiameter part.bore ∧
        (part.variant.hub?.isSome → 0 < constants.hubZIncrement) := by
  obtain ⟨hpart, -, hconstants, -⟩ := Job.asked_of_resolve h
  have hdrill := drill_lt_zero hcheck h
  rw [exists_ofJob_iff, Job.exists_sectionOf_iff (hpart ▸ hkind),
    Job.exists_borePasses_iff (hpart ▸ hkind), Job.exists_op2TurnSection_iff (hpart ▸ hkind), hpart,
    hconstants]
  simp only [hdrill, and_true, and_assoc]

theorem ofJob_eq_endless_iff_of_resolve {lathe : Lathe Rat} {j : Job Rat}
    (hkind : part.kind.hasPlainBore = true) (hcheck : part.check = .ok ())
    (h : Job.resolve part lathe constants templates = .ok j) :
    ofJob j = .error .endless ↔
      constants.safeEntryDiameter < part.bore ∧ part.bore ≤ constants.maxBoreDiameter ∧
        ¬ Boring.RoughingEnds constants constants.safeEntryDiameter part.bore := by
  obtain ⟨hpart, -, hconstants, -⟩ := Job.asked_of_resolve h
  have hdrill := drill_lt_zero hcheck h
  rw [ofJob_eq_endless_iff (hpart ▸ hkind), Job.borePasses_eq_endless_iff (hpart ▸ hkind), hpart,
    hconstants]
  simp only [hdrill, and_true, and_assoc]

theorem build_isOk_iff (hkind : part.kind.hasPlainBore = true) :
    (∃ p, build lathes constants templates part = .ok p) ↔
      part.check = .ok () ∧ (lathes.get? part.lathe).isSome ∧
        (WorkOffsets.get? part.lathe part.thickness.key).isSome ∧
        constants.safeEntryDiameter < part.bore ∧ part.bore ≤ constants.maxBoreDiameter ∧
        Boring.RoughingEnds constants constants.safeEntryDiameter part.bore ∧
        (part.variant.hub?.isSome → 0 < constants.hubZIncrement) := by
  obtain ⟨hready, dimension, reason, hbuild⟩ | ⟨-, -, hoffsets, hbuild⟩ |
    ⟨hcheck, hlathe, hoffsets, lathe, j, hj, hbuild⟩ := build_cases lathes constants templates part
  · rw [hbuild]
    exact iff_of_false (by simp) fun h => hready ⟨h.1, h.2.1⟩
  · rw [hbuild, hoffsets]
    simp
  · rw [hbuild, exists_ofJob_iff_of_resolve hkind hcheck hj]
    simp only [hcheck, hlathe, hoffsets, true_and]

/-- There is no end exactly where all is there to plan a bore, and roughing it has none. -/
theorem build_eq_endless_iff (hkind : part.kind.hasPlainBore = true) :
    build lathes constants templates part = .error .endless ↔
      part.check = .ok () ∧ (lathes.get? part.lathe).isSome ∧
        (WorkOffsets.get? part.lathe part.thickness.key).isSome ∧
        constants.safeEntryDiameter < part.bore ∧ part.bore ≤ constants.maxBoreDiameter ∧
        ¬ Boring.RoughingEnds constants constants.safeEntryDiameter part.bore := by
  obtain ⟨hready, dimension, reason, hbuild⟩ | ⟨-, -, hoffsets, hbuild⟩ |
    ⟨hcheck, hlathe, hoffsets, lathe, j, hj, hbuild⟩ := build_cases lathes constants templates part
  · rw [hbuild]
    exact iff_of_false (by simp) fun h => hready ⟨h.1, h.2.1⟩
  · rw [hbuild, hoffsets]
    simp
  · rw [hbuild, ofJob_eq_endless_iff_of_resolve hkind hcheck hj]
    simp only [hcheck, hlathe, hoffsets, true_and]

/-- A part with a plain bore is made exactly when it passes its check, its lathe and its work offsets
are there, its bore is within reach, roughing it comes to an end, and a hub can be turned in steps.  A
row is missed exactly when there are no work offsets for a part that passes, on a lathe that is there.
Making the part has no end exactly when roughing has none, and roughing ends exactly if its first turn
reaches the bore or gets on at all. -/
theorem outcome_build (lathes : Lathes Rat) (constants : CuttingConstants Rat)
    (templates : Templates Rat) (part : Part Rat) (hkind : part.kind.hasPlainBore = true) :
    ((∃ p, build lathes constants templates part = .ok p) ↔
      part.check = .ok () ∧ (lathes.get? part.lathe).isSome ∧
        (WorkOffsets.get? part.lathe part.thickness.key).isSome ∧
        constants.safeEntryDiameter < part.bore ∧ part.bore ≤ constants.maxBoreDiameter ∧
        Boring.RoughingEnds constants constants.safeEntryDiameter part.bore ∧
        (part.variant.hub?.isSome → 0 < constants.hubZIncrement)) ∧
      (∀ table key, build lathes constants templates part = .error (.missing table key) ↔
        part.check = .ok () ∧ (lathes.get? part.lathe).isSome ∧
          WorkOffsets.get? part.lathe part.thickness.key = none ∧
          table = .workOffsets part.lathe.latheClass ∧ key = part.thickness.key) ∧
      (build lathes constants templates part = .error .endless ↔
        part.check = .ok () ∧ (lathes.get? part.lathe).isSome ∧
          (WorkOffsets.get? part.lathe part.thickness.key).isSome ∧
          constants.safeEntryDiameter < part.bore ∧ part.bore ≤ constants.maxBoreDiameter ∧
          ¬ Boring.RoughingEnds constants constants.safeEntryDiameter part.bore) ∧
      (Boring.RoughingEnds constants constants.safeEntryDiameter part.bore ↔
        let entry : Rat := Scalar.round4 constants.safeEntryDiameter
        let next := Scalar.round4 (entry + constants.maxBoreStep)
        next ≥ Scalar.round4 part.bore - Boring.epsilon ∨ entry < next) :=
  ⟨build_isOk_iff hkind, fun _ _ => build_eq_missing_iff, build_eq_endless_iff hkind,
    Boring.exists_roughs_iff (Exact.isPlaced_round4 _)⟩

end Program

/-- The stud half of a set, for the small lathe. -/
def Part.studOf {α : Type} [Scalar α] (key : String) (inches : α) : Part α where
  programNumber := 7
  title := "5.75 STUD"
  round := 5.75
  thickness := { key, inches }
  boreMm := 74.0
  fittedBoreMm := 74.1
  bore := 2.9173
  lathe := .l1
  fitted := true
  feedMode := .proven
  variant := .twoPieceStud { nominalMm := 90.0, fittedMm := 89.9, diameter := 3.5394, height := 0.25 }

/-- A stud half is made at three quarters of an inch, and not at twenty millimetres, which have depths
but no work offsets on the small lathe. -/
theorem Program.outcome_build_studs :
    ((Part.studOf "0.75" (0.75 : Rat)).kind.hasPlainBore = true ∧
        ∃ p, build .standard .standard (fun _ => none) (.studOf "0.75" (0.75 : Rat)) = .ok p) ∧
      (Part.studOf "20MM" (20 / 25.4 : Rat)).kind.hasPlainBore = true ∧
        (Depths.row? "20MM" : Option (Depths Rat)).isSome ∧
        build .standard .standard (fun _ => none) (.studOf "20MM" (20 / 25.4 : Rat))
          = .error (.missing (.workOffsets .smallParts) "20MM") := by
  refine ⟨⟨rfl, ?_⟩, rfl, by decide +kernel, ?_⟩
  · have hmade := (outcome_build .standard .standard (fun _ => none) (.studOf "0.75" 0.75) rfl).1
    have hends : Boring.RoughingEnds (.standard : CuttingConstants Rat)
        CuttingConstants.standard.safeEntryDiameter (Part.studOf "0.75" (0.75 : Rat)).bore :=
      Boring.roughingEnds_of_step (by decide +kernel) _ _
    exact hmade.2 ⟨by decide +kernel, by decide +kernel, by decide +kernel, by decide +kernel,
      by decide +kernel, hends, by decide +kernel⟩
  · have hmissed := (outcome_build .standard .standard (fun _ => none)
      (.studOf "20MM" (20 / 25.4)) rfl).2.1
    exact (hmissed _ _).2 (by decide +kernel)

/-- Settings are accepted with which a part that has all it needs is never made, since the step is
rounded away, and others with which a hub is turned in steps that are no number. -/
theorem Program.not_outcome_build_of_valid :
    let lost : Config Rat :=
      { Config.standard with generator := { CuttingConstants.standard with maxBoreStep := 0.00001 } }
    let undefined : Config Float :=
      { Config.standard with
        generator := { CuttingConstants.standard with hubZIncrement := 0.0 / 0.0 } }
    let part : Part Rat := .studOf "0.75" 0.75
    (lost.isValid = true ∧ part.kind.hasPlainBore = true ∧ part.check = .ok () ∧
        ((.standard : Lathes Rat).get? part.lathe).isSome ∧
        (WorkOffsets.get? part.lathe part.thickness.key).isSome ∧
        lost.generator.safeEntryDiameter < part.bore ∧
        part.bore ≤ lost.generator.maxBoreDiameter ∧ 0 < lost.generator.hubZIncrement ∧
        (∀ ds, ¬ Boring.Roughs lost.generator.maxBoreStep (Scalar.round4 part.bore)
          (Scalar.round4 lost.generator.safeEntryDiameter) ds) ∧
        ¬ ∃ p, build .standard lost.generator (fun _ => none) part = .ok p) ∧
      undefined.isValid = true ∧ (Part.studOf "0.75" (0.75 : Float)).kind.hasPlainBore = true ∧
        ¬ (0 : Float) < undefined.generator.hubZIncrement ∧
        ∃ p, build .standard undefined.generator (fun _ => none)
          (.studOf "0.75" (0.75 : Float)) = .ok p := by
  intro lost undefined part
  have hstep : lost.generator.maxBoreStep < 1 / 20000 ∧ 0 < lost.generator.maxBoreStep := by
    decide +kernel
  have hstart : 0 ≤ lost.generator.safeEntryDiameter ∧
      lost.generator.safeEntryDiameter ≤ part.bore := by decide +kernel
  have hapart : ¬ (Scalar.round4 lost.generator.safeEntryDiameter : Rat)
      = Scalar.round4 part.bore := by decide +kernel
  have hends : ¬ Boring.RoughingEnds lost.generator lost.generator.safeEntryDiameter part.bore := by
    rw [Boring.roughingEnds_iff_of_pos hstep.2 hstart.1 hstart.2]
    rintro (hgo | heq)
    · exact absurd hstep.1 (not_lt.2 hgo)
    · exact hapart heq
  have hmade : (build .standard undefined.generator (fun _ => none)
      (.studOf "0.75" (0.75 : Float))).isOk = true := by decide +kernel
  refine ⟨⟨by decide +kernel, rfl, by decide +kernel, by decide +kernel, by decide +kernel,
    by decide +kernel, by decide +kernel, by decide +kernel, fun ds h => hends ⟨ds, h⟩, ?_⟩,
    by decide +kernel, rfl, by decide +kernel, exists_eq_ok hmade⟩
  rw [build_isOk_iff rfl]
  rintro ⟨-, -, -, -, -, hroughing, -⟩
  exact hends hroughing

end SpacerTurning
