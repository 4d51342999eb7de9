import SpacerTurning.Part.Order
import SpacerTurning.Proofs.Part.Refusal

/-!
What a part was built from.

Building a part stops at the first fault of its order.  So a part that was built has every dimension
that its order gave, each as it was checked there, and the few that were left to the shop's constants,
which nothing checked.
-/

namespace SpacerTurning
namespace Order

variable {α : Type} [Scalar α] {o : Order α} {c : CuttingConstants α} {dimension : Dimension}

omit [Scalar α] in
theorem required_eq_ok {β : Type} {value : Option β} {x : β} :
    required (α := α) dimension value = .ok x ↔ value = some x := by
  cases value with
  | none => simp [required]
  | some y => simp [required]

theorem requiredLength_eq_ok {value : Option α} {x : α} :
    requiredLength dimension value = .ok x ↔ value = some x ∧ isLength x = true := by
  simp only [requiredLength, bind_eq_ok, required_eq_ok, demandLength_eq_ok]
  constructor
  · rintro ⟨y, rfl, hlength, rfl⟩
    exact ⟨rfl, hlength⟩
  · rintro ⟨rfl, hlength⟩
    exact ⟨x, rfl, hlength, rfl⟩

theorem lengthOr_eq_ok {value fallback : Option α} {x : α} :
    lengthOr dimension value fallback = .ok x ↔
      (value = some x ∧ isLength x = true) ∨ (value = none ∧ fallback = some x) := by
  cases value with
  | some y =>
    simp only [lengthOr, demandLength_eq_ok, Option.some.injEq, reduceCtorEq, false_and, or_false]
    constructor
    · rintro ⟨hlength, rfl⟩
      exact ⟨rfl, hlength⟩
    · rintro ⟨rfl, hlength⟩
      exact ⟨hlength, rfl⟩
  | none =>
    cases fallback with
    | none => simp [lengthOr]
    | some y => simp [lengthOr]

/-- A dimension that may be left to the shop is as it was ordered, or as the shop has it. -/
theorem of_lengthOr {value fallback : Option α} {constant x : α}
    (h : lengthOr dimension value fallback = .ok x)
    (hfallback : fallback = none ∨ fallback = some constant) :
    value = some x ∧ isLength x = true ∨ value = none ∧ x = constant := by
  refine (lengthOr_eq_ok.1 h).imp_right fun ⟨hnone, hleft⟩ => ⟨hnone, ?_⟩
  rcases hfallback with rfl | rfl
  · cases hleft
  · exact (Option.some.inj hleft).symm

variable {round boreMm : α} {thickness : Thickness α} {fallback : Option α}

theorem of_buildHub {hub : Hub α} (h : o.buildHub c round boreMm fallback = .ok hub) :
    isLength hub.nominalMm = true ∧ hub.fittedMm = o.fitHub c hub.nominalMm ∧
      hub.diameter = toInches hub.fittedMm ∧ ¬ hub.diameter ≥ round ∧
      lengthOr .hubHeight o.hubHeight fallback = .ok hub.height := by
  simp only [buildHub, bind_eq_ok, requiredLength_eq_ok, demand_eq_ok] at h
  obtain ⟨nominal, ⟨-, hnominal⟩, height, hheight, _, -, _, hround, h⟩ := h
  cases h
  exact ⟨hnominal, rfl, rfl, by simpa using hround, hheight⟩

theorem of_buildCounterbore {shelf : Counterbore α}
    (h : o.buildCounterbore thickness boreMm fallback = .ok shelf) :
    isLength shelf.nominalMm = true ∧ shelf.diameter = toInches shelf.nominalMm ∧
      ¬ shelf.depth ≥ thickness.inches ∧
      lengthOr .counterboreDepth o.counterboreDepth fallback = .ok shelf.depth := by
  simp only [buildCounterbore, bind_eq_ok, requiredLength_eq_ok, demand_eq_ok] at h
  obtain ⟨nominal, ⟨-, hnominal⟩, depth, hdepth, _, -, _, hthickness, h⟩ := h
  cases h
  exact ⟨hnominal, rfl, by simpa using hthickness, hdepth⟩

theorem exists_buildHub {kind : SpacerKind} {v : Variant α} {hub : Hub α}
    (h : o.buildVariant c kind round thickness boreMm = .ok v) (hhub : v.hub? = some hub) :
    ∃ fallback, o.buildHub c round boreMm fallback = .ok hub ∧
      (fallback = none ∨ fallback = some c.studHubHeight) := by
  unfold buildVariant at h
  cases kind with
  | standard | steelRing =>
    cases h
    cases hhub
  | hubCentric =>
    obtain ⟨built, hbuilt, rfl⟩ := map_eq_ok.1 h
    unfold classifyHub at hhub
    split at hhub <;> cases hhub <;> exact ⟨none, hbuilt, Or.inl rfl⟩
  | thinLip =>
    obtain ⟨built, hbuilt, rfl⟩ := map_eq_ok.1 h
    cases hhub
    exact ⟨none, hbuilt, Or.inl rfl⟩
  | twoPieceStud =>
    obtain ⟨built, hbuilt, rfl⟩ := map_eq_ok.1 h
    cases hhub
    exact ⟨_, hbuilt, Or.inr rfl⟩
  | step | twoPieceLug =>
    obtain ⟨shelf, -, rfl⟩ := map_eq_ok.1 h
    cases hhub

theorem exists_buildCounterbore {kind : SpacerKind} {v : Variant α} {shelf : Counterbore α}
    (h : o.buildVariant c kind round thickness boreMm = .ok v) (hshelf : v.counterbore? = some shelf) :
    ∃ fallback, o.buildCounterbore thickness boreMm fallback = .ok shelf ∧
      (fallback = none ∨ fallback = some c.lugRecessDepth) := by
  unfold buildVariant at h
  cases kind with
  | standard | steelRing =>
    cases h
    cases hshelf
  | hubCentric =>
    obtain ⟨hub, -, rfl⟩ := map_eq_ok.1 h
    unfold classifyHub at hshelf
    split at hshelf <;> cases hshelf
  | thinLip | twoPieceStud =>
    obtain ⟨hub, -, rfl⟩ := map_eq_ok.1 h
    cases hshelf
  | step =>
    obtain ⟨built, hbuilt, rfl⟩ := map_eq_ok.1 h
    cases hshelf
    exact ⟨none, hbuilt, Or.inl rfl⟩
  | twoPieceLug =>
    obtain ⟨built, hbuilt, rfl⟩ := map_eq_ok.1 h
    cases hshelf
    exact ⟨_, hbuilt, Or.inr rfl⟩

variable {part : Part α}

theorem of_build (h : o.build c = .ok part) :
    isLength part.round = true ∧ o.buildThickness = .ok part.thickness ∧
      isLength part.boreMm = true ∧ part.fittedBoreMm = o.fitBore c part.boreMm ∧
      part.bore = toInches part.fittedBoreMm ∧ ¬ part.bore ≥ part.round ∧
      ∃ kind, o.buildVariant c kind part.round part.thickness part.boreMm = .ok part.variant := by
  simp only [build, bind_eq_ok, requiredLength_eq_ok, demand_eq_ok] at h
  obtain ⟨number, -, round, ⟨-, hround⟩, thickness, hthickness, boreMm, ⟨-, hboreMm⟩, lathe, -,
    _, hbore, kind, -, variant, hvariant, h⟩ := h
  cases h
  exact ⟨hround, hthickness, hboreMm, rfl, rfl, by simpa using hbore, kind, hvariant⟩

theorem programNumber_of_build (h : o.build c = .ok part) :
    part.programNumber ≤ maxProgramNumber := by
  simp only [build, bind_eq_ok] at h
  obtain ⟨number, hnumber, _, -, _, -, _, -, _, -, _, -, _, -, _, -, h⟩ := h
  cases h
  simp only [buildNumber, bind_eq_ok, demand_eq_ok, Bool.and_eq_true, decide_eq_true_eq] at hnumber
  obtain ⟨number', -, _, ⟨-, hle⟩, hnumber⟩ := hnumber
  cases hnumber
  exact hle

/-- The hub of a part has the height that was ordered, or that of a stud hub if none was. -/
theorem hub_of_build (h : o.build c = .ok part) {hub : Hub α} (hhub : part.variant.hub? = some hub) :
    isLength hub.nominalMm = true ∧ hub.fittedMm = o.fitHub c hub.nominalMm ∧
      hub.diameter = toInches hub.fittedMm ∧ ¬ hub.diameter ≥ part.round ∧
      (o.hubHeight = some hub.height ∧ isLength hub.height = true ∨
        o.hubHeight = none ∧ hub.height = c.studHubHeight) := by
  obtain ⟨-, -, -, -, -, -, kind, hvariant⟩ := of_build h
  obtain ⟨fallback, hbuilt, hfallback⟩ := exists_buildHub hvariant hhub
  obtain ⟨hnominal, hfitted, hdiameter, hround, hheight⟩ := of_buildHub hbuilt
  exact ⟨hnominal, hfitted, hdiameter, hround, of_lengthOr hheight hfallback⟩

/-- The counterbore of a part has the depth that was ordered, or that of a recess if none was. -/
theorem counterbore_of_build (h : o.build c = .ok part) {shelf : Counterbore α}
    (hshelf : part.variant.counterbore? = some shelf) :
    isLength shelf.nominalMm = true ∧ shelf.diameter = toInches shelf.nominalMm ∧
      ¬ shelf.depth ≥ part.thickness.inches ∧
      (o.counterboreDepth = some shelf.depth ∧ isLength shelf.depth = true ∨
        o.counterboreDepth = none ∧ shelf.depth = c.lugRecessDepth) := by
  obtain ⟨-, -, -, -, -, -, kind, hvariant⟩ := of_build h
  obtain ⟨fallback, hbuilt, hfallback⟩ := exists_buildCounterbore hvariant hshelf
  obtain ⟨hnominal, hdiameter, hthickness, hdepth⟩ := of_buildCounterbore hbuilt
  exact ⟨hnominal, hdiameter, hthickness, of_lengthOr hdepth hfallback⟩

end Order
end SpacerTurning
