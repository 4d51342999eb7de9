import SpacerTurning.Proofs.Number.Lengths
import SpacerTurning.Proofs.Part.Order
import SpacerTurning.Proofs.Part.Thickness
import SpacerTurning.Proofs.Settings.Config

/-!
Parts that a program is made from.

A part is checked twice: as an order when it is built, and as a part before a program is made.  The
order is checked with the nominal diameters, the part with its fits; so a part that was built can still
be turned down, for what a fit did to its bore or to the wall of its hub.
-/

namespace SpacerTurning

open Number Number.Binary64

theorem Thickness.isFinite_of_read {text : String} {t : Thickness Float} (h : read text = .ok t) :
    t.inches.isFinite = true := by
  obtain ⟨value, hlength, rfl | rfl⟩ := exists_of_read h
  · exact (isLength_iff.1 hlength).1
  · exact isFinite_toInches (isLength_iff.1 hlength).1

/-- A number that is not at or below zero is a length if it is finite. -/
theorem isLength_iff_isFinite {x : Float} (h : ¬ x ≤ (Scalar.ofNat 0 : Float)) :
    isLength x = true ↔ x.isFinite = true := by
  unfold isLength
  rw [Bool.and_eq_true, Bool.not_eq_true', decide_eq_false_iff_not]
  exact and_iff_left h

namespace Order

variable {o : Order Float} {c : CuttingConstants Float} {part : Part Float}

theorem isFinite_thickness (h : o.build c = .ok part) : part.thickness.inches.isFinite = true := by
  obtain ⟨-, hthickness, -⟩ := of_build h
  simp only [buildThickness, bind_eq_ok, mapError_eq_ok] at hthickness
  obtain ⟨text, -, hread⟩ := hthickness
  exact Thickness.isFinite_of_read hread

theorem isLength_thickness_iff (h : o.build c = .ok part) :
    isLength part.thickness.inches = true ↔ 0 < part.thickness.inches :=
  isLength_iff.trans (and_iff_right (isFinite_thickness h))

theorem isLength_bore_iff (h : o.build c = .ok part) : isLength part.bore = true ↔ 0 < part.bore := by
  obtain ⟨hround, -, -, -, -, hle, -⟩ := of_build h
  exact ⟨fun hbore => (isLength_iff.1 hbore).2, fun hpos => isLength_of_not_le hpos hle hround⟩

/-- A dimension that was ordered was checked then; one that was left to the shop was not. -/
theorem isLength_iff_of_default {ordered : Option Float} {default x : Float}
    (hdefault : ¬ default ≤ (Scalar.ofNat 0 : Float))
    (h : ordered = some x ∧ isLength x = true ∨ ordered = none ∧ x = default) :
    isLength x = true ↔ (ordered = none → default.isFinite = true) := by
  rcases h with ⟨rfl, hlength⟩ | ⟨rfl, rfl⟩
  · exact iff_of_true hlength fun hnone => nomatch hnone
  · exact (isLength_iff_isFinite hdefault).trans ⟨fun hfinite _ => hfinite, fun h => h rfl⟩

/-- Under accepted settings, a part that was built is turned down exactly if its thickness vanishes in
inches, its fit leaves no bore or no wall around it, or a dimension that was left to the shop is not
finite there. -/
theorem check_build_iff {config : Config Float} (hvalid : config.isValid = true)
    (h : o.build config.generator = .ok part) :
    part.check = .ok () ↔
      0 < part.thickness.inches ∧ 0 < part.bore ∧
        (∀ hub, part.variant.hub? = some hub → ¬ hub.diameter ≤ part.bore ∧
          (o.hubHeight = none → config.generator.studHubHeight.isFinite = true)) ∧
        ∀ shelf, part.variant.counterbore? = some shelf →
          o.counterboreDepth = none → config.generator.lugRecessDepth.isFinite = true := by
  obtain ⟨hround, -, hboreMm, -, -, hboreRound, -⟩ := of_build h
  have hconstants := (Config.fault?_eq_none hvalid).1
  rw [Part.check_eq_ok, isLength_thickness_iff h, isLength_bore_iff h]
  simp only [hround, hboreMm, hboreRound, true_and, not_false_eq_true]
  refine and_congr_right fun _ => and_congr_right fun _ => and_congr ?_ ?_
  · refine forall₂_congr fun hub hhub => ?_
    obtain ⟨-, -, -, hhubRound, hheight⟩ := hub_of_build h hhub
    rw [isLength_iff_of_default (CuttingConstants.studHeight_not_le_zero hconstants) hheight,
      and_comm, and_iff_left hhubRound]
  · refine forall₂_congr fun shelf hshelf => ?_
    obtain ⟨-, -, -, hdepth⟩ := counterbore_of_build h hshelf
    exact isLength_iff_of_default (CuttingConstants.recessDepth_not_le_zero hconstants) hdepth

theorem check_build_iff_stud :
    let o : Order Float := {
      programNumber := some 7, title := some "STUD", round := some 5.75, thickness := some "0.75"
      boreMm := some 60, lathe := some "L1", fitted := true, kind := some .twoPieceStud
      hubMm := some 70 }
    (Config.standard : Config Float).isValid = true ∧
      ∃ part, o.build .standard = .ok part ∧ part.check = .ok () := by
  intro o
  have hvalid : (Config.standard : Config Float).isValid = true := by decide +kernel
  let hub : Hub Float :=
    { nominalMm := 70, fittedMm := 70 - 0.1, diameter := toInches (70 - 0.1), height := 0.25 }
  have hbuild : o.build (Config.standard : Config Float).generator = .ok
      { programNumber := 7, title := "STUD", round := 5.75, thickness := .ofInches 0.75, boreMm := 60
        fittedBoreMm := 60 + 0.1, bore := toInches (60 + 0.1), lathe := .l1, fitted := true
        feedMode := .proven, variant := .twoPieceStud hub } := by
    decide +kernel
  have hlengths : (0 : Float) < 0.75 ∧ (0 : Float) < toInches (60 + 0.1) := by decide +kernel
  have hwall : ¬ (toInches (70 - 0.1) : Float) ≤ toInches (60 + 0.1) := by decide +kernel
  have hheight : (CuttingConstants.standard : CuttingConstants Float).studHubHeight.isFinite = true := by
    decide +kernel
  refine ⟨hvalid, _, hbuild, (check_build_iff hvalid hbuild).2
    ⟨hlengths.1, hlengths.2, fun built hbuilt => ?_, fun shelf hshelf => nomatch hshelf⟩⟩
  obtain rfl : hub = built := Option.some.inj hbuilt
  exact ⟨hwall, fun _ => hheight⟩

/-- A hub a tenth wider than its bore has a wall, until both get their fits. -/
theorem not_check_of_fits :
    let o : Order Float := {
      programNumber := some 7, title := some "HUB", round := some 5.75, thickness := some "0.75"
      boreMm := some 60, lathe := some "L1", fitted := true, kind := some .hubCentric
      hubMm := some 60.1, hubHeight := some 0.5 }
    let hub : Hub Float :=
      { nominalMm := 60.1, fittedMm := 60.1 - 0.1, diameter := toInches (60.1 - 0.1), height := 0.5 }
    let part : Part Float := {
      programNumber := 7, title := "HUB", round := 5.75, thickness := .ofInches 0.75, boreMm := 60
      fittedBoreMm := 60 + 0.1, bore := toInches (60 + 0.1), lathe := .l1, fitted := true
      feedMode := .proven, variant := .thinLip hub }
    (Config.standard : Config Float).isValid = true ∧
      o.build (Config.standard : Config Float).generator = .ok part ∧
      part.check = .error (.invalid .outerBoreMm (.hubNotAroundBore hub.diameter part.bore 5.75)) := by
  decide +kernel

end Order

end SpacerTurning
