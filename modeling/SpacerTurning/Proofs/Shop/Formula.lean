import SpacerTurning.Proofs.Shop.Depths
import SpacerTurning.Settings.Config

/-!
Depths by the formula.

The formula drills a little further than the thickness, and turns the outside to half of it, or a tenth
of an inch on thin parts.  Both depths grow with the thickness.  The drill goes below the profile as
soon as thickness and breakthrough are more than that tenth together, and only then: a very thin part
under a small breakthrough is turned deeper than it is drilled.  The rows of the depth table are always
drilled deeper.
-/

namespace SpacerTurning
namespace Depths

open Number

/-- The drill goes below the profile, and the profile below the face. -/
structure InOrder (d : Depths Rat) : Prop where
  drill_lt : d.drill < d.profile
  profile_neg : d.profile < 0

theorem inOrder_iff {d : Depths Rat} (hneg : d.profile < 0) : d.InOrder ↔ d.drill < d.profile :=
  ⟨InOrder.drill_lt, fun hlt => ⟨hlt, hneg⟩⟩

/-- The profile of the formula, in its three bands. -/
theorem profile_formula (t b : Rat) : (formula t b).profile =
    if t ≤ 3 / 4 then -(1 / 10) else if t ≤ 1 then -(t * (1 / 2)) else -(t * (21 / 40)) := by
  have hthin : (0.75 : Rat) = 3 / 4 := by norm_num
  have hone : (1.0 : Rat) = 1 := by norm_num
  have htenth : (0.10 : Rat) = 1 / 10 := by norm_num
  have hhalf : (0.5 : Rat) = 1 / 2 := by norm_num
  have hmore : (0.525 : Rat) = 21 / 40 := by norm_num
  show (if t ≤ (0.75 : Rat) then -(0.10 : Rat) else if t ≤ (1.0 : Rat) then -(t * (0.5 : Rat))
    else -(t * (0.525 : Rat))) = _
  rw [hthin, hone, htenth, hhalf, hmore]

theorem drill_formula (t b : Rat) : (formula t b).drill = -(t + b) := rfl

theorem profile_formula_neg {t : Rat} (b : Rat) (ht : 0 < t) : (formula t b).profile < 0 := by
  rw [profile_formula]
  split
  · norm_num
  · split <;> linarith

/-- Above the thin parts the profile stays above the bottom of the part, and so does the drill below it. -/
theorem drill_formula_lt_iff {t b : Rat} (hb : 0 ≤ b) :
    (formula t b).drill < (formula t b).profile ↔ 0.1 < t + b := by
  have htenth : (0.1 : Rat) = 1 / 10 := by norm_num
  rw [drill_formula, profile_formula, htenth]
  split
  · constructor <;> intro h <;> linarith
  · next hthick =>
    have hdeep : 1 / 10 < t + b := by linarith
    split
    · exact iff_of_true (by linarith) hdeep
    · exact iff_of_true (by linarith) hdeep

theorem drill_formula_antitone (b : Rat) : Antitone fun t => (formula t b).drill := by
  intro t t' h
  show -(t' + b) ≤ -(t + b)
  linarith

/-- The profile only falls within a band, and falls where one band ends and the next begins. -/
theorem profile_formula_antitone (b : Rat) : Antitone fun t => (formula t b).profile := by
  intro t t' h
  show (formula t' b).profile ≤ (formula t b).profile
  rw [profile_formula, profile_formula]
  by_cases hthin : t' ≤ 3 / 4
  · rw [if_pos hthin, if_pos (h.trans hthin)]
  · rw [if_neg hthin]
    by_cases hinch : t' ≤ 1
    · rw [if_pos hinch, if_pos (h.trans hinch)]
      split <;> linarith
    · rw [if_neg hinch]
      split
      · linarith
      · split <;> linarith

/-! ## Looking depths up -/

/-- The thickness that the formula is used on: the one that is given, or else the one that the key stands
for, if it is a length. -/
def usable? (key : String) (thickness : Option Rat) : Option Rat :=
  (thickness <|> (Thickness.read key).toOption.map fun t : Thickness Rat => t.inches).filter isLength

theorem lookup_of_row? {key : String} {depths : Depths Rat} (hrow : row? key = some depths)
    (thickness : Option Rat) (b : Rat) : lookup key thickness b = .ok (depths, .table) := by
  unfold lookup
  rw [hrow]

theorem lookup_of_usable? {key : String} {thickness : Option Rat} {t : Rat}
    (hrow : (row? key : Option (Depths Rat)) = none) (ht : usable? key thickness = some t) (b : Rat) :
    lookup key thickness b = .ok (formula t b, .formula) := by
  unfold lookup
  rw [hrow]
  cases thickness with
  | none =>
    have hkey : ((Thickness.read key).toOption.map fun t : Thickness Rat => t.inches).filter isLength
        = some t := ht
    simp only [hkey]
  | some given =>
    have hgiven : (some given).filter isLength = some t := ht
    simp only [hgiven]

theorem pos_of_usable? {key : String} {thickness : Option Rat} {t : Rat}
    (h : usable? key thickness = some t) : 0 < t := by
  obtain ⟨-, hlength⟩ := Option.filter_eq_some_iff.1 h
  exact isLength_rat.1 hlength

theorem inOrder_formula_iff {t b : Rat} (ht : 0 < t) (hb : 0 ≤ b) :
    (formula t b).InOrder ↔ 0.1 < t + b :=
  (inOrder_iff (profile_formula_neg b ht)).trans (drill_formula_lt_iff hb)

theorem inOrder_of_row? {key : String} {depths : Depths Rat} (h : row? key = some depths) :
    depths.InOrder := by
  obtain ⟨hfar, hneg⟩ := profile_of_row? h
  norm_num at hfar
  exact ⟨by linarith, hneg⟩

/-- A usable thickness has depths, and those of the table are always in order. -/
theorem exists_lookup_inOrder {key : String} {thickness : Option Rat} {t b : Rat} (hb : 0 ≤ b)
    (ht : usable? key thickness = some t) :
    ∃ d source, lookup key thickness b = .ok (d, source) ∧ d.profile < 0 ∧
      (d.InOrder ↔ source = .table ∨ 0.1 < t + b) := by
  cases hrow : (row? key : Option (Depths Rat)) with
  | some depths =>
    have hordered := inOrder_of_row? hrow
    exact ⟨depths, .table, lookup_of_row? hrow _ _, hordered.profile_neg,
      iff_of_true hordered (.inl rfl)⟩
  | none =>
    have hpos := pos_of_usable? ht
    refine ⟨formula t b, .formula, lookup_of_usable? hrow ht b, profile_formula_neg b hpos, ?_⟩
    rw [inOrder_formula_iff hpos hb]
    simp

/-- Under a breakthrough that settings may have, the depths of the formula fall with the thickness, and
are in order if and only if thickness and breakthrough are more than a tenth of an inch together.  So
are those that are looked up, unless the table has them. -/
theorem inOrder_iff_tenth {b : Rat} (hb : 0 ≤ b) :
    (∀ t, 0 < t → (formula t b).profile < 0 ∧ ((formula t b).InOrder ↔ 0.1 < t + b)) ∧
    (∀ t t', t ≤ t' → (formula t' b).drill ≤ (formula t b).drill ∧
      (formula t' b).profile ≤ (formula t b).profile) ∧
    ∀ key thickness t, usable? key thickness = some t →
      ∃ d source, lookup key thickness b = .ok (d, source) ∧ d.profile < 0 ∧
        (d.InOrder ↔ source = .table ∨ 0.1 < t + b) := by
  refine ⟨fun t ht => ⟨profile_formula_neg b ht, inOrder_formula_iff ht hb⟩, fun t t' h => ?_, ?_⟩
  · exact ⟨drill_formula_antitone b h, profile_formula_antitone b h⟩
  · intro key thickness t ht
    exact exists_lookup_inOrder hb ht

/-- A thickness between two rows, under the breakthrough of the shop. -/
theorem inOrder_iff_tenth_between_rows :
    (formula (1.6 : Rat) 0.15).InOrder ∧
      (formula (2.1 : Rat) 0.15).profile ≤ (formula (1.6 : Rat) 0.15).profile ∧
      usable? "1.60" (some 1.6) = some 1.6 ∧
      ∃ d source, lookup "1.60" (some 1.6) (0.15 : Rat) = .ok (d, source) ∧ d.InOrder := by
  have hb : (0 : Rat) ≤ 0.15 := by norm_num
  obtain ⟨hordered, hfalls, hlookup⟩ := inOrder_iff_tenth hb
  have husable : usable? "1.60" (some 1.6) = some 1.6 :=
    Option.filter_eq_some_iff.2 ⟨rfl, isLength_rat.2 (by norm_num)⟩
  obtain ⟨d, source, hd, -, hiff⟩ := hlookup "1.60" (some 1.6) 1.6 husable
  have hmore : (0.1 : Rat) < 1.6 + 0.15 := by norm_num
  exact ⟨(hordered 1.6 (by norm_num)).2.2 hmore, (hfalls 1.6 2.1 (by norm_num)).2, husable,
    d, source, hd, hiff.2 (.inr hmore)⟩

/-- Settings without a breakthrough are accepted, and the depths of a very thin part are then out of
order, in the formula as where they are looked up. -/
theorem not_inOrder_of_thin : ∃ c : Config Rat, c.isValid = true ∧
    0 ≤ c.generator.drillBreakthrough ∧
    ¬ (formula 0.05 c.generator.drillBreakthrough).InOrder ∧
    lookup "0.05" (some 0.05) c.generator.drillBreakthrough
      = .ok ({ drill := -0.05, profile := -0.1 }, .formula) := by
  refine ⟨{ Config.standard with
    generator := { CuttingConstants.standard with drillBreakthrough := 0 } }, ?_, le_rfl, ?_, ?_⟩
  · decide +kernel
  · rw [inOrder_formula_iff (by norm_num) le_rfl]
    norm_num
  · decide +kernel

end Depths
end SpacerTurning
