import SpacerTurning.Cutting.Feeds
import SpacerTurning.Proofs.Number.Whole

/-!
Speeds under the ceilings of a lathe.

Settings are held under what the lathe can do as the last step, wherever they come from.  The
reduction for a thin wall comes before that, and makes no speed larger: nine tenths of a whole number
are not rounded past it.
-/

namespace SpacerTurning

open Number

/-- The spindle turns no faster than the lathe can. -/
structure Spindle.Within {α : Type} (s : Spindle) (lathe : Lathe α) : Prop where
  maxRpm : s.maxRpm ≤ lathe.maxRpm
  rpm : s.rpm ≤ lathe.maxRpm
  css : ∀ css ∈ s.css, css ≤ lathe.maxCss

/-- Neither the speed nor the surface speed is larger, and there is a surface speed on both sides or on
none. -/
structure Spindle.NoFaster (s t : Spindle) : Prop where
  rpm : s.rpm ≤ t.rpm
  css : Option.Rel (· ≤ ·) s.css t.css

namespace CutSettings

variable {α : Type} {s t : CutSettings α}

theorem within_clampedTo (s : CutSettings α) (lathe : Lathe α) :
    (s.clampedTo lathe).spindle.Within lathe where
  maxRpm := Nat.min_le_right _ _
  rpm := (Nat.min_le_right _ _).trans (Nat.min_le_right _ _)
  css := by
    intro css hcss
    obtain ⟨css, -, rfl⟩ := Option.map_eq_some_iff.1 hcss
    exact Nat.min_le_right _ _

theorem noFaster_clampedTo (h : s.spindle.NoFaster t.spindle)
    (hmax : s.spindle.maxRpm = t.spindle.maxRpm) (lathe : Lathe α) :
    (s.clampedTo lathe).spindle.NoFaster (t.clampedTo lathe).spindle where
  rpm := by
    show min s.spindle.rpm (min s.spindle.maxRpm lathe.maxRpm)
      ≤ min t.spindle.rpm (min t.spindle.maxRpm lathe.maxRpm)
    rw [hmax]
    exact min_le_min_right _ h.rpm
  css := by
    show Option.Rel (· ≤ ·) (s.spindle.css.map (min · lathe.maxCss))
      (t.spindle.css.map (min · lathe.maxCss))
    have hcss := h.css
    generalize s.spindle.css = a at hcss ⊢
    generalize t.spindle.css = b at hcss ⊢
    cases hcss with
    | none => exact .none
    | some hle => exact .some (min_le_min_right _ hle)

end CutSettings

/-! ## The reduction for a thin wall -/

namespace Number.Binary64

open Float.Model Float.Model.UnpackedFloat

theorem decode_nineTenths : decode 0.9 = .finite false 8106479329266893 (-53) := by
  decide +kernel

/-- Nine tenths of a whole number, as near as a machine number comes. -/
theorem exists_decode_mul_nineTenths {n : Nat} (hpos : 0 < n) (hn : n < 2 ^ 53) :
    ∃ m e, decode (ofWhole false n * 0.9) = .finite false m e ∧ m < 2 * leadingBit ∧
      (m : Rat) * 2 ^ e ≤ n := by
  obtain ⟨m₁, e₁, h₁, hx, hlow, hhigh, hvalue⟩ := isWhole_ofWhole false hpos hn
  have hy := unpack_of_decode (by decide) decode_nineTenths
  have hone : (1 : Rat) ≤ n := by exact_mod_cast hpos
  have hlarge : (n : Rat) ≤ 2 ^ (53 : Int) := by exact_mod_cast hn.le
  have hrange : InRange (n * (8106479329266893 * 2 ^ (-53 : Int))) := by
    constructor
    · calc (2 : Rat) ^ (-1020 : Int) ≤ 2 ^ (-53 : Int) :=
            zpow_le_zpow_right₀ (by norm_num) (by norm_num)
        _ ≤ n * (8106479329266893 * 2 ^ (-53 : Int)) := by norm_num; linarith
    · calc n * (8106479329266893 * (2 : Rat) ^ (-53 : Int)) ≤ n := by norm_num; linarith
        _ ≤ 2 ^ (53 : Int) := hlarge
        _ ≤ 2 ^ (1020 : Int) := zpow_le_zpow_right₀ (by norm_num) (by norm_num)
  obtain ⟨m, e, hm, hu, hnearest⟩ := isRounded_mul hx hy
    (hlow.trans (Nat.le_mul_of_pos_right m₁ (by decide))) (by rw [hvalue, Nat.cast_ofNat]) hrange
  refine ⟨m, e, ?_, hnearest.high, ?_⟩
  · rw [decode_eq, hu]
    rfl
  · rw [← hvalue]
    refine hnearest.le_of_le hlow hhigh ?_
    rw [hvalue]
    norm_num
    linarith

end Number.Binary64

open Number.Binary64 in
/-- The reduction makes no speed larger. -/
theorem scaleSpeed_nineTenths_le (speed : Nat) : scaleSpeed (0.9 : Float) speed ≤ speed := by
  have hscale (limit : Nat) (x : Float) (h : wholePart x ≤ speed ∨ limit ≤ speed) :
      Scalar.toNatWithin limit x ≤ speed := by
    show (max 0 (min (limit : Int) (wholePart x))).toNat ≤ speed
    omega
  rcases Nat.eq_zero_or_pos speed with rfl | hpos
  · decide +kernel
  · refine hscale _ _ ?_
    rcases le_or_gt Scalar.codeLimit speed with hlarge | hsmall
    · exact .inr hlarge
    · obtain ⟨m, e, hdecode, hhigh, hle⟩ :=
        exists_decode_mul_nineTenths hpos (hsmall.trans (by decide))
      exact .inl (wholePart_round_le hdecode hhigh hle)

namespace CutSetup

/-- Whatever settings a cut is made at, the spindle turns no faster than the lathe can. -/
theorem within_finish {α : Type} [Scalar α] (s : CutSetup α) (settings : CutSettings α) :
    (s.finish settings).spindle.Within s.lathe := CutSettings.within_clampedTo _ _

theorem noFaster_finish (s : CutSetup Float) (settings : CutSettings Float) :
    ({ s with thinLip := true }.finish settings).spindle.NoFaster
      ({ s with thinLip := false }.finish settings).spindle := by
  have hscaled : (settings.scaled 0.7 0.9).spindle.NoFaster settings.spindle := by
    refine ⟨scaleSpeed_nineTenths_le settings.spindle.rpm, ?_⟩
    show Option.Rel (· ≤ ·) (settings.spindle.css.map (scaleSpeed 0.9)) settings.spindle.css
    cases settings.spindle.css with
    | none => exact .none
    | some css => exact .some (scaleSpeed_nineTenths_le css)
  exact CutSettings.noFaster_clampedTo hscaled rfl s.lathe

/-- A thin wall is cut no faster than a thick one. -/
theorem noFaster_settings (s : CutSetup Float) (op : Operation) (diameter depth : Float) :
    ({ s with thinLip := true }.settings op diameter depth).spindle.NoFaster
      ({ s with thinLip := false }.settings op diameter depth).spindle :=
  s.noFaster_finish _

end CutSetup

end SpacerTurning
