import SpacerTurning.Cutting.Boring
import SpacerTurning.Proofs.Number.Exact

/-!
Where the roughing loop ends.

The loop goes from diameter to diameter until the next one would reach the target.  `Roughs` is the
loop itself, with nothing that bounds its turns.  A turn that does not get on is followed by others
that do not, and one that gets on does so by a ten-thousandth and is followed by others that do.  So
the first turn tells whether the loop ends, and a loop that ends takes no more turns than there are
ten-thousandths on the way.  The fuel of the listed passes pays for those: they are the passes of the
loop where it ends, and there are none where it does not.
-/

namespace SpacerTurning
namespace Boring

open Number Exact

/-- The loop run from a diameter until it stops, with the diameters that it takes on the way. -/
inductive Roughs {α : Type} [Scalar α] (step target : α) : α → List α → Prop where
  | stop {current : α} : Scalar.round4 (current + step) ≥ target - epsilon →
    Roughs step target current []
  | turn {current : α} {ds : List α} : ¬ Scalar.round4 (current + step) ≥ target - epsilon →
    Roughs step target (Scalar.round4 (current + step)) ds →
    Roughs step target current (Scalar.round4 (current + step) :: ds)

section

variable {α : Type} [Scalar α] {step target current : α} {ds es : List α}

/-- There is one way only that the loop can go. -/
theorem Roughs.unique (h : Roughs step target current ds) (h' : Roughs step target current es) :
    es = ds := by
  induction h generalizing es with
  | stop hstop =>
    cases h' with
    | stop => rfl
    | turn hgo => exact absurd hstop hgo
  | turn hgo _ ih =>
    cases h' with
    | stop hstop => exact absurd hstop hgo
    | turn _ hrest => rw [ih hrest]

/-- What is listed with fuel to spare is what the loop takes. -/
theorem roughs_of_roughing {fuel : Nat} (h : roughing step target fuel current = some ds) :
    Roughs step target current ds := by
  induction fuel generalizing current ds with
  | zero => cases h
  | succ fuel ih =>
    rw [roughing] at h
    by_cases hstop : Scalar.round4 (current + step) ≥ target - epsilon
    · rw [if_pos hstop] at h
      obtain rfl := Option.some.inj h
      exact .stop hstop
    · rw [if_neg hstop] at h
      obtain ⟨rest, hrest, rfl⟩ := Option.map_eq_some_iff.1 h
      exact .turn hstop (ih hrest)

end

/-! ## Turns over exact numbers -/

theorem epsilon_rat : (epsilon : Rat) = 1 / 1000000 := by
  simp only [epsilon]
  norm_num

theorem epsilon_pos : (0 : Rat) < epsilon := by
  rw [epsilon_rat]
  norm_num

section

variable {step target current : Rat} {ds : List Rat}

theorem le_next (step current : Rat) :
    current + (step - 1 / 20000) ≤ Scalar.round4 (current + step) := by
  have h := abs_round4_sub_le (current + step)
  rw [abs_le] at h
  linarith

theorem next_le : (Scalar.round4 (current + step) : Rat) ≤ current + (step + 1 / 20000) := by
  have h := abs_round4_sub_le (current + step)
  rw [abs_le] at h
  linarith

/-- A turn that gets on is followed by one that gets on. -/
theorem next_lt_next (hcurrent : IsPlaced current)
    (h : current < Scalar.round4 (current + step)) :
    (Scalar.round4 (current + step) : Rat)
      < Scalar.round4 (Scalar.round4 (current + step) + step) := by
  have hgap : IsPlaced (Scalar.round4 (current + step) + -current) :=
    (isPlaced_round4 _).add hcurrent.neg
  have hshift := round4_add_le hgap (by linarith) (current + step)
  have hnext : current + step + (Scalar.round4 (current + step) + -current)
      = Scalar.round4 (current + step) + step := by ring
  rw [hnext] at hshift
  linarith

/-- From a diameter that is not below zero, a step of half a ten-thousandth gets on. -/
theorem lt_next_iff (hcurrent : IsPlaced current) (hzero : 0 ≤ current) :
    current < Scalar.round4 (current + step) ↔ 1 / 20000 ≤ step := by
  rw [← not_le, round4_le_iff hcurrent hzero]
  constructor <;> intro h <;> linarith

namespace Roughs

/-- A loop that does not get on never stops. -/
theorem lt_next (h : Roughs step target current ds)
    (hgo : ¬ Scalar.round4 (current + step) ≥ target - epsilon) :
    current < Scalar.round4 (current + step) := by
  by_contra hback
  induction h with
  | stop hstop => exact hgo hstop
  | @turn current ds _ _ ih =>
    -- rounding keeps the order, so from a smaller diameter the loop gets no further
    have hnext : (Scalar.round4 (Scalar.round4 (current + step) + step) : Rat)
        ≤ Scalar.round4 (current + step) := round4_mono (by linarith [not_lt.1 hback])
    exact ih (fun hstop => hgo (ge_trans hnext hstop)) (not_lt.2 hnext)

theorem isChain (h : Roughs step target current ds) : (current :: ds).IsChain (· < ·) := by
  induction h with
  | stop => exact .singleton _
  | turn hgo hrest ih => exact .cons_cons ((Roughs.turn hgo hrest).lt_next hgo) ih

/-- Whatever the step, roughing stays under the target. -/
theorem of_mem (h : Roughs step target current ds) {d : Rat} (hd : d ∈ ds) :
    IsPlaced d ∧ d < target := by
  induction h with
  | stop => cases hd
  | turn hgo _ ih =>
    rcases List.mem_cons.1 hd with rfl | hd
    · have hbelow := not_le.1 hgo
      exact ⟨isPlaced_round4 _, by linarith [epsilon_pos]⟩
    · exact ih hd

/-- The last diameter is one that the loop stops at. -/
theorem reaches (h : Roughs step target current ds) :
    Scalar.round4 (ds.getLastD current + step) ≥ target - epsilon := by
  induction h with
  | stop hstop => exact hstop
  | turn _ _ ih =>
    rw [List.getLastD_cons]
    exact ih

/-- The turns of the loop fit between where it is and the target. -/
theorem length_mul_le (h : Roughs step target current ds) :
    ds.length * (step - 1 / 20000) ≤ max 0 (target - current) := by
  induction h with
  | stop => simp
  | @turn current ds hgo _ ih =>
    have hnext := le_next step current
    have hahead : (0 : Rat) ≤ target - Scalar.round4 (current + step) := by
      linarith [not_le.1 hgo, epsilon_pos]
    rw [max_eq_right hahead] at ih
    refine le_trans ?_ (le_max_right _ _)
    rw [List.length_cons]
    push_cast
    linarith

end Roughs

/-- The loop ends if its first turn gets on: each turn then leaves fewer ten-thousandths to go. -/
theorem exists_roughs_of_lt_next (hcurrent : IsPlaced current)
    (h : current < Scalar.round4 (current + step)) : ∃ ds, Roughs step target current ds := by
  obtain ⟨turns, hturns⟩ := exists_nat_gt ((target - current) * 10000)
  induction turns generalizing current with
  | zero =>
    rw [Nat.cast_zero] at hturns
    exact ⟨[], .stop (by linarith [epsilon_pos])⟩
  | succ turns ih =>
    by_cases hstop : Scalar.round4 (current + step) ≥ target - epsilon
    · exact ⟨[], .stop hstop⟩
    · have hcell := hcurrent.le_sub (isPlaced_round4 (current + step)) h
      push_cast at hturns
      obtain ⟨ds, hds⟩ := ih (isPlaced_round4 _) (next_lt_next hcurrent h) (by linarith)
      exact ⟨_, .turn hstop hds⟩

/-- The loop ends exactly if its first turn reaches the target or gets on. -/
theorem exists_roughs_iff (hcurrent : IsPlaced current) :
    (∃ ds, Roughs step target current ds) ↔
      Scalar.round4 (current + step) ≥ target - epsilon ∨
        current < Scalar.round4 (current + step) := by
  constructor
  · rintro ⟨ds, h⟩
    by_cases hstop : Scalar.round4 (current + step) ≥ target - epsilon
    · exact .inl hstop
    · exact .inr (h.lt_next hstop)
  · rintro (hstop | hgo)
    · exact ⟨[], .stop hstop⟩
    · exact exists_roughs_of_lt_next hcurrent hgo

/-! ## The fuel of a plan -/

/-- A loop that ends is listed to its end. -/
theorem Roughs.roughing_eq (h : Roughs step target current ds) (hcurrent : IsPlaced current)
    {fuel : Nat} (hpos : 0 < fuel) (hfuel : (target - current) * 10000 < fuel) :
    roughing step target fuel current = some ds := by
  induction h generalizing fuel with
  | stop hstop =>
    cases fuel with
    | zero => cases hpos
    | succ fuel => rw [roughing, if_pos hstop]
  | @turn current ds hgo hrest ih =>
    have hahead := (Roughs.turn hgo hrest).lt_next hgo
    have hcell := hcurrent.le_sub (isPlaced_round4 (current + step)) hahead
    have hbelow := not_le.1 hgo
    cases fuel with
    | zero => cases hpos
    | succ fuel =>
      push_cast at hfuel
      have hleft : (0 : Rat) < fuel := by linarith [epsilon_pos]
      rw [roughing, if_neg hgo, ih (isPlaced_round4 _) (by exact_mod_cast hleft) (by linarith)]
      rfl

theorem lt_roughingFuel (htarget : IsPlaced target) (hcurrent : IsPlaced current) :
    (target - current) * 10000 < roughingFuel target current := by
  obtain ⟨m, rfl⟩ := htarget
  obtain ⟨n, rfl⟩ := hcurrent
  have hdiff : ((m : Rat) / 10000 - n / 10000) * 10000 = ((m - n : Int) : Rat) := by
    push_cast
    ring
  have hcount : roughingFuel ((m : Rat) / 10000) (n / 10000)
      = (Scalar.wholePart (((m - n : Int)) : Rat)).toNat + 2 := by
    rw [← hdiff, ← Nat.cast_ofNat (R := Rat) (n := 10000), ← Scalar.ofNat_rat]
    rfl
  have hwhole : Scalar.wholePart (((m - n : Int)) : Rat) = m - n := by
    change ((m - n : Int) : Rat).num.tdiv ((m - n : Int) : Rat).den = m - n
    rw [Rat.num_intCast, Rat.den_intCast]
    simp
  have hfuel : (m - n : Int) < roughingFuel ((m : Rat) / 10000) (n / 10000) := by
    rw [hcount, hwhole]
    omega
  rw [hdiff]
  exact_mod_cast hfuel

end

variable {c : CuttingConstants Rat} {start target : Rat} {ds : List Rat}

/-- Roughing from one diameter to another comes to an end. -/
def RoughingEnds (c : CuttingConstants Rat) (start target : Rat) : Prop :=
  ∃ ds, Roughs c.maxBoreStep (Scalar.round4 target) (Scalar.round4 start) ds

theorem roughDiameters_eq_ok_iff : roughDiameters c start target = .ok ds ↔
    Roughs c.maxBoreStep (Scalar.round4 target) (Scalar.round4 start) ds := by
  unfold roughDiameters
  dsimp only
  constructor
  · intro h
    split at h
    · next hfound =>
      cases h
      exact roughs_of_roughing hfound
    · cases h
  · intro h
    have hfuel := lt_roughingFuel (isPlaced_round4 target) (isPlaced_round4 start)
    rw [h.roughing_eq (isPlaced_round4 start) (by unfold roughingFuel; omega) hfuel]

theorem roughDiameters_eq_endless_iff :
    roughDiameters c start target = .error .endless ↔ ¬ RoughingEnds c start target := by
  simp only [RoughingEnds, ← roughDiameters_eq_ok_iff, not_exists]
  unfold roughDiameters
  dsimp only
  split <;> simp

/-- A step of more than half a ten-thousandth is not rounded away, wherever the loop starts. -/
theorem roughingEnds_of_step (hstep : 1 / 20000 < c.maxBoreStep) (start target : Rat) :
    RoughingEnds c start target :=
  exists_roughs_of_lt_next (isPlaced_round4 start)
    (by linarith [le_next c.maxBoreStep (Scalar.round4 start)])

/-- From a start that is not below zero, a smaller step gets nowhere: the loop ends only where there
is nothing to open. -/
theorem roughingEnds_iff_of_pos (hstep : 0 < c.maxBoreStep) (hstart : 0 ≤ start)
    (hforward : start ≤ target) : RoughingEnds c start target ↔
      1 / 20000 ≤ c.maxBoreStep ∨ (Scalar.round4 start : Rat) = Scalar.round4 target := by
  have hplaced : IsPlaced (Scalar.round4 start : Rat) := isPlaced_round4 start
  have hle : (Scalar.round4 start : Rat) ≤ Scalar.round4 target := round4_mono hforward
  have hzero : (0 : Rat) ≤ Scalar.round4 start := by
    have hplaced : IsPlaced 0 := ⟨0, by norm_num⟩
    rw [← hplaced.round4]
    exact round4_mono hstart
  rw [RoughingEnds, exists_roughs_iff hplaced, lt_next_iff hplaced hzero]
  constructor
  · rintro (hreach | hgo)
    · by_contra! hstuck
      have hnext := (round4_le_iff hplaced hzero).2
        (by linarith [hstuck.1] :
          Scalar.round4 start + c.maxBoreStep < Scalar.round4 start + 1 / 20000)
      have hgap := hplaced.le_sub (isPlaced_round4 target) (lt_of_le_of_ne hle hstuck.2)
      rw [epsilon_rat] at hreach
      linarith
    · exact .inl hgo
  · rintro (hgo | heq)
    · exact .inr hgo
    · left
      have hnext : (Scalar.round4 (Scalar.round4 start) : Rat)
          ≤ Scalar.round4 (Scalar.round4 start + c.maxBoreStep) := round4_mono (by linarith)
      rw [hplaced.round4] at hnext
      linarith [epsilon_pos]

end Boring
end SpacerTurning
