import Mathlib
import SpacerTurning.Part.Basic
import SpacerTurning.Proofs.Number.Exact

/-!
Steps that may refuse.

A run of steps comes to an end when every step of it does, and then each step can be read off.
-/

namespace SpacerTurning

theorem exists_eq_ok {ε β : Type} {x : Except ε β} (h : x.isOk = true) : ∃ b, x = .ok b := by
  cases x with
  | error e => cases h
  | ok b => exact ⟨b, rfl⟩

theorem bind_eq_ok {ε β γ : Type} {x : Except ε β} {f : β → Except ε γ} {c : γ} :
    (x >>= f) = .ok c ↔ ∃ b, x = .ok b ∧ f b = .ok c := by
  cases x with
  | error e => simp [bind, Except.bind]
  | ok b => simp [bind, Except.bind]

theorem bind_eq_error {ε β γ : Type} {x : Except ε β} {f : β → Except ε γ} {e : ε} :
    (x >>= f) = .error e ↔ x = .error e ∨ ∃ b, x = .ok b ∧ f b = .error e := by
  cases x with
  | error e' => simp [bind, Except.bind]
  | ok b => simp [bind, Except.bind]

theorem map_eq_ok {ε β γ : Type} {x : Except ε β} {f : β → γ} {c : γ} :
    x.map f = .ok c ↔ ∃ b, x = .ok b ∧ f b = c := by
  cases x with
  | error e => simp [Except.map]
  | ok b => simp [Except.map]

theorem map_eq_error {ε β γ : Type} {x : Except ε β} {f : β → γ} {e : ε} :
    x.map f = .error e ↔ x = .error e := by
  cases x with
  | error e' => simp [Except.map]
  | ok b => simp [Except.map]

theorem mapError_eq_ok {ε ε' γ : Type} {x : Except ε γ} {f : ε → ε'} {c : γ} :
    x.mapError f = .ok c ↔ x = .ok c := by
  cases x with
  | error e => simp [Except.mapError]
  | ok b => simp [Except.mapError]

theorem demand_eq_ok {ε : Type} {b : Bool} {e : ε} {u : Unit} : demand b e = .ok u ↔ b = true := by
  cases b <;> simp [demand]

theorem demand_eq_error {ε : Type} {b : Bool} {e e' : ε} :
    demand b e = .error e' ↔ b = false ∧ e = e' := by
  cases b <;> simp [demand]

theorem mapM_eq_ok {ε β γ : Type} {f : β → Except ε γ} {bs : List β} {cs : List γ} :
    bs.mapM f = .ok cs ↔ bs.map f = cs.map .ok := by
  induction bs generalizing cs with
  | nil =>
    cases cs with
    | nil => simp [pure, Except.pure]
    | cons c cs => simp [pure, Except.pure]
  | cons b bs ih =>
    rw [List.mapM_cons, bind_eq_ok]
    simp only [bind_eq_ok, ih, pure, Except.pure, Except.ok.injEq, List.map_cons]
    constructor
    · rintro ⟨c, hc, cs', hcs, rfl⟩
      rw [hc, hcs]
      rfl
    · intro h
      cases cs with
      | nil => cases h
      | cons c cs =>
        obtain ⟨hc, hcs⟩ := List.cons.inj h
        exact ⟨c, hc, cs, hcs, rfl⟩

/-- Steps that end at a refusal have a step that refuses so. -/
theorem exists_of_mapM_eq_error {ε β γ : Type} {f : β → Except ε γ} {bs : List β} {e : ε}
    (h : bs.mapM f = .error e) : ∃ b ∈ bs, f b = .error e := by
  induction bs with
  | nil => cases h
  | cons b bs ih =>
    rw [List.mapM_cons, bind_eq_error] at h
    rcases h with h | ⟨c, -, h⟩
    · exact ⟨b, List.mem_cons_self, h⟩
    · rcases bind_eq_error.1 h with h | ⟨cs, -, h⟩
      · obtain ⟨b', hb', hrefuses⟩ := ih h
        exact ⟨b', List.mem_cons_of_mem _ hb', hrefuses⟩
      · cases h

theorem exists_mapM_eq_ok {ε β γ : Type} {f : β → Except ε γ} {bs : List β} :
    (∃ cs, bs.mapM f = .ok cs) ↔ ∀ b ∈ bs, ∃ c, f b = .ok c := by
  induction bs with
  | nil => simp [pure, Except.pure]
  | cons b bs ih =>
    simp only [List.mapM_cons, bind_eq_ok, List.forall_mem_cons, ← ih]
    constructor
    · rintro ⟨_, c, hc, cs, hcs, -⟩
      exact ⟨⟨c, hc⟩, cs, hcs⟩
    · rintro ⟨⟨c, hc⟩, cs, hcs⟩
      exact ⟨c :: cs, c, hc, cs, hcs, rfl⟩

variable {α : Type} [Scalar α]

theorem demandLength_eq_ok {dimension : Dimension} {x y : α} :
    demandLength dimension x = .ok y ↔ isLength x = true ∧ x = y := by
  unfold demandLength
  split
  · next h => simp [h]
  · next h => simp [h]

/-- The exact lengths are the numbers above zero. -/
theorem isLength_rat {x : Rat} : isLength x = true ↔ 0 < x := by
  rw [isLength, Bool.and_eq_true, Bool.not_eq_true', decide_eq_false_iff_not]
  exact ⟨fun h => Scalar.not_le_zero_rat.1 h.2, fun h => ⟨rfl, Scalar.not_le_zero_rat.2 h⟩⟩

namespace Part

variable {part : Part α}

theorem checkHub_eq_ok {hub : Hub α} {u : Unit} :
    part.checkHub hub = .ok u ↔
      isLength hub.height = true ∧ ¬ hub.diameter ≤ part.bore ∧ ¬ hub.diameter ≥ part.round := by
  simp [checkHub, bind_eq_ok, demandLength_eq_ok, demand_eq_ok]

/-- A part passes its check when its lengths are lengths, and there is a wall on either side of its bore
and of its hub. -/
theorem check_eq_ok :
    part.check = .ok () ↔
      isLength part.round = true ∧ isLength part.thickness.inches = true ∧
        isLength part.boreMm = true ∧ isLength part.bore = true ∧ ¬ part.bore ≥ part.round ∧
        (∀ hub, part.variant.hub? = some hub →
          isLength hub.height = true ∧ ¬ hub.diameter ≤ part.bore ∧ ¬ hub.diameter ≥ part.round) ∧
        ∀ shelf, part.variant.counterbore? = some shelf → isLength shelf.depth = true := by
  unfold check
  cases part.variant.hub? with
  | none =>
    cases part.variant.counterbore? with
    | none => simp [bind_eq_ok, demandLength_eq_ok, demand_eq_ok]
    | some shelf =>
      simp [bind_eq_ok, demandLength_eq_ok, demand_eq_ok, -bind_pure_comp, pure, Except.pure]
  | some hub =>
    cases part.variant.counterbore? with
    | none => simp [bind_eq_ok, checkHub_eq_ok, demandLength_eq_ok, demand_eq_ok]
    | some shelf =>
      simp [bind_eq_ok, checkHub_eq_ok, demandLength_eq_ok, demand_eq_ok, -bind_pure_comp, pure,
        Except.pure, and_assoc]

end Part

end SpacerTurning
