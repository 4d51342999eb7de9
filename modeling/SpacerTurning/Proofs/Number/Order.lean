import SpacerTurning.Proofs.Number.Packing

/-!
The order of machine numbers.

Numbers that are comparable are compared by their kind, then by the exponent and then by the mantissa,
the other way round below zero.  So the order is the order of their ranks.
-/

namespace SpacerTurning
namespace Number
namespace Binary64

open Float.Model Float.Model.UnpackedFloat

/-- The place of a number in the order; there is none for no number. -/
def rank? : UnpackedFloat → Option (Int ×ₗ Int ×ₗ Int)
  | .notANumber => none
  | .infinity .positive => some (toLex (2, toLex (0, 0)))
  | .infinity .negative => some (toLex (-2, toLex (0, 0)))
  | .zero _ => some (toLex (0, toLex (0, 0)))
  | .finite .positive m e _ => some (toLex (1, toLex (e, (m : Int))))
  | .finite .negative m e _ => some (toLex (-1, toLex (-e, -(m : Int))))

theorem isLE_then_compare {e₁ e₂ : Int} {m₁ m₂ : Nat} :
    ((compare e₁ e₂).then (compare m₁ m₂)).isLE = true ↔ e₁ < e₂ ∨ e₁ = e₂ ∧ m₁ ≤ m₂ := by
  rw [Ordering.isLE_then_iff_or]
  simp only [Int.compare_eq_lt, Int.compare_eq_eq, Nat.isLE_compare]

theorem swap_then_compare (e₁ e₂ : Int) (m₁ m₂ : Nat) :
    ((compare e₁ e₂).then (compare m₁ m₂)).swap = (compare e₂ e₁).then (compare m₂ m₁) := by
  rw [Ordering.swap_then, Int.compare_swap, Nat.compare_swap]

/-- The kinds settle the order, except between two finite numbers of one sign. -/
theorem le_iff {a b : UnpackedFloat} :
    a.le b = true ↔ ∃ p q, rank? a = some p ∧ rank? b = some q ∧ p ≤ q := by
  rcases a with (_ | _) | _ | _ | ⟨_ | _, m₁, e₁⟩ <;>
    rcases b with (_ | _) | _ | _ | ⟨_ | _, m₂, e₂⟩ <;>
    simp [UnpackedFloat.le, UnpackedFloat.compare, rank?, Prod.Lex.toLex_le_toLex,
      swap_then_compare, isLE_then_compare] <;>
    first | rfl | omega

theorem beq_iff {a b : UnpackedFloat} :
    a.beq b = true ↔ ∃ p, rank? a = some p ∧ rank? b = some p := by
  rcases a with (_ | _) | _ | _ | ⟨_ | _, m₁, e₁⟩ <;>
    rcases b with (_ | _) | _ | _ | ⟨_ | _, m₂, e₂⟩ <;>
    simp [UnpackedFloat.beq, UnpackedFloat.compare, rank?, swap_then_compare] <;>
    first | rfl | omega

theorem lt_iff {a b : UnpackedFloat} :
    a.lt b = true ↔ ∃ p q, rank? a = some p ∧ rank? b = some q ∧ p < q := by
  have hsplit : a.lt b = true ↔ a.le b = true ∧ ¬ a.beq b = true := by
    unfold UnpackedFloat.lt UnpackedFloat.le UnpackedFloat.beq
    rcases a.compare b with _ | _ | _ | _ <;> decide
  rw [hsplit, le_iff, beq_iff]
  constructor
  · rintro ⟨⟨p, q, hp, hq, hle⟩, hne⟩
    exact ⟨p, q, hp, hq, lt_of_le_of_ne hle fun heq => hne ⟨p, hp, heq ▸ hq⟩⟩
  · rintro ⟨p, q, hp, hq, hlt⟩
    refine ⟨⟨p, q, hp, hq, hlt.le⟩, ?_⟩
    rintro ⟨r, hp', hq'⟩
    rw [hp'] at hp
    rw [hq'] at hq
    exact hlt.ne (Option.some.inj (hp.symm.trans hq))

/-! ## Comparisons of machine numbers -/

theorem float_le_iff {x y : Float} : x ≤ y ↔
    ∃ p q, rank? x.toModel.unpack = some p ∧ rank? y.toModel.unpack = some q ∧ p ≤ q := by
  rw [← le_iff]
  exact decide_eq_true_iff

theorem float_beq_iff {x y : Float} : (x == y) = true ↔
    ∃ p, rank? x.toModel.unpack = some p ∧ rank? y.toModel.unpack = some p :=
  beq_iff

theorem float_le_trans {x y z : Float} (hxy : x ≤ y) (hyz : y ≤ z) : x ≤ z := by
  obtain ⟨p, q, hp, hq, hpq⟩ := float_le_iff.1 hxy
  obtain ⟨q', r, hq', hr, hqr⟩ := float_le_iff.1 hyz
  obtain rfl : q = q' := Option.some.inj (hq.symm.trans hq')
  exact float_le_iff.2 ⟨p, r, hp, hr, hpq.trans hqr⟩

theorem float_lt_iff {x y : Float} : x < y ↔
    ∃ p q, rank? x.toModel.unpack = some p ∧ rank? y.toModel.unpack = some q ∧ p < q := by
  rw [← lt_iff]
  exact decide_eq_true_iff

theorem float_lt_congr_left {x x' y : Float} (h : (x == x') = true) : x < y ↔ x' < y := by
  obtain ⟨p, hp, hp'⟩ := float_beq_iff.1 h
  rw [float_lt_iff, float_lt_iff, hp, hp']

theorem float_lt_congr_right {x y y' : Float} (h : (y == y') = true) : x < y ↔ x < y' := by
  obtain ⟨p, hp, hp'⟩ := float_beq_iff.1 h
  rw [float_lt_iff, float_lt_iff, hp, hp']

theorem float_le_of_beq {x y : Float} (h : (x == y) = true) : y ≤ x := by
  obtain ⟨p, hx, hy⟩ := float_beq_iff.1 h
  exact float_le_iff.2 ⟨p, p, hy, hx, le_rfl⟩

/-- The kinds in the middle are the finite ones. -/
theorem isFinite_of_rank? {u : UnpackedFloat} {p : Int ×ₗ Int ×ₗ Int} (h : rank? u = some p) :
    u.isFinite = decide ((ofLex p).1.natAbs < 2) := by
  rcases u with (_ | _) | _ | _ | ⟨_ | _, m, e⟩ <;> cases h <;> rfl

theorem exists_rank?_of_isFinite {u : UnpackedFloat} (h : u.isFinite = true) :
    ∃ p, rank? u = some p := by
  rcases u with (_ | _) | _ | _ | ⟨_ | _, m, e⟩ <;> first | exact ⟨_, rfl⟩ | cases h

theorem float_isFinite_of_beq {x y : Float} (h : (x == y) = true) (hfinite : x.isFinite = true) :
    y.isFinite = true := by
  obtain ⟨p, hx, hy⟩ := float_beq_iff.1 h
  have hp := isFinite_of_rank? hx
  rw [← isFinite_of_rank? hy] at hp
  exact hp.symm.trans hfinite

theorem float_beq_of_unpack {x y : Float} (h : x.toModel.unpack = y.toModel.unpack)
    (hfinite : x.toModel.unpack.isFinite = true) : (x == y) = true := by
  obtain ⟨p, hp⟩ := exists_rank?_of_isFinite hfinite
  exact float_beq_iff.2 ⟨p, hp, h ▸ hp⟩

/-! ## The sign against zero -/

/-- A number is equal to zero if it is a zero. -/
def IsZero (x : Float) : Prop := ∃ s, x.toModel.unpack = .zero s

theorem beq_of_isZero {x y : Float} (hx : IsZero x) (hy : IsZero y) : (x == y) = true := by
  obtain ⟨s, hx⟩ := hx
  obtain ⟨t, hy⟩ := hy
  rw [float_beq_iff, hx, hy]
  exact ⟨_, rfl, rfl⟩

theorem isZero_of_beq {x y : Float} (h : (x == y) = true) (hy : IsZero y) : IsZero x := by
  obtain ⟨p, hx, hp⟩ := float_beq_iff.1 h
  obtain ⟨s, hy⟩ := hy
  rw [hy] at hp
  cases hp
  generalize hu : x.toModel.unpack = u at hx
  rcases u with (_ | _) | _ | _ | ⟨_ | _, m, e⟩ <;> first | exact ⟨_, hu⟩ | cases hx

theorem isZero_neg {x : Float} (hx : IsZero x) : IsZero (-x) := by
  obtain ⟨s, hx⟩ := hx
  refine ⟨-s, ?_⟩
  change (pack x.toModel.unpack.neg).unpack = _
  rw [hx, UnpackedFloat.neg, unpack_pack_zero]

theorem isZero_magnitude {x : Float} (h : IsZero x) : IsZero (Scalar.magnitude x) := by
  change IsZero (if x.toBits.toNat / 2 ^ (63 : Nat) % 2 = 1 then -x else x)
  split
  · exact isZero_neg h
  · exact h

/-- A zero of either sign takes nothing away, but for the sign of a zero. -/
theorem sub_of_isZero (x : Float) {a b : Float} (ha : IsZero a) (hb : IsZero b) :
    x - a = x - b ∨ (IsZero (x - a) ∧ IsZero (x - b)) := by
  obtain ⟨s, ha⟩ := ha
  obtain ⟨t, hb⟩ := hb
  have hsub (y : Float) : x - y
      = .ofModel (pack (UnpackedFloat.sub .binary64 x.toModel.unpack y.toModel.unpack)) := rfl
  have hzero (r s : Sign) :
      IsZero (.ofModel (pack (UnpackedFloat.sub .binary64 (.zero r) (.zero s)))) := by
    obtain ⟨q, hq⟩ : ∃ q, UnpackedFloat.sub .binary64 (.zero r) (.zero s) = .zero q := by
      cases r <;> cases s <;> exact ⟨_, rfl⟩
    exact ⟨q, by rw [hq, unpack_pack_zero]⟩
  rw [hsub a, hsub b, ha, hb]
  generalize x.toModel.unpack = u
  rcases u with r | _ | r | ⟨r, m, e⟩
  · exact Or.inl rfl
  · exact Or.inl rfl
  · exact Or.inr ⟨hzero r s, hzero r t⟩
  · exact Or.inl rfl

/-- The sign of a number tells on which side of zero it is. -/
theorem exists_rank?_of_signOf? {u : UnpackedFloat} {s : Sign} (h : signOf? u = some s) :
    ∃ p, rank? u = some p ∧ match s with
      | .negative => p ≤ toLex (0, toLex (0, 0))
      | .positive => toLex (0, toLex (0, 0)) ≤ p := by
  rcases u with (_ | _) | _ | (_ | _) | ⟨_ | _, m, e⟩ <;> cases h <;>
    simp [rank?, Prod.Lex.toLex_le_toLex]

theorem le_zero_of_negative {x y : Float} (hx : signOf? x.toModel.unpack = some .negative)
    (hy : IsZero y) : x ≤ y := by
  obtain ⟨p, hp, hside⟩ := exists_rank?_of_signOf? hx
  obtain ⟨s, hy⟩ := hy
  exact float_le_iff.2 ⟨p, _, hp, by rw [hy]; rfl, hside⟩

theorem zero_le_of_positive {x y : Float} (hx : signOf? x.toModel.unpack = some .positive)
    (hy : IsZero y) : y ≤ x := by
  obtain ⟨p, hp, hside⟩ := exists_rank?_of_signOf? hx
  obtain ⟨s, hy⟩ := hy
  exact float_le_iff.2 ⟨_, p, by rw [hy]; rfl, hp, hside⟩

end Binary64
end Number
end SpacerTurning
