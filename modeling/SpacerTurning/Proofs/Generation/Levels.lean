import SpacerTurning.Generation.Hub
import SpacerTurning.Proofs.Number.Exact

/-!
The levels that a hub is roughed at.

Every level is an increment below the one before, until the height of the hub stops them, and each is
rounded for itself.  There are as many as the height asks for, but for a billionth of an increment,
so that rounding is nearly all that the last one can be away from it.
-/

namespace SpacerTurning

open Number Exact

/-- Levels that go from the face down to a depth, by an increment at most, give or take the
rounding. -/
structure CoversHub (increment depth : Rat) (levels : List Rat) : Prop where
  ne_nil : levels ≠ []
  descending : levels.Pairwise (· ≥ ·)
  above : ∀ z ∈ levels, -Scalar.round4 depth ≤ z
  first : ∀ z ∈ levels.head?, -(increment + 0.00005) ≤ z
  drop : levels.IsChain fun z w => z - w ≤ increment + 0.0001
  last : ∀ z ∈ levels.getLast?, |z - -depth| ≤ 0.00005 + increment * 0.000000001

/-- The level that is reached after `n` increments. -/
def hubLevel (height increment : Rat) (n : Nat) : Rat :=
  -Scalar.round4 (min (n * increment) height)

section

variable {height increment depth : Rat}

theorem hubLevel_anti (hincrement : 0 < increment) {m n : Nat} (h : m ≤ n) :
    hubLevel height increment n ≤ hubLevel height increment m := by
  have hle : (m : Rat) * increment ≤ n * increment := by gcongr
  exact neg_le_neg (round4_mono (min_le_min_right _ hle))

theorem hubLevel_sub_le (hincrement : 0 < increment) (n : Nat) :
    hubLevel height increment n - hubLevel height increment (n + 1) ≤ increment + 0.0001 := by
  have hgap : min ((n + 1 : Nat) * increment) height ≤ min (n * increment) height + increment := by
    rw [← min_add_add_right]
    refine min_le_min (le_of_eq ?_) (by linarith)
    push_cast
    ring
  have hround := round4_sub_le (min ((n + 1 : Nat) * increment) height) (min (n * increment) height)
  rw [hubLevel, hubLevel]
  linarith

/-- The levels of a number of increments cover what those reach of the height. -/
theorem coversHub_levels (hincrement : 0 < increment) (n : Nat)
    (hreach : min ((n + 1 : Nat) * increment) height ≤ depth)
    (hnear : depth - increment * 0.000000001 ≤ min ((n + 1 : Nat) * increment) height) :
    CoversHub increment depth
      ((List.range (n + 1)).map fun i => hubLevel height increment (i + 1)) where
  ne_nil := by simp
  descending := List.pairwise_map.2
    (List.pairwise_lt_range.imp fun h => hubLevel_anti hincrement (by omega))
  above := by
    intro z hz
    obtain ⟨i, hi, rfl⟩ := List.mem_map.1 hz
    have hlast : hubLevel height increment (n + 1) ≤ hubLevel height increment (i + 1) :=
      hubLevel_anti hincrement (by have := List.mem_range.1 hi; omega)
    exact (neg_le_neg (round4_mono hreach)).trans hlast
  first := by
    intro z hz
    rw [List.range_succ_eq_map, List.map_cons, List.head?_cons, Option.mem_some_iff] at hz
    have hround := abs_le.1 (abs_round4_sub_le (min ((0 + 1 : Nat) * increment) height))
    have hle := min_le_left ((0 + 1 : Nat) * increment) height
    rw [Nat.zero_add, Nat.cast_one, one_mul] at hround hle
    rw [← hz, hubLevel, Nat.zero_add, Nat.cast_one, one_mul]
    linarith
  drop := by
    rw [List.isChain_map, List.isChain_range]
    exact fun i _ => hubLevel_sub_le hincrement (i + 1)
  last := by
    intro z hz
    rw [List.range_succ, List.map_append, List.map_singleton, List.getLast?_concat,
      Option.mem_some_iff] at hz
    have hround := abs_le.1 (abs_round4_sub_le (min ((n + 1 : Nat) * increment) height))
    rw [← hz, hubLevel, abs_le]
    constructor <;> linarith

/-- How many levels there are: as many as the height asks for, if they can be counted. -/
theorem exists_hubLevels_eq (hheight : 0 < height) (hincrement : 0 < increment) :
    ∃ n : Nat, 0 < n ∧ height - increment * 0.000000001 ≤ n * increment ∧
      hubLevels height increment = (List.range (min n Scalar.countLimit)).map
        fun i => hubLevel height increment (i + 1) := by
  have hguard : ¬ (height ≤ (Scalar.ofNat 0 : Rat) ∨ increment ≤ (Scalar.ofNat 0 : Rat)) := by
    rw [Scalar.zero_rat, not_or, not_le, not_le]
    exact ⟨hheight, hincrement⟩
  obtain ⟨n, hn, hle, hcount⟩ :=
    exists_count Scalar.countLimit (height / increment - 0.000000001)
  refine ⟨n, hn, ?_, ?_⟩
  · have hsteps : height / increment ≤ n + 0.000000001 := by linarith
    rw [div_le_iff₀ hincrement] at hsteps
    linarith
  · rw [← hcount]
    refine (if_neg hguard).trans ?_
    simp only [Scalar.ofNat_rat, Scalar.smaller_rat, hubLevel]

/-- Levels are counted in 64 bits.  They cover a hub as deep as that many increments reach, and all of
it wherever the list of them is shorter than the largest count, as every list in memory is. -/
theorem hubLevels_covers (hheight : 0 < height) (hincrement : 0 < increment) :
    CoversHub increment (min height (Scalar.countLimit * increment)) (hubLevels height increment) ∧
      ((hubLevels height increment).length < Scalar.countLimit →
        CoversHub increment height (hubLevels height increment)) := by
  obtain ⟨n, hn, hnear, hlevels⟩ := exists_hubLevels_eq hheight hincrement
  have hbillionth : 0 < increment * 0.000000001 := by positivity
  obtain ⟨k, hk⟩ : ∃ k, min n Scalar.countLimit = k + 1 := by
    refine Nat.exists_eq_succ_of_ne_zero ?_
    have : 0 < Scalar.countLimit := by decide
    omega
  rw [hlevels, hk]
  constructor
  · have hreach : min ((k + 1 : Nat) * increment) height
        = min (n * increment) (min height (Scalar.countLimit * increment)) := by
      rw [← hk, Nat.cast_min, min_mul_of_nonneg _ _ hincrement.le, min_assoc,
        min_comm (Scalar.countLimit * increment)]
    refine coversHub_levels hincrement k (hreach ▸ min_le_right _ _) ?_
    rw [hreach]
    refine le_min ?_ (by linarith)
    linarith [min_le_left height (Scalar.countLimit * increment)]
  · intro hlength
    rw [List.length_map, List.length_range] at hlength
    have hn : n = k + 1 := by omega
    refine coversHub_levels hincrement k (min_le_right _ _) (le_min ?_ (by linarith))
    rw [← hn]
    exact hnear

end

/-- A hub that is higher than three increments by less than a billionth of one has three levels. -/
theorem hubLevels_covers_near_multiple :
    (0 : Rat) < 0.30000000005 ∧ (0 : Rat) < 0.1 ∧
      hubLevels (0.30000000005 : Rat) 0.1 = [-0.1, -0.2, -0.3] ∧
      CoversHub 0.1 0.30000000005 (hubLevels 0.30000000005 0.1) := by
  have hheight : (0 : Rat) < 0.30000000005 := by decide +kernel
  have hincrement : (0 : Rat) < 0.1 := by decide +kernel
  have hlevels : hubLevels (0.30000000005 : Rat) 0.1 = [-0.1, -0.2, -0.3] := by decide +kernel
  refine ⟨hheight, hincrement, hlevels, (hubLevels_covers hheight hincrement).2 ?_⟩
  rw [hlevels]
  decide

end SpacerTurning
