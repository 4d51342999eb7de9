import Mathlib
import SpacerTurning.Text.Uppercase

/-!
What capitals keep.

Writing a text in capitals neither makes nor removes a character that comes before the letters of
ASCII: a line feed, a parenthesis, a digit.
-/

namespace SpacerTurning
namespace Text

/-- No letter has a capital before the letters of ASCII. -/
theorem le_of_mem_longCapitals : ∀ p ∈ longCapitals, ∀ n ∈ p.2, 65 ≤ n := by
  decide +kernel

theorem le_of_mem_capitalRuns : ∀ r ∈ capitalRuns, 65 ≤ r.capital := by
  decide +kernel

theorem le_of_capitalOf? {r : CapitalRun} (hr : r ∈ capitalRuns) {n m : Nat}
    (h : r.capitalOf? n = some m) : 65 ≤ m := by
  have hbase := le_of_mem_capitalRuns r hr
  unfold CapitalRun.capitalOf? at h
  split at h
  · obtain rfl := Option.some.inj h
    omega
  · simp at h

/-- A number that is no character stands for the character zero. -/
theorem toNat_ofNat_of_le {n : Nat} (h : 65 ≤ n) :
    (Char.ofNat n).toNat = 0 ∨ 65 ≤ (Char.ofNat n).toNat := by
  unfold Char.ofNat
  split
  · exact Or.inr h
  · exact Or.inl rfl

/-- A character beyond ASCII has capitals that come after the digits and the parentheses. -/
theorem le_of_mem_capital {c d : Char} (hc : ¬ c.toNat < 128) (h : d ∈ capital c) :
    d.toNat = 0 ∨ 65 ≤ d.toNat := by
  simp only [capital, hc, if_false] at h
  split at h
  · next ns hns =>
    obtain ⟨n, hn, rfl⟩ := List.mem_map.1 h
    rw [List.lookup_eq_findSome?] at hns
    obtain ⟨p, hp, hns⟩ := List.exists_of_findSome?_eq_some hns
    have hns : p.2 = ns := by simpa using And.right (by simpa using hns)
    exact toNat_ofNat_of_le (le_of_mem_longCapitals p hp n (hns ▸ hn))
  · split at h
    · next m hm =>
      obtain ⟨r, hr, hcap⟩ := List.exists_of_findSome?_eq_some hm
      obtain rfl := List.mem_singleton.1 h
      exact toNat_ofNat_of_le (le_of_capitalOf? hr hcap)
    · obtain rfl := List.mem_singleton.1 h
      omega

theorem toUpper_ascii : ∀ n < 128,
    (Char.ofNat n).toUpper = Char.ofNat n ∨ 65 ≤ n ∧ 65 ≤ (Char.ofNat n).toUpper.toNat := by
  decide +kernel

theorem toUpper_eq_iff {c d : Char} (hc : c.toNat < 128) (hd : d.toNat < 65) :
    c.toUpper = d ↔ c = d := by
  have h := toUpper_ascii c.toNat hc
  rw [Char.ofNat_toNat] at h
  rcases h with h | ⟨hbefore, hafter⟩
  · rw [h]
  · constructor
    · rintro rfl; omega
    · rintro rfl; omega

theorem mem_capital_iff {c d : Char} (hpos : 0 < d.toNat) (hd : d.toNat < 65) :
    d ∈ capital c ↔ c = d := by
  by_cases hc : c.toNat < 128
  · simp only [capital, hc, if_true, List.mem_singleton]
    rw [eq_comm, toUpper_eq_iff hc hd]
  · constructor
    · intro h
      have := le_of_mem_capital hc h
      omega
    · rintro rfl
      omega

theorem mem_capitalize_iff {cs : List Char} {d : Char} (hpos : 0 < d.toNat) (hd : d.toNat < 65) :
    d ∈ capitalize cs ↔ d ∈ cs := by
  simp [capitalize, List.mem_flatMap, mem_capital_iff hpos hd]

/-- Characters of ASCII that are no small letters are their own capitals. -/
theorem capitalize_eq_self {cs : List Char} (h : ∀ c ∈ cs, c.toNat < 128 ∧ c.toUpper = c) :
    capitalize cs = cs := by
  have hone : ∀ c ∈ cs, capital c = [c] := by
    intro c hc
    obtain ⟨hascii, hupper⟩ := h c hc
    rw [capital, if_pos hascii, hupper]
  exact (List.flatMap_congr hone).trans (List.flatMap_singleton' cs)

end Text
end SpacerTurning
