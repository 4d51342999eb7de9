import SpacerTurning.Proofs.Check.BoreSteps
import SpacerTurning.Proofs.Number.Fixed

/-!
Cuts that were missing.

The diagnostic of a step that is too wide lists the diameters to cut on the way.  They lie evenly
between the widest cut before it and its own, a step or less apart, and are printed to three places.
With cuts there the bore is opened step by step: whatever is cut before makes the next step smaller.
-/

namespace SpacerTurning

open Number

/-- The diameters that a finding says are missing. -/
def Finding.missing {α : Type} : Finding α → List α
  | .wideStep _ _ _ _ missing => missing
  | _ => []

namespace Bore

/-! ## What is put in -/

/-- A diameter as it is printed, and read again. -/
def printed (d : Rat) : Rat := (Word.read (Scalar.fixed 3 d).toList).getD d

theorem abs_printed_sub_le (d : Rat) : |printed d - d| ≤ 0.0005 := by
  obtain ⟨y, hread, hnear⟩ := Exact.exists_read_fixed (show 0 < 3 by decide) d
  rw [printed, hread, Option.getD_some]
  norm_num at hnear ⊢
  exact hnear

/-- The diameters of cuts, with those before each that its diagnostic lists. -/
def supplied (c : CheckingConstants Rat) (tool : Nat) : Rat → List (BoreCut Rat) → List Rat
  | _, [] => []
  | reached, cut :: rest =>
    ((stepFault? c tool reached cut).toList.flatMap fun d => d.finding.missing.map printed)
      ++ cut.diameter :: supplied c tool (Scalar.larger reached cut.diameter) rest

/-- A block makes the cuts of another one, and before each those that its diagnostic lists. -/
def Supplies (c : CheckingConstants Rat) (b b' : BoreBlock Rat) : Prop :=
  b'.cuts.map (·.diameter) = match b.cuts with
    | [] => []
    | first :: rest => first.diameter :: supplied c b.tool first.diameter rest

/-! ## Steps over the widest cut -/

/-- A cut has a diagnostic if it is wider than the widest one before it by more than a step, and it is
told what is missing then. -/
theorem stepFault?_cases (c : CheckingConstants Rat) (tool : Nat) (reached : Rat) (cut : BoreCut Rat) :
    cut.diameter - reached ≤ c.maxBoreStep + c.stepTolerance ∧ stepFault? c tool reached cut = none ∨
      c.maxBoreStep + c.stepTolerance < cut.diameter - reached ∧ ∃ d,
        stepFault? c tool reached cut = some d ∧ d.severity = .warning ∧
          d.finding.missing = intermediate reached cut.diameter c.maxBoreStep := by
  by_cases hwide : cut.diameter - reached > c.maxBoreStep + c.stepTolerance
  · exact .inr ⟨hwide, _, if_pos hwide, rfl, rfl⟩
  · exact .inl ⟨not_lt.1 hwide, stepFault?_of_le tool (not_lt.1 hwide)⟩

theorem severity_of_mem_stepFaults {c : CheckingConstants Rat} {tool : Nat} {reached : Rat}
    {cuts : List (BoreCut Rat)} {d : Diagnostic Rat} (hd : d ∈ stepFaults c tool reached cuts) :
    d.severity = .warning := by
  induction cuts generalizing reached with
  | nil => cases hd
  | cons cut cuts ih =>
    rcases List.mem_append.1 hd with hd | hd
    · rcases stepFault?_cases c tool reached cut with ⟨-, hnone⟩ | ⟨-, d', hsome, hseverity, -⟩
      · simp [hnone] at hd
      · obtain rfl : d = d' := by simpa [hsome] using hd
        exact hseverity
    · exact ih hd

/-- Evenly spaced diameters, give or take what rounding does to them, are within a step of each other.
They bring the bore to where the rest of the cuts may begin. -/
theorem stepsWithin_points {limit step start reached : Rat} {f : Nat → Rat} {n : Nat} {rest : List Rat}
    (hlimit : step + 0.001 ≤ limit) (hnear : ∀ i < n, |f i - (start + step * (i + 1 : Nat))| ≤ 0.0005)
    (hreached : start - 0.0005 ≤ reached)
    (hrest : ∀ reached', reached ≤ reached' → start + step * n - 0.0005 ≤ reached' →
      StepsWithin limit reached' rest) :
    StepsWithin limit reached ((List.range n).map f ++ rest) := by
  induction n generalizing start reached f with
  | zero => exact hrest reached le_rfl (by simpa using hreached)
  | succ n ih =>
    have hfirst := hnear 0 (Nat.succ_pos n)
    rw [abs_le] at hfirst
    norm_num at hfirst hlimit hreached
    rw [List.range_succ_eq_map, List.map_cons, List.map_map, List.cons_append]
    have hnext : ∀ i < n,
        |(f ∘ Nat.succ) i - (start + step + step * ((i + 1 : Nat) : Rat))| ≤ 0.0005 := by
      intro i hi
      have := hnear (i + 1) (by omega)
      rw [show start + step + step * ((i + 1 : Nat) : Rat) = start + step * ((i + 1 + 1 : Nat) : Rat) by
        push_cast
        ring]
      exact this
    refine ⟨by linarith, ih hnext ?_ fun reached' hle hfar => ?_⟩
    · refine le_trans ?_ (le_max_right _ _)
      norm_num
      linarith
    · refine hrest reached' ((le_max_left _ _).trans hle) (le_trans (le_of_eq ?_) hfar)
      push_cast
      ring

/-! ## The listed diameters -/

/-- The listed diameters divide the gap evenly, into steps that are no wider than the largest one, but
for a millionth of it. -/
theorem exists_intermediate_eq {start target maxStep : Rat} (hmax : 0 < maxStep) (hgap : start < target)
    (hcount : (intermediate start target maxStep).length + 1 < Scalar.countLimit) :
    ∃ (n : Nat) (step : Rat),
      intermediate start target maxStep
        = (List.range n).map (fun i => start + step * (i + 1 : Nat)) ∧
      start + step * (n + 1 : Nat) = target ∧ step ≤ maxStep + maxStep * 0.000001 := by
  have hguard : ¬ (target - start ≤ (Scalar.ofNat 0 : Rat) ∨ maxStep ≤ (Scalar.ofNat 0 : Rat)) := by
    rw [Scalar.zero_rat, not_or, not_le, not_le]
    exact ⟨by linarith, hmax⟩
  obtain ⟨n, hn, hle, hsegments⟩ :=
    Exact.exists_count Scalar.countLimit ((target - start) / maxStep - 0.000001)
  have hlist : intermediate start target maxStep = (List.range (min n Scalar.countLimit - 1)).map
      fun i => start + (target - start) / (min n Scalar.countLimit : Nat) * (i + 1 : Nat) := by
    rw [← hsegments]
    refine (if_neg hguard).trans ?_
    simp only [Scalar.ofNat_rat]
  rw [hlist, List.length_map, List.length_range] at hcount
  have hmin : min n Scalar.countLimit = n := by omega
  rw [hmin] at hlist
  have hpos : (0 : Rat) < n := by exact_mod_cast hn
  refine ⟨n - 1, (target - start) / n, hlist, ?_, ?_⟩
  · rw [Nat.sub_add_cancel hn, div_mul_cancel₀ _ hpos.ne']
    ring
  · have hone : (1 : Rat) ≤ n := by exact_mod_cast hn
    have hsteps : (target - start) / maxStep ≤ n + 0.000001 := by linarith
    rw [div_le_iff₀ hmax] at hsteps
    rw [div_le_iff₀ hpos]
    have hmillionth : maxStep * 0.000001 ≤ maxStep * 0.000001 * n := by
      exact le_mul_of_one_le_right (by positivity) hone
    linarith

/-- With the missing cuts put in there is no step that is too wide, whatever is cut before. -/
theorem stepsWithin_supplied {c : CheckingConstants Rat} (hmax : 0 < c.maxBoreStep)
    (htolerance : 0.001 + c.maxBoreStep * 0.000001 ≤ c.stepTolerance) {tool : Nat}
    {reached reached' : Rat} (hle : reached ≤ reached') {cuts : List (BoreCut Rat)}
    (hcount : (supplied c tool reached cuts).length < Scalar.countLimit) :
    StepsWithin (c.maxBoreStep + c.stepTolerance) reached' (supplied c tool reached cuts) := by
  -- What is listed is found for the cuts that were there.  The cuts put in before may be wider than
  -- those, when they were rounded up, and so the induction keeps both diameters apart.
  induction cuts generalizing reached reached' with
  | nil => trivial
  | cons cut cuts ih =>
    rcases stepFault?_cases c tool reached cut with ⟨hstep, hnone⟩ | ⟨hwide, d, hsome, -, hmissing⟩
    · simp only [supplied, hnone, Option.toList_none, List.flatMap_nil, List.nil_append,
        List.length_cons, Scalar.larger_rat] at hcount ⊢
      exact ⟨by linarith, ih (max_le_max_right _ hle) (by omega)⟩
    · simp only [supplied, hsome, hmissing, Option.toList_some, List.flatMap_singleton,
        List.length_append, List.length_map, List.length_cons, Scalar.larger_rat] at hcount ⊢
      have hgap : reached < cut.diameter := by
        have : 0 < c.maxBoreStep * 0.000001 := by positivity
        linarith
      have hheld : (intermediate reached cut.diameter c.maxBoreStep).length + 1 < Scalar.countLimit := by
        omega
      obtain ⟨n, step, hpoints, htarget, hstep⟩ := exists_intermediate_eq hmax hgap hheld
      rw [hpoints, List.map_map]
      refine stepsWithin_points (by linarith) (fun i _ => abs_printed_sub_le _) (by linarith)
        fun reached'' hbefore hfar => ⟨?_, ih ?_ (by omega)⟩
      · push_cast at htarget
        linarith
      · exact max_le_max_right _ (hle.trans hbefore)

/-! ## Blocks -/

/-- The only finding that is critical is about the first cut. -/
theorem exists_critical_iff {c : CheckingConstants Rat} {b : BoreBlock Rat} :
    (∃ d ∈ checkBlock c b, d.severity = .critical) ↔
      ∃ first ∈ (b.cuts.map (·.diameter)).head?, c.safeEntryDiameter + c.stepTolerance < first := by
  unfold checkBlock
  cases b.cuts with
  | nil => simp
  | cons first rest =>
    have hrest : ∀ d ∈ stepFaults c b.tool first.diameter rest, ¬ d.severity = .critical := by
      intro d hd hcritical
      rw [severity_of_mem_stepFaults hd] at hcritical
      cases hcritical
    have hentry : (∃ d ∈ (entryFault? c b.tool first).toList, d.severity = .critical) ↔
        c.safeEntryDiameter + c.stepTolerance < first.diameter := by
      unfold entryFault?
      split
      · next hwide => exact iff_of_true ⟨_, List.mem_singleton_self _, rfl⟩ hwide
      · next hnarrow => exact iff_of_false (by simp) hnarrow
    simp only [List.mem_append, or_and_right, exists_or, hentry, List.map_cons, List.head?_cons,
      Option.mem_some_iff, exists_eq_left']
    exact or_iff_left fun ⟨d, hd, hcritical⟩ => hrest d hd hcritical

theorem severity_ne_warning_of_stepsWithin {c : CheckingConstants Rat} {b : BoreBlock Rat}
    {first : Rat} {rest : List Rat} (hcuts : b.cuts.map (·.diameter) = first :: rest)
    (h : StepsWithin (c.maxBoreStep + c.stepTolerance) first rest) :
    ∀ d ∈ checkBlock c b, d.severity ≠ .warning := by
  obtain ⟨cut, cuts, hb, rfl, rfl⟩ := List.map_eq_cons_iff.1 hcuts
  intro d hd
  rw [checkBlock, hb] at hd
  simp only [stepFaults_of_stepsWithin h, List.append_nil] at hd
  unfold entryFault? at hd
  split at hd
  · rw [List.mem_singleton.1 hd]
    intro hwarning
    cases hwarning
  · cases hd

/-- A block with the cuts that its diagnostics list has no step that is too wide, and enters the bore
as it did before.  A block has as many cuts as can be counted. -/
theorem checkBlock_supplied {c : CheckingConstants Rat} (hmax : 0 < c.maxBoreStep)
    (htolerance : 0.001 + c.maxBoreStep * 0.000001 ≤ c.stepTolerance) {b b' : BoreBlock Rat}
    (h : Supplies c b b') (hcount : b'.cuts.length ≤ Scalar.countLimit) :
    (∀ d ∈ checkBlock c b', d.severity ≠ .warning) ∧
      ((∃ d ∈ checkBlock c b', d.severity = .critical) ↔
        ∃ d ∈ checkBlock c b, d.severity = .critical) := by
  rw [← List.length_map (·.diameter)] at hcount
  rw [exists_critical_iff, exists_critical_iff]
  unfold Supplies at h
  cases hcuts : b.cuts with
  | nil =>
    rw [hcuts] at h
    have hnone : checkBlock c b' = [] := by rw [checkBlock, List.map_eq_nil_iff.1 h]
    rw [hnone, h]
    simp
  | cons first rest =>
    rw [hcuts] at h
    rw [h, List.length_cons] at hcount
    refine ⟨severity_ne_warning_of_stepsWithin h
      (stepsWithin_supplied hmax htolerance le_rfl hcount), ?_⟩
    rw [h, List.map_cons, List.head?_cons, List.head?_cons]

theorem checkBlock_supplied_thirds :
    let c : CheckingConstants Rat := .standard
    let cut (d : Rat) : BoreCut Rat := { line := 1, diameter := d }
    let b : BoreBlock Rat := { toolLine := 1, tool := 303, cuts := [2.5, 3.2, 3.0, 3.5].map cut }
    let b' : BoreBlock Rat :=
      { toolLine := 1, tool := 303, cuts := [2.5, 2.733, 2.967, 3.2, 3.0, 3.5].map cut }
    (0 < c.maxBoreStep ∧ 0.001 + c.maxBoreStep * 0.000001 ≤ c.stepTolerance ∧ Supplies c b b' ∧
      b'.cuts.length ≤ Scalar.countLimit) ∧
    (checkBlock c b).map (·.severity) = [.critical, .warning] ∧
      (∀ d ∈ checkBlock c b', d.severity ≠ .warning) ∧ ∃ d ∈ checkBlock c b', d.severity = .critical := by
  intro c cut b b'
  have hmax : 0 < c.maxBoreStep := by decide +kernel
  have htolerance : 0.001 + c.maxBoreStep * 0.000001 ≤ c.stepTolerance := by decide +kernel
  have hsupplies : Supplies c b b' :=
    (by decide +kernel : b'.cuts.map (·.diameter)
      = 2.5 :: supplied c 303 2.5 ([3.2, 3.0, 3.5].map cut))
  have hcount : b'.cuts.length ≤ Scalar.countLimit := by decide +kernel
  have hfound : (checkBlock c b).map (·.severity) = [.critical, .warning] := by decide +kernel
  obtain ⟨hsteps, hentry⟩ := checkBlock_supplied hmax htolerance hsupplies hcount
  refine ⟨⟨hmax, htolerance, hsupplies, hcount⟩, hfound, hsteps, hentry.2 ?_⟩
  decide +kernel

end Bore
end SpacerTurning
