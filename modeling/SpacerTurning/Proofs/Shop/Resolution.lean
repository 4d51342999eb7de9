import SpacerTurning.Proofs.Check.Feasibility
import SpacerTurning.Settings.Config

/-!
Lathes for a round size.

The records of the standards and the envelopes made from them name the same lathes for a round size.  A
part on one of these lathes is checked against the first record of the lathe only.  So the lathes that
are named are those whose record runs the size exactly when no record behind another one of its lathe
runs it.
-/

namespace SpacerTurning

section

variable {α : Type}

/-- Every lathe has exactly one envelope. -/
def Lathes.HoldsEach (base : Lathes α) : Prop := ∀ id, (base.map (·.id)).count id = 1

theorem Lathes.HoldsEach.exists_get? {base : Lathes α} (h : base.HoldsEach) (id : LatheId) :
    ∃ lathe, base.get? id = some lathe ∧ lathe.id = id := by
  have hcount : 0 < (base.map (·.id)).count id := by rw [h id]; exact Nat.one_pos
  obtain ⟨lathe, hlathe, hid⟩ := List.mem_map.1 (List.count_pos_iff.1 hcount)
  have hsome : (base.get? id).isSome = true :=
    List.find?_isSome.2 ⟨lathe, hlathe, decide_eq_true hid⟩
  obtain ⟨found, hfound⟩ := Option.isSome_iff_exists.1 hsome
  exact ⟨found, hfound, of_decide_eq_true
    (List.find?_some (p := fun lathe : Lathe α => decide (lathe.id = id)) hfound)⟩

namespace Standards

variable {s : Standards α} {id : LatheId} {r : LatheRecord α}

theorem mem_of_get? (h : s.get? id = some r) : r ∈ s.records ∧ r.lathe = id :=
  ⟨List.mem_of_find?_eq_some h, of_decide_eq_true
    (List.find?_some (p := fun a : LatheRecord α => decide (a.lathe = id)) h)⟩

theorem exists_get?_of_mem (h : r ∈ s.records) : ∃ first, s.get? r.lathe = some first := by
  apply Option.isSome_iff_exists.1
  exact List.find?_isSome.2 ⟨r, h, decide_eq_true rfl⟩

variable [Scalar α] {round : α}

/-- No record behind another one of its lathe runs the size. -/
def RunsOnFirst (s : Standards α) (round : α) : Prop :=
  s.records.Pairwise fun a b => a.lathe = b.lathe → b.supportsRound round = false

/-- Each lathe that is named is named once, and those are named whose record runs the size. -/
def NamesRecorded (s : Standards α) (round : α) : Prop :=
  (s.forRound round).toList.Nodup ∧
    ∀ id, id ∈ (s.forRound round).toList ↔
      ∃ r, s.get? id = some r ∧ r.supportsRound round = true

/-- An envelope has the round sizes of its record, so both are found for the same ones. -/
theorem forRound_lathes {base : Lathes α} (hbase : base.HoldsEach) (round : α) :
    (s.lathes base).forRound round = s.forRound round := by
  obtain ⟨records⟩ := s
  show LatheMatch.ofList _ = LatheMatch.ofList _
  congr 1
  induction records with
  | nil => rfl
  | cons r rest ih =>
    obtain ⟨lathe, hlathe, hid⟩ := hbase.exists_get? r.lathe
    simp only [lathes, List.filterMap_cons, hlathe, Option.map_some, List.filter_cons] at ih ⊢
    by_cases hsize : isListedRound r.roundSizes round = true
    · have hr : r.supportsRound round = true := hsize
      rw [if_pos hsize, if_pos hr, List.map_cons, List.map_cons, ih, hid]
    · have hr : ¬ r.supportsRound round = true := hsize
      rw [if_neg hsize, if_neg hr, ih]

theorem toList_forRound (s : Standards α) (round : α) :
    (s.forRound round).toList = (s.records.filter (·.supportsRound round)).map (·.lathe) :=
  LatheMatch.toList_ofList _

theorem mem_forRound :
    id ∈ (s.forRound round).toList ↔
      ∃ r ∈ s.records, r.supportsRound round = true ∧ r.lathe = id := by
  rw [toList_forRound, List.mem_map]
  simp only [List.mem_filter, and_assoc]

theorem mem_forRound_of_get? (hget : s.get? id = some r) (hr : r.supportsRound round = true) :
    id ∈ (s.forRound round).toList := by
  obtain ⟨hmem, hid⟩ := mem_of_get? hget
  exact mem_forRound.2 ⟨r, hmem, hr, hid⟩

theorem nodup_forRound_iff :
    (s.forRound round).toList.Nodup ↔
      s.records.Pairwise fun a b =>
        a.supportsRound round = true → b.supportsRound round = true → a.lathe ≠ b.lathe := by
  rw [toList_forRound, List.Nodup, List.pairwise_map, List.pairwise_filter]

theorem get?_of_runsOnFirst (h : s.RunsOnFirst round) (hr : r ∈ s.records)
    (hruns : r.supportsRound round = true) : s.get? r.lathe = some r := by
  obtain ⟨front, back, hrecords⟩ := List.append_of_mem hr
  unfold RunsOnFirst at h
  rw [hrecords, List.pairwise_append] at h
  have hfront : front.find? (fun a => decide (a.lathe = r.lathe)) = none := by
    apply List.find?_eq_none.2
    intro a ha hsame
    have hnot := h.2.2 a ha r List.mem_cons_self (of_decide_eq_true hsame)
    rw [hruns] at hnot
    cases hnot
  show s.records.find? _ = some r
  rw [hrecords, List.find?_append, hfront, Option.none_or, List.find?_cons_of_pos (by simp)]

theorem namesRecorded_iff : s.NamesRecorded round ↔ s.RunsOnFirst round := by
  constructor
  · rintro ⟨hnodup, hexact⟩
    rw [nodup_forRound_iff, List.pairwise_iff_getElem] at hnodup
    apply List.pairwise_iff_getElem.2
    intro i j hi hj hij hsame
    by_contra hruns
    rw [Bool.not_eq_false] at hruns
    -- The first record of the lathe runs the size too, and stands no further back than the one at `i`.
    obtain ⟨first, hfirst, hfirstRuns⟩ := (hexact s.records[j].lathe).1
      (mem_forRound.2 ⟨s.records[j], List.getElem_mem hj, hruns, rfl⟩)
    obtain ⟨hlathe, k, hk, rfl, hbefore⟩ := List.find?_eq_some_iff_getElem.1 hfirst
    have hki : k ≤ i := by
      by_contra hik
      have hnot := hbefore i (Nat.lt_of_not_le hik)
      rw [decide_eq_true hsame] at hnot
      cases hnot
    exact hnodup k j hk hj (Nat.lt_of_le_of_lt hki hij) hfirstRuns hruns (of_decide_eq_true hlathe)
  · intro h
    refine ⟨nodup_forRound_iff.2 (h.imp fun hbehind _ hb hsame => ?_), fun id => ⟨?_, ?_⟩⟩
    · rw [hbehind hsame] at hb
      cases hb
    · intro hid
      obtain ⟨r, hr, hruns, rfl⟩ := mem_forRound.1 hid
      exact ⟨r, get?_of_runsOnFirst h hr hruns, hruns⟩
    · rintro ⟨r, hget, hruns⟩
      exact mem_forRound_of_get? hget hruns

theorem forRound_of_choose (h : s.choose round = .ok id) : s.forRound round = .unique id := by
  unfold choose at h
  split at h
  · next hunique => rw [hunique, Except.ok.inj h]
  · cases h
  · cases h

/-- The lathe that is chosen runs the size by one record.  That is its first one, or the lathe does not
run the size by its first one. -/
theorem exists_get?_of_choose (h : s.choose round = .ok id) :
    (∃ r, s.get? id = some r ∧ r.supportsRound round = false) ↔ ¬ s.RunsOnFirst round := by
  have hlist : (s.forRound round).toList = [id] := by rw [forRound_of_choose h]; rfl
  rw [← namesRecorded_iff, NamesRecorded, hlist]
  constructor
  · rintro ⟨r, hget, hnot⟩ ⟨-, hexact⟩
    obtain ⟨r', hget', hruns⟩ := (hexact id).1 List.mem_cons_self
    rw [hget] at hget'
    obtain rfl := Option.some.inj hget'
    rw [hnot] at hruns
    cases hruns
  · intro hnot
    by_contra hall
    apply hnot
    refine ⟨List.nodup_singleton id, fun other => ⟨?_, ?_⟩⟩
    · intro hother
      obtain rfl := List.mem_singleton.1 hother
      obtain ⟨r, hr, -, rfl⟩ := mem_forRound.1 (hlist ▸ hother)
      obtain ⟨first, hfirst⟩ := exists_get?_of_mem hr
      refine ⟨first, hfirst, ?_⟩
      by_contra hfalse
      exact hall ⟨first, hfirst, Bool.eq_false_iff.2 hfalse⟩
    · rintro ⟨r, hget, hruns⟩
      rw [← hlist]
      exact mem_forRound_of_get? hget hruns

end Standards

/-! ## Parts on a lathe -/

namespace PartFacts

variable [Scalar α] {f : PartFacts α} {s : Standards α} {id : LatheId} {round : α}

/-- A part is found to be of a size that its lathe does not run exactly when the record of the lathe
lacks the size. -/
theorem exists_roundNotRun_iff (hlathe : f.lathe = some id) (hround : f.round = some round) :
    (∃ d ∈ (f.feasibility s).critical, ∃ sizes, d.finding = .roundNotRun round id sizes) ↔
      ∃ r, s.get? id = some r ∧ r.supportsRound round = false := by
  have hcheck (r : LatheRecord α) (sizes : List α) :
      .roundNotRun round id sizes ∈ f.checkRound r ↔
        r.supportsRound round = false ∧ id = r.lathe ∧ sizes = r.roundSizes := by
    unfold checkRound
    rw [hround]
    simp only [List.mem_append, mem_when, Bool.not_eq_true', Finding.roundNotRun.injEq, true_and,
      reduceCtorEq, and_false, or_false]
  constructor
  · rintro ⟨d, hd, sizes, hfinding⟩
    have hmem := (FeasibilityReport.exists_mem_critical rfl).1 ⟨d, hd, hfinding⟩
    obtain ⟨r, hget, hr⟩ := (mem_findings_of_round rfl).1 hmem
    rw [hlathe] at hget
    exact ⟨r, hget, ((hcheck r sizes).1 hr).1⟩
  · rintro ⟨r, hget, hnot⟩
    have hr := (hcheck r r.roundSizes).2 ⟨hnot, (Standards.mem_of_get? hget).2.symm, rfl⟩
    have hmem := (mem_findings_of_round rfl).2 ⟨r, by rw [hlathe]; exact hget, hr⟩
    obtain ⟨d, hd, hfinding⟩ := (FeasibilityReport.exists_mem_critical rfl).2 hmem
    exact ⟨d, hd, r.roundSizes, hfinding⟩

end PartFacts

/-- The records and the envelopes made from them name the same lathes for a round size.  They name each
lathe whose record runs the size once, and no other, exactly when no record behind another one of its
lathe runs it; and only then is a part on the lathe that is chosen not found to be of a size that the
lathe does not run. -/
theorem Standards.forRound_iff {s : Standards α} {base : Lathes α} [Scalar α]
    (hbase : base.HoldsEach) (round : α) :
    (s.lathes base).forRound round = s.forRound round ∧
      (s.NamesRecorded round ↔ s.RunsOnFirst round) ∧
      ∀ id, s.choose round = .ok id → ∀ f : PartFacts α, f.lathe = some id → f.round = some round →
        ((∃ d ∈ (f.feasibility s).critical, ∃ sizes, d.finding = .roundNotRun round id sizes) ↔
          ¬ s.RunsOnFirst round) := by
  refine ⟨forRound_lathes hbase round, namesRecorded_iff, fun id hchoose f hlathe hround => ?_⟩
  rw [PartFacts.exists_roundNotRun_iff hlathe hround]
  exact exists_get?_of_choose hchoose

end

theorem Lathes.standard_holdsEach : (Lathes.standard : Lathes Float).HoldsEach := by
  intro id
  cases id <;> rfl

theorem Standards.forRound_iff_standard :
    let s : Standards Float := .standard
    let f : PartFacts Float := { lathe := some .l1, round := some 6.0 }
    s.RunsOnFirst 6.0 ∧ s.NamesRecorded 6.0 ∧ s.choose 6.0 = .ok .l1 ∧
      ¬ ∃ d ∈ (f.feasibility s).critical, ∃ sizes, d.finding = .roundNotRun 6.0 .l1 sizes := by
  intro s f
  have hfirst : s.RunsOnFirst 6.0 := by
    unfold RunsOnFirst
    decide +kernel
  have hchoose : s.choose 6.0 = .ok .l1 := by decide +kernel
  obtain ⟨-, hnames, hchosen⟩ := forRound_iff (s := s) Lathes.standard_holdsEach 6.0
  refine ⟨hfirst, hnames.2 hfirst, hchoose, ?_⟩
  rw [hchosen .l1 hchoose f rfl rfl, not_not]
  exact hfirst

/-- Standards with a second record of a lathe, which runs a size that the first one lacks. -/
def Standards.doubled : Standards Float :=
  let first : LatheRecord Float :=
    { lathe := .l1, roundSizes := [5.75], chuckCapacity := 7.0, minThickness := 0.5,
      maxThickness := 2.0, maxDrillDepth := 4.0, rules := [{ kind := .standard }] }
  ⟨[first, { first with roundSizes := [5.75, 6.0] }]⟩

/-- Standards that are accepted name a lathe twice, and choose a lathe for a part that is then found to
be of a size that the lathe does not run. -/
theorem Standards.not_namesRecorded_of_accepted :
    doubled.fault? = none ∧ doubled.forRound 5.75 = .ambiguous [.l1, .l1] ∧
      doubled.choose 6.0 = .ok .l1 ∧
      ∃ d ∈ (({ lathe := some .l1, round := some 6.0 } : PartFacts Float).feasibility doubled).critical,
        d.finding = .roundNotRun 6.0 .l1 [5.75] := by
  refine ⟨by decide +kernel, by decide +kernel, by decide +kernel, ?_⟩
  exact (FeasibilityReport.exists_mem_critical rfl).2 (by decide +kernel)

end SpacerTurning
