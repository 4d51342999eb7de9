import SpacerTurning.Proofs.Check.Mends

/-!
A work offset chosen before a rapid move.

The third pass lifts the first rapid move behind a work offset.  Run again, it finds nothing: a
lifted move is not too low, and which move is the first one has not changed.
-/

namespace SpacerTurning

open Number

variable {α : Type} [Scalar α]

/-- What settling relies on of the clearance, and of a zero that is taken away. -/
structure CheckingConstants.Settles (c : CheckingConstants α) : Prop where
  positive : ¬ c.workOffsetClearanceZ ≤ 0
  /-- The face itself is too low. -/
  low {z : α} : (z == 0) = true → z < c.workOffsetMinClearance
  /-- The clearance is not, as it is written. -/
  high {z : α} : (if Scalar.isFinite (Scalar.round4 c.workOffsetClearanceZ) then
      z == Scalar.round4 c.workOffsetClearanceZ else z == 0) = true → ¬ z < c.workOffsetMinClearance
  sub_zero {z a b : α} : (a == 0) = true → (b == 0) = true →
    Step.moves (some z) (some a) = Step.moves (some z) (some b)

/-! ## The same move behind a work offset -/

def Line.SameButHeight (l l' : Line α) : Prop :=
  l'.z?.isSome = l.z?.isSome ∧
    ∀ letter, letter ≠ 'Z' → wordsWith letter l'.words = wordsWith letter l.words

theorem Line.SameButHeight.event {l l' : Line α} (h : l.SameButHeight l') : l'.event = l.event :=
  Line.event_congr (h.2 'G' (by decide)) (h.2 'T' (by decide))

def ModalState.MovesLike (s s' : ModalState α) : Prop :=
  s'.motion = s.motion ∧ s'.machine = s.machine

theorem ModalState.MovesLike.next {s s' : ModalState α} (hs : s.MovesLike s') {l l' : Line α}
    (hl : l.SameButHeight l') : (s.next l).MovesLike (s'.next l') := by
  have hmachine : l'.isMachine = l.isMachine := Line.isMachine_congr (hl.2 'G' (by decide))
  constructor
  · rw [next_motion, next_motion, hl.event, hs.1]
  · rw [next_machine, next_machine, hmachine]

/-- Two steps look alike to the search for the first rapid move behind a work offset. -/
def Step.LooksLike (n o : Step α) : Prop :=
  n.isRapidZ = o.isRapidZ ∧ n.line.has 'G' 154 = o.line.has 'G' 154

/-- Lines that differ in their heights only take steps that look alike. -/
theorem forall₂_looksLike {lines lines' : List (Line α)}
    (h : List.Forall₂ Line.SameButHeight lines lines') :
    List.Forall₂ (fun o n : Step α => n.LooksLike o) (steps lines) (steps lines') := by
  have hstart : ModalState.MovesLike ({} : ModalState α) {} := ⟨rfl, rfl⟩
  have hlines : List.Forall₂ (fun o l => Line.SameButHeight o.line l) (steps lines) lines' :=
    ModalState.forall₂_steps_left.2 h
  have hsteps := ModalState.forall₂_simulates (fun _ _ _ _ hs hl => hs.next hl) hstart hlines
  refine hsteps.imp fun o n hn => ?_
  obtain ⟨⟨hz, hwords⟩, -, hmotion, hmachine⟩ := hn
  constructor
  · rw [Step.isRapidZ, Step.isRapidZ, Step.isRapid, Step.isRapid, hmotion, hmachine, hz]
  · rw [Line.has_eq, Line.has_eq, hwords 'G' (by decide)]

theorem FollowsAt.of_looksLike {st sn : List (Step α)}
    (h : List.Forall₂ (fun o n : Step α => n.LooksLike o) st sn) {window i : Nat}
    (hfollows : FollowsAt sn window i) : FollowsAt st window i := by
  obtain ⟨g, hg, hwindow, ⟨n, hn, hoffset⟩, hbetween⟩ := hfollows
  refine ⟨g, hg, hwindow, ?_, fun j o hj hj' ho => ?_⟩
  · obtain ⟨o, ho, hlike⟩ := exists_getElem?_of_forall₂ h.flip hn
    exact ⟨o, ho, by rw [← hlike.2, hoffset]⟩
  · obtain ⟨n, hn, hlike⟩ := exists_getElem?_of_forall₂ h ho
    obtain ⟨hnone, hquiet⟩ := hbetween j n hj hj' hn
    exact ⟨by rw [← hlike.2, hnone], by rw [← hlike.1, hquiet]⟩

/-- Where a work offset was chosen, a place follows it, or another move before does that is the
first one. -/
theorem FollowsAt.or_exists_first {st : List (Step α)} {window p i : Nat} (hp : p < i)
    (hwindow : i ≤ p + window) (hchosen : ∃ s, st[p]? = some s ∧ s.line.has 'G' 154 = true)
    (hnone : ∀ j s, p < j → j < i → st[j]? = some s → s.line.has 'G' 154 = false) :
    FollowsAt st window i ∨ ∃ m s, p < m ∧ m < i ∧ st[m]? = some s ∧ s.isRapidZ = true ∧
      FollowsAt st window m ∧
      ∀ k u, p < k → k < m → st[k]? = some u → u.isRapidZ = false := by
  classical
  by_cases hmoved : ∃ m, p < m ∧ m < i ∧ ∃ s, st[m]? = some s ∧ s.isRapidZ = true
  · right
    obtain ⟨hpm, hmi, s, hs, hrapid⟩ := Nat.find_spec hmoved
    have hfirst (k : Nat) (u : Step α) (hk : p < k) (hk' : k < Nat.find hmoved)
        (hu : st[k]? = some u) : u.isRapidZ = false := by
      by_contra hyes
      exact Nat.find_min hmoved hk' ⟨hk, by omega, u, hu, by simpa using hyes⟩
    exact ⟨Nat.find hmoved, s, hpm, hmi, hs, hrapid, ⟨p, hpm, by omega, hchosen,
      fun j u hj hj' hu => ⟨hnone j u hj (by omega) hu, hfirst j u hj hj' hu⟩⟩, hfirst⟩
  · left
    refine ⟨p, hp, hwindow, hchosen, fun j s hj hj' hs => ⟨hnone j s hj hj' hs, ?_⟩⟩
    by_contra hyes
    exact hmoved ⟨j, hj, hj', s, hs, by simpa using hyes⟩

namespace Detector

variable {c : CheckingConstants α}

theorem workOffsetClearance_at?_eq_some {lines : List (Line α)} {i : Nat} {v : Verdict α}
    (h : (workOffsetClearance c).at? lines i = some v) :
    ∃ here z, (steps lines)[i]? = some here ∧ here.isRapidZ = true ∧
      here.line.has 'G' 154 = false ∧ FollowsAt (steps lines) c.contextLines i ∧
      here.line.z? = some z ∧ 0 ≤ z ∧ z < c.workOffsetMinClearance := by
  obtain ⟨here, hhere, hjudge⟩ := Option.bind_eq_some_iff.1 h
  obtain ⟨-, -, z, hz, hz0, hless, -⟩ := workOffsetClearance_eq_some hjudge
  have hfollows : followsWorkOffset c.contextLines ((steps lines).take i).reverse here = true := by
    by_contra hnot
    simp [workOffsetClearance, hnot] at hjudge
  obtain ⟨hrapid, hoffset, hat⟩ := (followsWorkOffset_iff hhere).1 hfollows
  exact ⟨here, z, hhere, hrapid, hoffset, hat, hz, hz0, hless⟩

theorem workOffsetClearance_at?_isSome {lines : List (Line α)} {i : Nat} {here : Step α} {z : α}
    (hhere : (steps lines)[i]? = some here) (hrapid : here.isRapidZ = true)
    (hoffset : here.line.has 'G' 154 = false) (hat : FollowsAt (steps lines) c.contextLines i)
    (hz : here.line.z? = some z) (hz0 : 0 ≤ z) (hless : z < c.workOffsetMinClearance) :
    ((workOffsetClearance c).at? lines i).isSome = true := by
  have hfollows := (followsWorkOffset_iff hhere).2 ⟨hrapid, hoffset, hat⟩
  have hfilter : here.line.z?.filter (fun z => decide (0 ≤ z) &&
      decide (z < c.workOffsetMinClearance)) = some z := by
    rw [Option.filter_eq_some_iff]
    exact ⟨hz, by simp [hz0, hless]⟩
  rw [at?_eq hhere, workOffsetClearance, if_pos hfollows, Option.isSome_map, hfilter]
  rfl

variable [LawfulScalar α]

/-- The third pass keeps everything but heights. -/
theorem forall₂_workOffsetClearance (hclear : ¬ c.workOffsetClearanceZ ≤ 0) {raws : List String}
    (hmend : (workOffsetClearance c).CanMend raws) :
    List.Forall₂ (fun (o : Step α) l => o.Mends l ∧ o.line.SameButHeight l)
      (steps (Line.parseAll raws))
      (Line.parseAll ((workOffsetClearance c).run (Line.parseAll raws)).lines) := by
  refine forall₂_run (isLocal_workOffsetClearance c)
    fun here hhere l' before after hjudged hreported => ?_
  obtain ⟨hmends, hwords⟩ := hjudged.mends_workOffsetClearance hclear
    fun v hv => hmend here hhere before after v hv (hreported v hv)
  refine ⟨hmends, ?_, hwords⟩
  rcases hmends.follows.z with hz | ⟨u, v, hu, hv, -⟩
  · rw [hz]
  · rw [hu, hv]
    rfl

/-- Run again, the third pass finds nothing. -/
theorem workOffsetClearance_at?_run (hc : c.Settles) {raws : List String}
    (hmend : (workOffsetClearance c).CanMend raws) (i : Nat) :
    (workOffsetClearance c).at?
      (Line.parseAll ((workOffsetClearance c).run (Line.parseAll raws)).lines) i = none := by
  rw [Option.eq_none_iff_forall_ne_some]
  intro v hv
  obtain ⟨n, z, hn, hrapid, hoffset, hat, hz, hz0, hless⟩ := workOffsetClearance_at?_eq_some hv
  have hsame := (forall₂_workOffsetClearance hc.positive hmend).imp fun _ _ h => h.2
  have hlike := forall₂_looksLike (ModalState.forall₂_steps_left.1 hsame)
  obtain ⟨o, ho, holike⟩ := exists_getElem?_of_forall₂ hlike.flip hn
  obtain ⟨l', hl', hjudged⟩ := exists_isJudged_at (workOffsetClearance c) ho
  have hline : n.line = l' := by
    have hn' := hn
    rw [steps, ModalState.getElem?_steps, hl', Option.map_some] at hn'
    rw [← Option.some.inj hn']
  have hdiag : ∀ w, (workOffsetClearance c) ((steps (Line.parseAll raws)).take i).reverse o
      ((steps (Line.parseAll raws)).drop (i + 1)) = some w →
      w.diagnostic ∈ ((workOffsetClearance c).run (Line.parseAll raws)).diagnostics := fun w hw =>
    mem_diagnostics_iff.2 ⟨i, w, (at?_eq ho).trans hw, rfl⟩
  cases hjudge : workOffsetClearance c ((steps (Line.parseAll raws)).take i).reverse o
      ((steps (Line.parseAll raws)).drop (i + 1)) with
  | none =>
    -- The line is the one that was found before, and it would have been found then.
    have hkept := hjudged.eq_of_none hjudge
    rw [hline, hkept] at hz
    have hfound := workOffsetClearance_at?_isSome (c := c) ho (by rw [← holike.1, hrapid])
      (by rw [← holike.2, hoffset]) (hat.of_looksLike hlike) hz hz0 hless
    rw [at?_eq ho, hjudge] at hfound
    cases hfound
  | some w =>
    have hmem := List.mem_of_getElem? ho
    have htakes := hmend o hmem _ _ w hjudge (hdiag w hjudge)
    obtain ⟨-, htext, u, -, -, -, hfinding⟩ := workOffsetClearance_eq_some hjudge
    have hfront := htakes.2 (by rw [hfinding]; rfl)
    have hraw : l'.raw = w.text := by rw [hjudged.raw, hjudge]; rfl
    rw [← hraw] at htext
    obtain ⟨v', hv', -, hvalue, -⟩ := Line.exists_z?_height hjudged.isRead' htext hfront
    rw [hline, hv'] at hz
    rw [← Option.some.inj hz] at hless
    exact hc.high hvalue hless

end Detector

end SpacerTurning
