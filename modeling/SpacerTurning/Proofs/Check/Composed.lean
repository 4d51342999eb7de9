import SpacerTurning.Proofs.Check.Spaced

/-!
Programs put together at a tool change.

A line that takes up a tool ends the motion and the place that were in force before it, and the
block of the tool before it.  So two programs, of which the second one starts with such a line, are
checked together as each of them is checked alone.
-/

namespace SpacerTurning

open Number

variable {α : Type} [Scalar α]

theorem Line.event_eq_toolChange {l : Line α} (htool : l.tool?.isSome = true)
    (hmachine : l.isMachine = false) : l.event = .toolChange := by
  simp [event, hmachine, htool]

/-- Behind a tool change the same is in force, whatever was before it. -/
theorem ModalState.Alike.of_toolChange {l : Line α} (h : l.event = .toolChange)
    (s s' : ModalState α) : (s.next l).Alike (s'.next l) := by
  constructor
  · rw [next_motion, next_motion, h]
    rfl
  · rw [next_x, next_x, h]
  · rw [next_z, next_z, h]

theorem Step.plungeReport?_of_toolChange {l : Line α} (h : l.event = .toolChange)
    (s : ModalState α) : Step.plungeReport? ⟨l, s, s.next l⟩ = none := by
  have hrapid : Step.isRapid ⟨l, s, s.next l⟩ = false := by
    simp [isRapid, ModalState.next_motion, h, MotionState.after]
  simp [plungeReport?, plunge?, hrapid]

/-! ## Blocks -/

namespace Bore

theorem takeWhile_isWithinBlock_append (a : List (Step α)) {b : List (Step α)}
    (hb : ∀ s ∈ b.head?, isWithinBlock s = false) :
    (a ++ b).takeWhile isWithinBlock = a.takeWhile isWithinBlock := by
  induction a with
  | nil =>
    cases b with
    | nil => rfl
    | cons s b => simp [hb s rfl]
  | cons s a ih => rw [List.cons_append, List.takeWhile_cons, List.takeWhile_cons, ih]

/-- Steps behind one that ends every block have blocks of their own. -/
theorem blocks_append_of_leaves (c : CheckingConstants α) (a : List (Step α)) {b : List (Step α)}
    (hb : ∀ s ∈ b.head?, isWithinBlock s = false) :
    blocks c (a ++ b) = blocks c a ++ blocks c b := by
  induction a with
  | nil => rfl
  | cons s a ih =>
    have hblock (tool : Nat) : blockOf c s.line.number tool (a ++ b)
        = blockOf c s.line.number tool a := by
      unfold blockOf
      rw [takeWhile_isWithinBlock_append a hb]
    rw [List.cons_append, blocks, blocks, ih]
    cases s.line.tool? with
    | none => rfl
    | some tool =>
      dsimp only
      rw [hblock]
      split <;> rfl

end Bore

/-! ## Two programs -/

/-- The second program is the same lines under other numbers, from the state that the first one
leaves. -/
theorem steps_parseAll_append (first rest : List String) :
    steps (Line.parseAll (first ++ rest) : List (Line α))
      = steps (Line.parseAll first)
        ++ (ModalState.afterLines {} (Line.parseAll first)).steps
            ((Line.parseAll rest).map (·.recounted (· + first.length))) := by
  rw [steps, Line.parseAll, Line.parseFrom_append, ModalState.steps_append, Line.parseFrom_add]
  rfl

section

variable {f : Nat → Nat} {l : Line α} {others : List (Line α)}

/-- Lines from a tool change on have the same blocks from every state. -/
theorem Bore.blocks_of_toolChange (c : CheckingConstants α) (hevent : l.event = .toolChange)
    (s s' : ModalState α) : blocks c (s'.steps ((l :: others).map (·.recounted f)))
      = (blocks c (s.steps (l :: others))).map (·.recounted f) := by
  have halike := ModalState.Alike.of_toolChange hevent s s'
  have hspaced : Line.Spaced f (fun _ => True) others (others.map (·.recounted f)) :=
    .recounted f _ others
  exact blocks_cons_recounted c l (cutsFrom_spaced c hspaced halike)
    (blocks_spaced c hspaced halike)

theorem Step.plungeReports_of_toolChange (hevent : l.event = .toolChange) (s s' : ModalState α) :
    (s'.steps ((l :: others).map (·.recounted f))).filterMap plungeReport?
      = ((s.steps (l :: others)).filterMap plungeReport?).map (·.recounted f) := by
  have halike := ModalState.Alike.of_toolChange hevent s s'
  have hspaced : Line.Spaced f (fun _ => True) others (others.map (·.recounted f)) :=
    .recounted f _ others
  rw [List.map_cons, ModalState.steps, ModalState.steps,
    List.filterMap_cons_none (plungeReport?_of_toolChange (l := l.recounted f) hevent _),
    List.filterMap_cons_none (plungeReport?_of_toolChange hevent _)]
  exact hspaced.plungeReports halike

end

/-- A program behind another one is checked as it is alone, if it starts with a tool change: its
blocks, and its moves into the part up to what would mend them. -/
theorem Line.reported_append (c : CheckingConstants α) (first : List String) {rest : List String}
    {l : Line α} (hhead : (parseAll rest).head? = some l) (htool : l.tool?.isSome = true)
    (hmachine : l.isMachine = false) :
    let before : List (Line α) := parseAll first
    let behind : List (Line α) := parseAll rest
    let together : List (Line α) := parseAll (first ++ rest)
    Bore.checkLines c together
        = Bore.checkLines c before
          ++ (Bore.checkLines c behind).map (·.recounted (· + first.length)) ∧
      ((Detector.rapidPlunge c).run together).diagnostics.map Diagnostic.withoutFix
        = ((Detector.rapidPlunge c).run before).diagnostics.map Diagnostic.withoutFix
          ++ (((Detector.rapidPlunge c).run behind).diagnostics.map Diagnostic.withoutFix).map
            (·.recounted (· + first.length)) := by
  intro before behind together
  obtain ⟨others, hbehind⟩ : ∃ others, behind = l :: others := List.head?_eq_some_iff.1 hhead
  have hevent := event_eq_toolChange htool hmachine
  have htogether : steps together = steps before
      ++ (ModalState.afterLines {} before).steps (behind.map (·.recounted (· + first.length))) :=
    steps_parseAll_append first rest
  generalize ModalState.afterLines {} before = s at htogether
  rw [hbehind] at htogether ⊢
  constructor
  · have hleaves : ∀ st ∈ (s.steps ((l :: others).map (·.recounted (· + first.length)))).head?,
        Bore.isWithinBlock st = false := by
      rintro st ⟨⟩
      have htaken : (l.recounted (· + first.length)).tool?.isSome = true := htool
      simp [Bore.isWithinBlock, ← Option.not_isSome, htaken]
    rw [Bore.checkLines, Bore.collect, htogether, Bore.blocks_append_of_leaves c _ hleaves,
      Bore.blocks_of_toolChange c hevent {} s, List.flatMap_append,
      Bore.flatMap_checkBlock_recounted]
    rfl
  · rw [Detector.map_withoutFix_run, Detector.map_withoutFix_run, Detector.map_withoutFix_run,
      htogether, List.filterMap_append, Step.plungeReports_of_toolChange hevent {} s]
    rfl

/-- A block that is entered too wide and left rapidly is reported once more where it is said once
more. -/
theorem Line.reported_append_same_block :
    let block := ["T303 (BORE)", "G00 X3. Z0.1", "G01 Z-1. F0.01", "G00 X2. Z-2."]
    let l : Line Float := .parse 1 "T303 (BORE)"
    let together : List (Line Float) := parseAll (block ++ block)
    (parseAll block : List (Line Float)).head? = some l ∧ l.tool?.isSome = true ∧
      l.isMachine = false ∧
      (Bore.checkLines .standard together).map (·.line) = [some 3, some 7] ∧
      ((Detector.rapidPlunge .standard).run together).diagnostics.map Diagnostic.withoutFix
        = [{ finding := .rapidPlunge (-2) false, line := some 4 },
          { finding := .rapidPlunge (-2) false, line := some 8 }] := by
  intro block l together
  have hhead : (parseAll block : List (Line Float)).head? = some l := rfl
  have htool : l.tool?.isSome = true := by decide +kernel
  have hmachine : l.isMachine = false := by decide +kernel
  obtain ⟨hblocks, hplunges⟩ := reported_append .standard block hhead htool hmachine
  refine ⟨hhead, htool, hmachine, ?_, hplunges.trans ?_⟩
  · show (Bore.checkLines .standard (parseAll (block ++ block) : List (Line Float))).map _ = _
    rw [hblocks]
    decide +kernel
  · decide +kernel

end SpacerTurning
