import SpacerTurning.Check.Features
import SpacerTurning.Proofs.Check.BoreSteps
import SpacerTurning.Proofs.Check.Home
import SpacerTurning.Proofs.Check.Positions

/-!
Lines without words.

A line that reads no word leaves in force what a check looks at: the motion, the diameter, the
height and the tool.  So such lines can stand anywhere in a program.  What is reported of the other
lines stays as it is, under the numbers that they then have.
-/

namespace SpacerTurning

open Number

variable {α : Type}

/-! ## Lines under other numbers -/

section

variable (f : Nat → Nat)

def Line.recounted (l : Line α) : Line α := { l with number := f l.number }

def Diagnostic.recounted (d : Diagnostic α) : Diagnostic α := { d with line := d.line.map f }

def BoreCut.recounted (cut : BoreCut α) : BoreCut α := { cut with line := f cut.line }

def BoreBlock.recounted (b : BoreBlock α) : BoreBlock α :=
  { b with toolLine := f b.toolLine, cuts := b.cuts.map (·.recounted f) }

def ToolUse.recounted (t : ToolUse) : ToolUse := { t with line := f t.line }

def MarkedDiameter.recounted (d : MarkedDiameter α) : MarkedDiameter α :=
  { d with line := f d.line }

end

variable [Scalar α]

theorem Line.parseFrom_add (m n : Nat) (raws : List String) :
    (parseFrom (m + n) raws : List (Line α)) = (parseFrom m raws).map (·.recounted (· + n)) := by
  induction raws generalizing m with
  | nil => rfl
  | cons raw raws ih =>
    rw [parseFrom, parseFrom, List.map_cons, Nat.add_right_comm, ih]
    rfl

theorem ModalState.next_recounted (f : Nat → Nat) (s : ModalState α) (l : Line α) :
    s.next (l.recounted f) = s.next l := rfl

namespace Line

variable {l : Line α}

omit [Scalar α] in
theorem value?_of_words_eq_nil (h : l.words = []) (letter : Char) : l.value? letter = none := by
  simp [value?, h]

theorem has_of_words_eq_nil (h : l.words = []) (letter : Char) (code : Nat) :
    l.has letter code = false := by
  simp [has, h]

theorem tool?_of_words_eq_nil (h : l.words = []) : l.tool? = none := by simp [tool?, h]

theorem event_of_words_eq_nil (h : l.words = []) : l.event = .inherit := by
  have hmachine : l.isMachine = false := has_of_words_eq_nil h 'G' 53
  have hmotion : l.motionWord? = none := by simp [motionWord?, h]
  simp [event, hmachine, tool?_of_words_eq_nil h, hmotion]

end Line

/-! ## States in which the same is in force -/

namespace ModalState

/-- The same motion is in force, and the tool was last seen at the same place. -/
structure Alike (s s' : ModalState α) : Prop where
  motion : s'.motion = s.motion
  x : s'.x = s.x
  z : s'.z = s.z

namespace Alike

variable {s s' : ModalState α}

omit [Scalar α] in
theorem refl (s : ModalState α) : s.Alike s := ⟨rfl, rfl, rfl⟩

theorem next (h : s.Alike s') (l : Line α) : (s.next l).Alike (s'.next l) where
  motion := by rw [next_motion, next_motion, h.motion]
  x := by rw [next_x, next_x, h.x]
  z := by rw [next_z, next_z, h.z]

theorem next_of_words_eq_nil (h : s.Alike s') {l : Line α} (hl : l.words = []) :
    s.Alike (s'.next l) := by
  have hevent := Line.event_of_words_eq_nil hl
  constructor
  · rw [next_motion, hevent]
    exact h.motion
  · rw [next_x, hevent, Line.x?, Line.value?_of_words_eq_nil hl]
    exact h.x
  · rw [next_z, hevent, Line.z?, Line.value?_of_words_eq_nil hl]
    exact h.z

end Alike

end ModalState

/-! ## Lines with others between them -/

/-- The same lines under other numbers, with lines between them that read no word, and of which
something else may hold. -/
inductive Line.Spaced (f : Nat → Nat) (between : Line α → Prop) :
    List (Line α) → List (Line α) → Prop
  | nil : Spaced f between [] []
  | skip {l : Line α} {lines lines' : List (Line α)} : l.words = [] → between l →
      Spaced f between lines lines' → Spaced f between lines (l :: lines')
  | keep (l : Line α) {lines lines' : List (Line α)} :
      Spaced f between lines lines' → Spaced f between (l :: lines) (l.recounted f :: lines')

namespace Line.Spaced

variable {f : Nat → Nat} {between : Line α → Prop} {lines lines' : List (Line α)}

omit [Scalar α] in
theorem recounted (f : Nat → Nat) (between : Line α → Prop) (lines : List (Line α)) :
    Spaced f between lines (lines.map (·.recounted f)) := by
  induction lines with
  | nil => exact .nil
  | cons l lines ih => exact .keep l ih

/-! ### What is read line by line -/

variable {β : Type} {g : β → β}

omit [Scalar α] in
theorem filterMap {read : Line α → Option β}
    (hskip : ∀ l : Line α, l.words = [] → between l → read l = none)
    (hkeep : ∀ l : Line α, read (l.recounted f) = (read l).map g)
    (h : Spaced f between lines lines') : lines'.filterMap read = (lines.filterMap read).map g := by
  induction h with
  | nil => rfl
  | skip hwords hbetween _ ih => rw [List.filterMap_cons, hskip _ hwords hbetween, ih]
  | keep l _ ih =>
    rw [List.filterMap_cons, List.filterMap_cons, hkeep l, ih]
    cases read l <;> rfl

theorem filterMap_steps {read : Step α → Option β}
    (hskip : ∀ (s : ModalState α) (l : Line α), l.words = [] → between l →
      read ⟨l, s, s.next l⟩ = none)
    (hkeep : ∀ {s s' : ModalState α}, s.Alike s' → ∀ l : Line α,
      read ⟨l.recounted f, s', s'.next l⟩ = (read ⟨l, s, s.next l⟩).map g)
    (h : Spaced f between lines lines') {s s' : ModalState α} (hs : s.Alike s') :
    (s'.steps lines').filterMap read = ((s.steps lines).filterMap read).map g := by
  induction h generalizing s s' with
  | nil => rfl
  | skip hwords hbetween _ ih =>
    rw [ModalState.steps, List.filterMap_cons, hskip _ _ hwords hbetween]
    exact ih (hs.next_of_words_eq_nil hwords)
  | keep l _ ih =>
    rw [ModalState.steps, ModalState.steps, ModalState.next_recounted, List.filterMap_cons,
      List.filterMap_cons, hkeep hs l, ih (hs.next l)]
    cases read ⟨l, s, s.next l⟩ <;> rfl

end Line.Spaced

/-! ## Moves into the part -/

theorem Step.plunge?_of_alike {s s' : ModalState α} (hs : s.Alike s') (l : Line α) :
    Step.plunge? ⟨l, s', s'.next l⟩ = Step.plunge? ⟨l, s, s.next l⟩ := by
  have hrapid : Step.isRapid ⟨l, s', s'.next l⟩ = Step.isRapid ⟨l, s, s.next l⟩ := by
    simp only [isRapid, (hs.next l).motion, ModalState.next_machine]
  unfold plunge?
  rw [hrapid, hs.z]

theorem Step.plungeReport?_recounted {s s' : ModalState α} (hs : s.Alike s') (f : Nat → Nat)
    (l : Line α) : Step.plungeReport? ⟨l.recounted f, s', s'.next l⟩
      = (Step.plungeReport? ⟨l, s, s.next l⟩).map (·.recounted f) := by
  have hplunge : Step.plunge? ⟨l.recounted f, s', s'.next l⟩ = Step.plunge? ⟨l, s, s.next l⟩ :=
    plunge?_of_alike hs l
  unfold plungeReport?
  rw [hplunge, Option.map_map]
  rfl

theorem Step.plungeReport?_of_words_eq_nil (s : ModalState α) {l : Line α} (hl : l.words = []) :
    Step.plungeReport? ⟨l, s, s.next l⟩ = none := by
  simp [plungeReport?, plunge?, Line.z?, Line.value?_of_words_eq_nil hl]

theorem Line.Spaced.plungeReports {f : Nat → Nat} {between : Line α → Prop}
    {lines lines' : List (Line α)} (h : Spaced f between lines lines') {s s' : ModalState α}
    (hs : s.Alike s') : (s'.steps lines').filterMap Step.plungeReport?
      = ((s.steps lines).filterMap Step.plungeReport?).map (·.recounted f) :=
  h.filterMap_steps (fun s _ hl _ => Step.plungeReport?_of_words_eq_nil s hl)
    (fun hs l => Step.plungeReport?_recounted hs f l) hs

theorem Line.Spaced.map_withoutFix_run (c : CheckingConstants α) {f : Nat → Nat}
    {between : Line α → Prop} {lines lines' : List (Line α)} (h : Spaced f between lines lines') :
    ((Detector.rapidPlunge c).run lines').diagnostics.map Diagnostic.withoutFix
      = (((Detector.rapidPlunge c).run lines).diagnostics.map Diagnostic.withoutFix).map
          (·.recounted f) := by
  rw [Detector.map_withoutFix_run, Detector.map_withoutFix_run]
  exact h.plungeReports (.refl {})

/-! ## Cuts of a bore -/

namespace Bore

theorem cut?_recounted (c : CheckingConstants α) {s s' : ModalState α} (hs : s.Alike s')
    (f : Nat → Nat) (l : Line α) : cut? c ⟨l.recounted f, s', s'.next l⟩
      = (cut? c ⟨l, s, s.next l⟩).map (·.recounted f) := by
  have hafter := hs.next l
  have hfeed : Step.isFeedMove ⟨l.recounted f, s', s'.next l⟩
      = Step.isFeedMove ⟨l, s, s.next l⟩ := by
    simp only [Step.isFeedMove, hafter.motion, ModalState.next_machine]
    rfl
  have hdiagonal : Step.isDiagonal ⟨l.recounted f, s', s'.next l⟩
      = Step.isDiagonal ⟨l, s, s.next l⟩ := by
    simp only [Step.isDiagonal, hs.x, hs.z]
    rfl
  unfold cut?
  rw [hfeed, hdiagonal, hafter.x, hafter.z]
  split
  · cases (s.next l).x with
    | none => rfl
    | some x =>
      cases (s.next l).z with
      | none => rfl
      | some z =>
        dsimp only
        split <;> rfl
  · rfl

theorem staysWithTool_of_words_eq_nil {l : Line α} (hl : l.words = []) :
    staysWithTool l = true := by
  simp [staysWithTool, Line.tool?_of_words_eq_nil hl, Line.has_of_words_eq_nil hl]

theorem cut?_of_words_eq_nil (c : CheckingConstants α) (s : ModalState α) {l : Line α}
    (hl : l.words = []) : cut? c ⟨l, s, s.next l⟩ = none := by
  refine cut?_eq_none c s (Or.inr ?_)
  simp [Line.hasAxis, Line.x?, Line.z?, Line.value?_of_words_eq_nil hl]

variable {f : Nat → Nat} {between : Line α → Prop} {lines lines' : List (Line α)}

theorem cutsFrom_spaced (c : CheckingConstants α) (h : Line.Spaced f between lines lines')
    {s s' : ModalState α} (hs : s.Alike s') :
    cutsFrom c s' lines' = (cutsFrom c s lines).map (·.recounted f) := by
  induction h generalizing s s' with
  | nil => rfl
  | skip hwords _ _ ih =>
    rw [cutsFrom_cons c s' (staysWithTool_of_words_eq_nil hwords), cut?_of_words_eq_nil c s' hwords]
    exact ih (hs.next_of_words_eq_nil hwords)
  | keep l _ ih =>
    cases hl : staysWithTool l with
    | true =>
      rw [cutsFrom_cons c s hl, cutsFrom_cons c s' (l := l.recounted f) hl,
        ModalState.next_recounted, cut?_recounted c hs f l, ih (hs.next l), List.map_append]
      cases cut? c ⟨l, s, s.next l⟩ <;> rfl
    | false =>
      rw [cutsFrom_of_leaves c s hl, cutsFrom_of_leaves c s' (l := l.recounted f) hl]
      rfl

theorem blocks_cons_recounted (c : CheckingConstants α) {s s' : ModalState α} (l : Line α)
    (hcuts : cutsFrom c (s'.next l) lines' = (cutsFrom c (s.next l) lines).map (·.recounted f))
    (hblocks : blocks c ((s'.next l).steps lines')
      = (blocks c ((s.next l).steps lines)).map (·.recounted f)) :
    blocks c (s'.steps (l.recounted f :: lines'))
      = (blocks c (s.steps (l :: lines))).map (·.recounted f) := by
  have htool : (l.recounted f).tool? = l.tool? := rfl
  have hbore : isBoreTool (l.recounted f) = isBoreTool l := rfl
  rw [ModalState.steps, ModalState.steps, blocks, blocks, ModalState.next_recounted, htool, hbore]
  cases l.tool? with
  | none => exact hblocks
  | some tool =>
    cases isBoreTool l with
    | false => exact hblocks
    | true =>
      have hblock : blockOf c (f l.number) tool ((s'.next l).steps lines')
          = (blockOf c l.number tool ((s.next l).steps lines)).recounted f := by
        unfold cutsFrom at hcuts
        simp only [blockOf, BoreBlock.recounted, hcuts]
      show blockOf c (f l.number) tool ((s'.next l).steps lines') :: _ = _
      rw [hblock, hblocks]
      rfl

theorem blocks_spaced (c : CheckingConstants α) (h : Line.Spaced f between lines lines')
    {s s' : ModalState α} (hs : s.Alike s') :
    blocks c (s'.steps lines') = (blocks c (s.steps lines)).map (·.recounted f) := by
  induction h generalizing s s' with
  | nil => rfl
  | skip hwords _ _ ih =>
    rw [ModalState.steps, blocks, Line.tool?_of_words_eq_nil hwords]
    exact ih (hs.next_of_words_eq_nil hwords)
  | keep l hrest ih =>
    exact blocks_cons_recounted c l (cutsFrom_spaced c hrest (hs.next l)) (ih (hs.next l))

theorem stepFaults_recounted (c : CheckingConstants α) (tool : Nat) (reached : α)
    (cuts : List (BoreCut α)) : stepFaults c tool reached (cuts.map (·.recounted f))
      = (stepFaults c tool reached cuts).map (·.recounted f) := by
  induction cuts generalizing reached with
  | nil => rfl
  | cons cut cuts ih =>
    have hhead : stepFault? c tool reached (cut.recounted f)
        = (stepFault? c tool reached cut).map (·.recounted f) := by
      unfold stepFault?
      rw [apply_ite (Option.map _)]
      rfl
    rw [List.map_cons, stepFaults, stepFaults, hhead, List.map_append]
    cases stepFault? c tool reached cut <;> exact congrArg _ (ih _)

theorem checkBlock_recounted (c : CheckingConstants α) (b : BoreBlock α) :
    checkBlock c (b.recounted f) = (checkBlock c b).map (·.recounted f) := by
  unfold checkBlock BoreBlock.recounted
  cases b.cuts with
  | nil => rfl
  | cons cut cuts =>
    have hhead : entryFault? c b.tool (cut.recounted f)
        = (entryFault? c b.tool cut).map (·.recounted f) := by
      unfold entryFault?
      rw [apply_ite (Option.map _)]
      rfl
    have htail := stepFaults_recounted (f := f) c b.tool cut.diameter cuts
    simp only [List.map_cons, List.map_append]
    rw [hhead]
    cases entryFault? c b.tool cut <;> exact congrArg _ htail

theorem flatMap_checkBlock_recounted (c : CheckingConstants α) (bs : List (BoreBlock α)) :
    (bs.map (·.recounted f)).flatMap (checkBlock c)
      = (bs.flatMap (checkBlock c)).map (·.recounted f) := by
  rw [List.flatMap_map, List.map_flatMap]
  exact List.flatMap_congr fun b _ => checkBlock_recounted c b

theorem checkLines_spaced (c : CheckingConstants α) (h : Line.Spaced f between lines lines') :
    checkLines c lines' = (checkLines c lines).map (·.recounted f) := by
  rw [checkLines, collect, steps, blocks_spaced c h (.refl {}), flatMap_checkBlock_recounted]
  rfl

end Bore

/-! ## Features -/

namespace Features

variable {f : Nat → Nat} {between : Line α → Prop} {lines lines' : List (Line α)}

theorem tools_spaced (h : Line.Spaced f between lines lines') :
    (ofLines lines').tools = (ofLines lines).tools.map (·.recounted f) := by
  refine h.filterMap (fun l hl _ => ?_) fun l => ?_
  · rw [toolUse?, Line.tool?_of_words_eq_nil hl]
    rfl
  · rw [toolUse?, toolUse?, Option.map_map]
    rfl

theorem workOffsets_spaced (h : Line.Spaced f between lines lines') :
    (ofLines lines').workOffsets = (ofLines lines).workOffsets := by
  have hoffsets : lines'.filterMap workOffset? = (lines.filterMap workOffset?).map id :=
    h.filterMap (fun l hl _ => by simp [workOffset?, Line.has_of_words_eq_nil hl])
      fun l => Option.map_id_apply.symm
  rwa [List.map_id] at hoffsets

theorem deepestZ_spaced (h : Line.Spaced f between lines lines') :
    (ofLines lines').deepestZ = (ofLines lines).deepestZ := by
  have hheight {s s' : ModalState α} (l : Line α) : height? ⟨l.recounted f, s', s'.next l⟩
      = (height? ⟨l, s, s.next l⟩).map id := by
    simp only [height?, ModalState.next_machine, Option.map_id]
    rfl
  have hheights : (steps lines').filterMap height? = ((steps lines).filterMap height?).map id :=
    h.filterMap_steps
      (fun s l hl _ => by simp [height?, Line.z?, Line.value?_of_words_eq_nil hl])
      (fun _ l => hheight l) (.refl {})
  rw [List.map_id] at hheights
  exact congrArg Scalar.least? hheights

theorem marked?_recounted (mark : Mark) {s s' : ModalState α} (hs : s.Alike s') (f : Nat → Nat)
    (l : Line α) : marked? mark ⟨l.recounted f, s', s'.next l⟩
      = (marked? mark ⟨l, s, s.next l⟩).map (·.recounted f) := by
  unfold marked?
  rw [(hs.next l).x, apply_ite (Option.map _), Option.map_map]
  rfl

/-- A line without words between the others must not be marked itself, as it would then mark the
diameter that is in force. -/
theorem findSome?_marked?_spaced (mark : Mark)
    (h : Line.Spaced f (fun l => mark? l ≠ some mark) lines lines') :
    (steps lines').findSome? (marked? mark)
      = ((steps lines).findSome? (marked? mark)).map (·.recounted f) := by
  have hmarked := h.filterMap_steps (fun s l _ hl => if_neg hl)
    (fun hs l => marked?_recounted mark hs f l) (.refl {})
  rw [← List.head?_filterMap, ← List.head?_filterMap, ← List.head?_map]
  exact congrArg List.head? hmarked

end Features

/-! ## Lines put into a program -/

/-- A program with lines put in: those of the first number before its first line, those of the next
one before its second line, and so on up to those after its last line. -/
def Line.putIn (gaps : Nat → List String) : List String → List String
  | [] => gaps 0
  | raw :: rest => gaps 0 ++ raw :: putIn (fun k => gaps (k + 1)) rest

/-- The number that a line has when lines are put in. -/
def Line.numberAmid (gaps : Nat → List String) (n : Nat) : Nat :=
  n + ((List.range n).map fun k => (gaps k).length).sum

namespace Line.Spaced

variable {f : Nat → Nat} {between : Line α → Prop}

theorem parseFrom_append {gap : List String}
    (hgap : ∀ n, ∀ raw ∈ gap, (parse n raw : Line α).words = [] ∧ between (parse n raw)) (n : Nat)
    {lines lines' : List (Line α)} (h : Spaced f between lines lines') :
    Spaced f between lines (parseFrom n gap ++ lines') := by
  induction gap generalizing n with
  | nil => exact h
  | cons raw gap ih =>
    obtain ⟨hwords, hbetween⟩ := hgap n raw List.mem_cons_self
    exact .skip hwords hbetween (ih (fun n raw' h' => hgap n raw' (List.mem_cons_of_mem _ h')) _)

theorem parseFrom_putIn {gaps : Nat → List String}
    (hgaps : ∀ k n, ∀ raw ∈ gaps k, (parse n raw : Line α).words = [] ∧ between (parse n raw))
    (raws : List String) {m m' : Nat}
    (hf : ∀ i, f (m + i) = m' + i + ((List.range (i + 1)).map fun k => (gaps k).length).sum) :
    Spaced f between (parseFrom m raws) (parseFrom m' (putIn gaps raws)) := by
  induction raws generalizing gaps m m' with
  | nil =>
    have hlast := parseFrom_append (hgaps 0) m' (.nil (f := f))
    rwa [List.append_nil] at hlast
  | cons raw raws ih =>
    have hhere : f m = m' + (gaps 0).length := by simpa using hf 0
    -- The rest starts one line further on, behind the lines of the first gap.
    have hbehind (i : Nat) : f (m + 1 + i)
        = m' + (gaps 0).length + 1 + i
          + ((List.range (i + 1)).map fun k => (gaps (k + 1)).length).sum := by
      have hnext := hf (i + 1)
      rw [List.range_succ_eq_map, List.map_cons, List.sum_cons, List.map_map] at hnext
      rw [Nat.add_assoc, Nat.add_comm 1 i, hnext]
      simp only [Function.comp_def, Nat.succ_eq_add_one]
      omega
    have hrest := Spaced.keep (parse m raw) (ih (fun k => hgaps (k + 1)) hbehind)
    rw [← hhere] at hrest
    rw [Line.putIn, Line.parseFrom_append, Line.parseFrom, Line.parseFrom, ← hhere]
    exact parseFrom_append (hgaps 0) m' hrest

theorem of_putIn {gaps : Nat → List String}
    (hgaps : ∀ k n, ∀ raw ∈ gaps k, (parse n raw : Line α).words = [] ∧ between (parse n raw))
    (raws : List String) :
    Spaced (numberAmid gaps) between (parseAll raws) (parseAll (putIn gaps raws)) :=
  parseFrom_putIn hgaps raws fun i => by rw [numberAmid, Nat.add_comm 1 i]

end Line.Spaced

/-- Lines without words that are put into a program change nothing that is reported but the numbers
of its lines, and nothing that is read off as a feature.  For the marked diameters they must not be
marked themselves. -/
theorem Line.reported_putIn (c : CheckingConstants α) (raws : List String)
    {gaps : Nat → List String}
    (hgaps : ∀ k, ∀ raw ∈ gaps k, (parse 1 raw : Line α).words = []) :
    let lines : List (Line α) := parseAll raws
    let lines' : List (Line α) := parseAll (putIn gaps raws)
    let f := numberAmid gaps
    ((Detector.rapidPlunge c).run lines').diagnostics.map Diagnostic.withoutFix
        = (((Detector.rapidPlunge c).run lines).diagnostics.map Diagnostic.withoutFix).map
            (·.recounted f) ∧
      Bore.checkLines c lines' = (Bore.checkLines c lines).map (·.recounted f) ∧
      (Features.ofLines lines').tools = (Features.ofLines lines).tools.map (·.recounted f) ∧
      (Features.ofLines lines').workOffsets = (Features.ofLines lines).workOffsets ∧
      (Features.ofLines lines').deepestZ = (Features.ofLines lines).deepestZ ∧
      ((∀ k, ∀ raw ∈ gaps k, Features.mark? (parse 1 raw : Line α) ≠ some .centerBore) →
        (Features.ofLines lines').centerBore
          = (Features.ofLines lines).centerBore.map (·.recounted f)) ∧
      ((∀ k, ∀ raw ∈ gaps k, Features.mark? (parse 1 raw : Line α) ≠ some .outerBore) →
        (Features.ofLines lines').outerBore
          = (Features.ofLines lines).outerBore.map (·.recounted f)) := by
  intro lines lines' f
  have hspaced : Spaced f (fun _ => True) lines lines' :=
    .of_putIn (fun k _ raw hraw => ⟨hgaps k raw hraw, trivial⟩) raws
  have hmarked (mark : Features.Mark)
      (hmark : ∀ k, ∀ raw ∈ gaps k, Features.mark? (parse 1 raw : Line α) ≠ some mark) :
      (steps lines').findSome? (Features.marked? mark)
        = ((steps lines).findSome? (Features.marked? mark)).map (·.recounted f) :=
    Features.findSome?_marked?_spaced mark
      (.of_putIn (fun k _ raw hraw => ⟨hgaps k raw hraw, hmark k raw hraw⟩) raws)
  exact ⟨hspaced.map_withoutFix_run c, Bore.checkLines_spaced c hspaced,
    Features.tools_spaced hspaced, Features.workOffsets_spaced hspaced,
    Features.deepestZ_spaced hspaced, hmarked .centerBore, hmarked .outerBore⟩

/-- With two lines before every line and behind the last one, the move in the third line is reported
in the ninth, and the mark of the second line is found in the sixth. -/
theorem Line.reported_putIn_ninth_line :
    let raws := ["T101 (TURN)", "G00 X2. Z0.1 (X IS CB)", "Z-0.5"]
    let gaps : Nat → List String := fun _ => ["%", "(NOTE)"]
    let lines' : List (Line Float) := parseAll (putIn gaps raws)
    (∀ k, ∀ raw ∈ gaps k, (parse 1 raw : Line Float).words = []) ∧
      (∀ k, ∀ raw ∈ gaps k, Features.mark? (parse 1 raw : Line Float) ≠ some .centerBore) ∧
      ((Detector.rapidPlunge .standard).run lines').diagnostics.map Diagnostic.withoutFix
        = [{ finding := .rapidPlunge (-0.5) true, line := some 9 }] ∧
      (Features.ofLines lines').centerBore = some { line := 6, diameter := 2 } := by
  intro raws gaps lines'
  have hgaps : ∀ k, ∀ raw ∈ gaps k, (parse 1 raw : Line Float).words = [] :=
    fun _ => by decide +kernel
  have hmarks : ∀ k, ∀ raw ∈ gaps k, Features.mark? (parse 1 raw : Line Float) ≠ some .centerBore :=
    fun _ => by decide +kernel
  obtain ⟨hplunges, -, -, -, -, hbore, -⟩ := reported_putIn .standard raws hgaps
  refine ⟨hgaps, hmarks, hplunges.trans ?_, (hbore hmarks).trans ?_⟩
  · decide +kernel
  · decide +kernel

end SpacerTurning
