import SpacerTurning.Proofs.Generation.Work

/-!
Programs under two sources of templates.

A source of templates is asked for the settings of a cut and for nothing else.  Whether a program
comes about, and where every tool of it moves, is settled without one.  So two sources lead to one
refusal, or to two programs of the same path: the spindle may turn at another speed, and a cut may
be made at another feed.
-/

namespace SpacerTurning

/-! ## Outcomes side by side -/

/-- One refusal on both sides, or two results of which something holds. -/
inductive OutcomeRel {ε β γ : Type} (R : β → γ → Prop) : Except ε β → Except ε γ → Prop
  | error (e : ε) : OutcomeRel R (.error e) (.error e)
  | ok {b : β} {c : γ} : R b c → OutcomeRel R (.ok b) (.ok c)

namespace OutcomeRel

variable {ε β β' γ γ' δ : Type} {R : β → β' → Prop} {S : γ → γ' → Prop}

theorem bind {x : Except ε β} {x' : Except ε β'} {f : β → Except ε γ} {g : β' → Except ε γ'}
    (hx : OutcomeRel R x x') (h : ∀ b b', R b b' → OutcomeRel S (f b) (g b')) :
    OutcomeRel S (x >>= f) (x' >>= g) := by
  cases hx with
  | error e => exact .error e
  | ok hresult => exact h _ _ hresult

/-- Two computations that begin with one step. -/
theorem after {x : Except ε β} {f : β → Except ε γ} {g : β → Except ε γ'}
    (h : ∀ b, OutcomeRel S (f b) (g b)) : OutcomeRel S (x >>= f) (x >>= g) := by
  cases x with
  | error e => exact .error e
  | ok b => exact h b

theorem map {x : Except ε β} {f : β → γ} {g : β → γ'} (h : ∀ b, S (f b) (g b)) :
    OutcomeRel S (x.map f) (x.map g) := by
  cases x with
  | error e => exact .error e
  | ok b => exact .ok (h b)

/-- The first refusal comes at one place on both sides. -/
theorem mapM {f : δ → Except ε β} {g : δ → Except ε β'} (h : ∀ d, OutcomeRel R (f d) (g d))
    (ds : List δ) : OutcomeRel (List.Forall₂ R) (ds.mapM f) (ds.mapM g) := by
  induction ds with
  | nil => exact .ok .nil
  | cons d ds ih =>
    rw [List.mapM_cons, List.mapM_cons]
    exact (h d).bind fun _ _ hfirst => ih.bind fun _ _ hrest => .ok (.cons hfirst hrest)

end OutcomeRel

/-! ## The same path -/

variable {α : Type}

/-- One move, or two cuts that differ in their feeds. -/
inductive Motion.SamePath : Motion α → Motion α → Prop
  | same (m : Motion α) : SamePath m m
  | cut (m : Motion α) (hcut : m.mode = some .linear) (feed feed' : α) :
      SamePath { m with feed := some feed } { m with feed := some feed' }

/-- One block, two blocks that set the spindle, or two moves of the same path. -/
inductive Block.SamePath : Block α → Block α → Prop
  | same (b : Block α) : SamePath b b
  | spindle {b b' : Block α} : b.isSpindle = true → b'.isSpindle = true → SamePath b b'
  | motion {m m' : Motion α} : m.SamePath m' → SamePath (.motion m) (.motion m')

structure Section.SamePath (s s' : Section α) : Prop where
  kind : s.kind = s'.kind
  blocks : List.Forall₂ Block.SamePath s.blocks s'.blocks

structure Program.SamePath (p p' : Program α) : Prop where
  number : p.number = p'.number
  title : p.title = p'.title
  sections : List.Forall₂ Section.SamePath p.sections p'.sections

namespace Motion

attribute [simp] SamePath.same

@[simp] theorem samePath_feedZ (feed feed' z : α) : SamePath (feedZ feed z) (feedZ feed' z) :=
  .cut (feedZ feed z) rfl feed feed'

@[simp] theorem samePath_feedX (feed feed' x : α) : SamePath (feedX feed x) (feedX feed' x) :=
  .cut (feedX feed x) rfl feed feed'

@[simp] theorem samePath_feedXZ (feed feed' x z : α) :
    SamePath (feedXZ feed x z) (feedXZ feed' x z) := .cut (feedXZ feed x z) rfl feed feed'

theorem SamePath.marked {m m' : Motion α} (h : m.SamePath m') (marker : Option DiameterMarker) :
    SamePath { m with marker } { m' with marker } := by
  cases h with
  | same m => exact .same _
  | cut m hcut feed feed' => exact .cut { m with marker } hcut feed feed'

end Motion

namespace Section

theorem SamePath.refl (s : Section α) : s.SamePath s where
  kind := rfl
  blocks := List.forall₂_same.2 fun b _ => .same b

end Section

namespace Job

def withTemplates (j : Job α) (templates : Templates α) : Job α := { j with templates }

@[simp] theorem part_withTemplates (j : Job α) (templates : Templates α) :
    (j.withTemplates templates).part = j.part := rfl

@[simp] theorem constants_withTemplates (j : Job α) (templates : Templates α) :
    (j.withTemplates templates).constants = j.constants := rfl

@[simp] theorem depths_withTemplates (j : Job α) (templates : Templates α) :
    (j.withTemplates templates).depths = j.depths := rfl

@[simp] theorem clearance_withTemplates (j : Job α) (templates : Templates α) :
    (j.withTemplates templates).clearance = j.clearance := rfl

@[simp] theorem outsideStock_withTemplates [Scalar α] (j : Job α) (templates : Templates α) :
    (j.withTemplates templates).outsideStock = j.outsideStock := rfl

@[simp] theorem insideBore_withTemplates [Scalar α] (j : Job α) (templates : Templates α) :
    (j.withTemplates templates).insideBore = j.insideBore := rfl

/-- Moves for two feeds. -/
abbrev SameMoves (moves moves' : List (Motion α)) : Prop :=
  List.Forall₂ Motion.SamePath moves moves'

theorem samePath_toolRun (j : Job α) (templates : Templates α) (tool : Nat) (comment : String)
    (settings settings' : CutSettings α) (side : Side) {moves moves' : List (Motion α)}
    (h : SameMoves moves moves') :
    List.Forall₂ Block.SamePath (j.toolRun tool comment settings side moves)
      ((j.withTemplates templates).toolRun tool comment settings' side moves') := by
  have hmoves : List.Forall₂ Block.SamePath (moves.map .motion) (moves'.map .motion) := by
    rw [List.forall₂_map_left_iff, List.forall₂_map_right_iff]
    exact h.imp fun _ _ => .motion
  refine List.rel_append (List.rel_append ?_ hmoves) (List.forall₂_same.2 fun b _ => .same b)
  exact .cons (.same _) (.cons (.spindle (isSpindle_spindleBlock _) (isSpindle_spindleBlock _))
    (.cons (.same _) (.cons (.same _) .nil)))

variable [Scalar α] (feeds feeds' : FeedRates α)

theorem sameMoves_passMoves (clearance : α) (mark : Option (α × DiameterMarker)) (first : Bool)
    (pass : Pass α) :
    SameMoves (passMoves clearance feeds mark first pass)
      (passMoves clearance feeds' mark first pass) := by
  unfold passMoves
  cases pass.kind <;> simp

theorem sameMoves_boringMoves (clearance : α) (mark : Option (α × DiameterMarker))
    (passes : List (Pass α)) :
    SameMoves (boringMoves clearance feeds mark passes)
      (boringMoves clearance feeds' mark passes) := by
  cases passes with
  | nil => exact .nil
  | cons pass rest =>
    refine List.rel_append (sameMoves_passMoves feeds feeds' clearance mark true pass) ?_
    induction rest with
    | nil => exact .nil
    | cons next rest ih =>
      exact List.rel_append (sameMoves_passMoves feeds feeds' clearance mark false next) ih

theorem sameMoves_faceMoves (j : Job α) (faceTo : α) :
    SameMoves (j.faceMoves feeds faceTo) (j.faceMoves feeds' faceTo) := by
  simp [faceMoves]

theorem sameMoves_hubRoughMoves (j : Job α) (hub : Hub α) (increment : α) :
    SameMoves (j.hubRoughMoves feeds hub increment) (j.hubRoughMoves feeds' hub increment) := by
  unfold hubRoughMoves
  induction hubLevels hub.height increment with
  | nil => exact .nil
  | cons z levels ih =>
    rw [List.flatMap_cons, List.flatMap_cons]
    exact List.rel_append (by simp) ih

theorem sameMoves_hubFinishMoves (j : Job α) (hub : Hub α) :
    SameMoves (j.hubFinishMoves feeds hub) (j.hubFinishMoves feeds' hub) := by
  simp [hubFinishMoves, Motion.SamePath.marked]

/-! ## Sections -/

theorem samePath_boreChamferRun (j : Job α) (templates : Templates α) :
    List.Forall₂ Block.SamePath j.boreChamferRun (j.withTemplates templates).boreChamferRun := by
  refine j.samePath_toolRun templates _ _ _ _ _ ?_
  simp

omit [Scalar α] in
/-- The section of one tool. -/
theorem samePath_section (j : Job α) (templates : Templates α) (kind : SectionKind) (tool : Nat)
    (comment : String) (settings settings' : CutSettings α) (side : Side)
    {moves moves' : List (Motion α)} (h : SameMoves moves moves') :
    Section.SamePath { kind, blocks := j.toolRun tool comment settings side moves }
      { kind, blocks := (j.withTemplates templates).toolRun tool comment settings' side moves' } where
  kind := rfl
  blocks := j.samePath_toolRun templates tool comment settings settings' side h

theorem samePath_hubSection (j : Job α) (templates : Templates α) (hub : Hub α) (increment : α)
    (comment : String) :
    OutcomeRel Section.SamePath (j.hubSection hub increment comment)
      ((j.withTemplates templates).hubSection hub increment comment) := by
  refine .after fun _ => .ok (j.samePath_section templates _ _ _ _ _ _ ?_)
  refine List.rel_append (List.rel_append ?_ (sameMoves_hubRoughMoves _ _ j hub increment))
    (sameMoves_hubFinishMoves _ _ j hub)
  simp

theorem samePath_ringPocketSection (j : Job α) (templates : Templates α) :
    OutcomeRel Section.SamePath j.ringPocketSection
      (j.withTemplates templates).ringPocketSection :=
  .after fun _ => .after fun passes => .ok <|
    j.samePath_section templates _ _ _ _ _ _ (sameMoves_boringMoves _ _ j.clearance none passes)

theorem samePath_shelfCleanupSection (j : Job α) (templates : Templates α) (hub : Hub α) :
    OutcomeRel Section.SamePath (j.shelfCleanupSection hub)
      ((j.withTemplates templates).shelfCleanupSection hub) := by
  refine .after fun shelf => .after fun bored => .after fun start => .after fun passes => .ok ?_
  refine ⟨rfl, List.rel_append ?_ (j.samePath_boreChamferRun templates)⟩
  exact j.samePath_toolRun templates _ _ _ _ _ (sameMoves_boringMoves _ _ j.clearance none passes)

/-- Where the tools of a section move does not depend on the templates. -/
theorem samePath_sectionOf (j : Job α) (templates : Templates α) (kind : SectionKind) :
    OutcomeRel Section.SamePath (j.sectionOf kind)
      ((j.withTemplates templates).sectionOf kind) := by
  have hface (faceTo : α) (feeds feeds' : FeedRates α) {moves moves' : List (Motion α)}
      (h : SameMoves moves moves') :
      SameMoves (j.faceMoves feeds faceTo ++ moves) (j.faceMoves feeds' faceTo ++ moves') :=
    List.rel_append (sameMoves_faceMoves feeds feeds' j faceTo) h
  cases kind with
  | header | flip | footer => exact .ok (.refl _)
  | op1Drill => exact .ok (j.samePath_section templates _ _ _ _ _ _ (by simp))
  | op1Bore =>
    exact .map fun passes => j.samePath_section templates _ _ _ _ _ _
      (sameMoves_boringMoves _ _ j.clearance _ passes)
  | op1Turn => exact .ok (j.samePath_section templates _ _ _ _ _ _ (hface _ _ _ (by simp)))
  | op2Turn =>
    show OutcomeRel Section.SamePath j.op2TurnSection (j.withTemplates templates).op2TurnSection
    simp only [op2TurnSection, part_withTemplates]
    cases j.part.variant with
    | hubCentric hub | thinLip hub | twoPieceStud hub =>
      exact j.samePath_hubSection templates hub _ _
    | standard | step _ | twoPieceLug _ | steelRing =>
      exact .ok (j.samePath_section templates _ _ _ _ _ _ (hface _ _ _ (by simp)))
  | op2Chamfer =>
    show OutcomeRel Section.SamePath j.op2ChamferSection
      (j.withTemplates templates).op2ChamferSection
    simp only [op2ChamferSection, part_withTemplates]
    cases j.part.variant with
    | thinLip hub => exact j.samePath_shelfCleanupSection templates hub
    | steelRing => exact j.samePath_ringPocketSection templates
    | standard | hubCentric _ | step _ | twoPieceLug _ | twoPieceStud _ =>
      exact .ok ⟨rfl, j.samePath_boreChamferRun templates⟩

/-! ## Programs -/

/-- A job asks its templates for nothing while it is resolved. -/
theorem resolve_withTemplates (part : Part α) (lathe : Lathe α) (constants : CuttingConstants α)
    (templates templates' : Templates α) :
    resolve part lathe constants templates'
      = (resolve part lathe constants templates).map (·.withTemplates templates') := by
  simp only [resolve]
  cases Depths.lookup part.thickness.key (some part.thickness.inches)
      constants.drillBreakthrough with
  | error refusal => rfl
  | ok found =>
    cases WorkOffsets.find part.lathe part.thickness.key with
    | error refusal => rfl
    | ok offsets => rfl

end Job

variable [Scalar α]

theorem Program.samePath_ofJob (j : Job α) (templates : Templates α) :
    OutcomeRel SamePath (ofJob j) (ofJob (j.withTemplates templates)) := by
  -- the order of the sections goes by the kind of the part, and that is one on both sides
  have h := OutcomeRel.mapM (j.samePath_sectionOf templates) j.part.kind.sectionOrder
  exact h.bind fun _ _ hsections => .ok ⟨rfl, rfl, hsections⟩

/-- A part is refused under one source of templates if and only if it is refused under another, with
one refusal; and its programs differ in the speeds of the spindle and the feeds of cuts alone. -/
theorem Program.samePath_build (lathes : Lathes α) (constants : CuttingConstants α)
    (templates templates' : Templates α) (part : Part α) :
    OutcomeRel SamePath (build lathes constants templates part)
      (build lathes constants templates' part) := by
  refine .after fun _ => ?_
  cases lathes.get? part.lathe with
  | none => exact .error _
  | some lathe =>
    show OutcomeRel SamePath (Job.resolve part lathe constants templates >>= ofJob)
      (Job.resolve part lathe constants templates' >>= ofJob)
    rw [Job.resolve_withTemplates part lathe constants templates templates']
    cases Job.resolve part lathe constants templates with
    | error refusal => exact .error refusal
    | ok j => exact samePath_ofJob j templates'

end SpacerTurning
