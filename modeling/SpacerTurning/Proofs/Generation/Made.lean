import SpacerTurning.Check.Features
import SpacerTurning.Proofs.Generation.Deepest
import SpacerTurning.Proofs.Program.Decoding

/-!
What a job writes, and what is found in it.

A tool, an offset and a height are each said by a line of their own, and are found there as the block
has them, since the numbers of stations and slots fit into a code.  What is told to the operator is
either written by somebody, and then stands in the head of the program, or is a caption that cannot be
taken for a mark.
-/

namespace SpacerTurning

open Number

/-! ## What blocks have -/

/-- How a mark is found in a comment. -/
def DiameterMarker.mark : DiameterMarker → Features.Mark
  | .centerBore => .centerBore
  | .outerBore => .outerBore

/-- The tool that a block takes up, and what for. -/
def Block.toolUse? : Block Rat → Option (Nat × Option String)
  | .toolChange tool text => some (tool, some text)
  | _ => none

def Block.workOffset? : Block Rat → Option Nat
  | .workOffset slot => some slot
  | _ => none

def Block.marker? : Block Rat → Option DiameterMarker
  | .motion m => m.marker
  | _ => none

/-- The diameter that a block marks, as it is written. -/
def Block.marked? (marker : DiameterMarker) : Block Rat → Option Rat
  | .motion m => if m.marker = some marker then m.x.map Scalar.round4 else none
  | _ => none

/-- The last slot of a work offset. -/
def WorkOffsets.last : Nat := 68

/-- A text in capitals of ASCII, without the letter that a mark begins with. -/
def isCaption (text : String) : Bool :=
  text.toList.all fun c => decide (c.toNat < 128) && c.toUpper == c && c != 'X'

theorem of_isCaption {text : String} (h : isCaption text = true) :
    ∀ c ∈ text.toList, (c.toNat < 128 ∧ c.toUpper = c) ∧ c ≠ 'X' := by
  simpa [isCaption] using h

/-- What blocks that a job makes say: numbers fit into a code, and what is told to the operator behind
the head of the program is known. -/
def Block.IsMade : Block Rat → Prop
  | .toolChange tool text => tool ≤ Scalar.codeLimit ∧ text ∈ "BORE" :: Job.otherWork
  | .workOffset slot => slot ≤ WorkOffsets.last
  | .programStop message => ∀ text ∈ message, isCaption text = true
  | .motion m => m.marker.isSome = true → m.x.isSome = true
  | _ => True

/-- A block that says what somebody wrote. -/
def Block.isHeading : Block Rat → Bool
  | .programNumber _ _ | .comment _ => true
  | _ => false

namespace Block

variable {b : Block Rat} {l : Line Rat}

theorem IsMade.toolFits (hb : b.IsMade) : b.ToolFits := by
  cases b with
  | toolChange tool text => exact hb.1
  | percent | programNumber _ _ | comment _ | constantSurfaceSpeed _ _ | fixedSpeed _
  | workOffset _ | coolantOn | coolantOff | motion _ | machineHome _ _ | programStop _
  | optionalStop | programEnd => trivial

/-- The names of the tools' work are read as they are written. -/
theorem remark_work {text : String} (h : text ∈ "BORE" :: Job.otherWork) :
    remark (commentBody text) = some text := by
  have hall : ∀ text ∈ "BORE" :: Job.otherWork, remark (commentBody text) = some text := by
    decide +kernel
  exact hall text h

theorem toolUse?_reading (hb : b.IsMade) (hl : l.reading ∈ b.readings) :
    (Features.toolUse? l).map (fun u => (u.tool, u.comment)) = b.toolUse? := by
  by_cases htool : ∃ tool text, b = .toolChange tool text
  · obtain ⟨tool, text, rfl⟩ := htool
    obtain ⟨hfits, htext⟩ := hb
    obtain ⟨number, raw, words, comment⟩ := l
    obtain ⟨rfl, rfl⟩ : _ ∧ _ := by simpa [readings, Line.reading] using hl
    simp [Features.toolUse?, Line.tool?, toolUse?, remark_work htext, hfits]
  · have hnone : l.tool? = none := tool?_reading (fun tool text h => htool ⟨tool, text, h⟩) hl
    rw [Features.toolUse?, hnone]
    cases b with
    | toolChange tool text => exact absurd ⟨tool, text, rfl⟩ htool
    | percent | programNumber _ _ | comment _ | constantSurfaceSpeed _ _ | fixedSpeed _
    | workOffset _ | coolantOn | coolantOff | motion _ | machineHome _ _ | programStop _
    | optionalStop | programEnd => rfl

theorem workOffset?_reading (hb : b.IsMade) (hl : l.reading ∈ b.readings) :
    Features.workOffset? l = b.workOffset? := by
  obtain ⟨number, raw, words, comment⟩ := l
  cases b with
  | workOffset slot =>
    have hslot : slot ≤ Scalar.codeLimit := le_trans (b := WorkOffsets.last) hb (by decide)
    obtain ⟨rfl, -⟩ : _ ∧ _ := by simpa [readings, Line.reading] using hl
    simp [Features.workOffset?, Line.has, Scalar.codeLimit, workOffset?]
    exact hslot
  | motion m =>
    obtain ⟨mode, x, z, feed, marker⟩ := m
    obtain ⟨rfl, -⟩ : _ ∧ _ := by simpa [readings, Line.reading, Motion.reading] using hl
    rcases mode with _ | _ | _ <;> cases x <;> cases z <;> cases feed <;>
      simp [Features.workOffset?, Line.has, MotionMode.code, Scalar.codeLimit, workOffset?]
  | constantSurfaceSpeed maxRpm css =>
    simp only [readings, Line.reading, List.mem_cons, List.not_mem_nil, or_false,
      Reading.mk.injEq] at hl
    rcases hl with ⟨rfl, -⟩ | ⟨rfl, -⟩ <;>
      simp [Features.workOffset?, Line.has, Scalar.codeLimit, workOffset?]
  | programStop message =>
    cases message <;>
    · obtain ⟨rfl, -⟩ : _ ∧ _ := by simpa [readings, Line.reading] using hl
      simp [Features.workOffset?, Line.has, workOffset?]
  | percent | programNumber _ _ | comment _ | toolChange _ _ | fixedSpeed _ | coolantOn | coolantOff
  | machineHome _ _ | optionalStop | programEnd =>
    obtain ⟨rfl, -⟩ : _ ∧ _ := by simpa [readings, Line.reading] using hl
    simp [Features.workOffset?, Line.has, Scalar.codeLimit, workOffset?]

theorem height?_reading (hb : b.IsMade) (hl : l.reading ∈ b.readings) (s : ModalState Rat) :
    Features.height? ⟨l, s, s.next l⟩ = b.z?.map Scalar.round4 := by
  have hnext := next_reading hb.toolFits hl s
  unfold Features.height?
  simp only [hnext]
  cases b with
  | motion m =>
    have hwords : l.words = m.reading.words :=
      congrArg Reading.words (List.mem_singleton.1 hl)
    rw [(m.words_values hwords).2.1]
    rfl
  | machineHome x z => rfl
  | toolChange tool text =>
    obtain ⟨number, raw, words, comment⟩ := l
    obtain ⟨rfl, -⟩ : _ ∧ _ := by simpa [readings, Line.reading] using hl
    rfl
  | percent | programNumber _ _ | comment _ | constantSurfaceSpeed _ _ | fixedSpeed _
  | workOffset _ | coolantOn | coolantOff | programStop _ | optionalStop | programEnd =>
    rw [(isStill_reading rfl hl).z]
    simp [z?]

theorem holds_eq_false {part cs : List Char} {c : Char} (hpart : c ∈ part) (hcs : c ∉ cs) :
    holds part cs = false := by
  induction cs with
  | nil => simpa [holds] using List.ne_nil_of_mem hpart
  | cons c' cs ih =>
    have hprefix : part.isPrefixOf (c' :: cs) = false := by
      rw [Bool.eq_false_iff, ne_eq, List.isPrefixOf_iff_prefix]
      exact fun h => hcs (h.subset hpart)
    rw [holds, hprefix, ih fun h => hcs (List.mem_cons_of_mem _ h), Bool.false_or]

/-- A caption marks nothing. -/
theorem mark?_caption {text : String} (h : isCaption text = true)
    (hcomment : l.comment = remark (commentBody text)) : Features.mark? l = none := by
  have hself {cs : List Char} (hcs : ∀ c ∈ cs, c ∈ text.toList) : Text.capitalize cs = cs :=
    Text.capitalize_eq_self fun c hc => (of_isCaption h c (hcs c hc)).1
  have hbody : ∀ c ∈ Text.trim (commentBody text), c ∈ text.toList := by
    intro c hc
    have hc : c ∈ commentBody text := (List.dropWhile_suffix _).subset (Edit.mem_trimEnd hc)
    rw [commentBody, hself fun c hc => (List.mem_filter.1 hc).1] at hc
    exact (List.mem_filter.1 hc).1
  -- Only blanks and parentheses are taken from a caption, so that no letter comes in.
  have hx : 'X' ∉ l.commentCapitals := by
    rw [Line.commentCapitals, hcomment, remark]
    split
    · exact List.not_mem_nil
    · rw [Option.getD_some, String.toList_ofList, hself hbody]
      exact fun hc => (of_isCaption h _ (hbody _ hc)).2 rfl
  have hcenter : holds "X IS CB".toList l.commentCapitals = false :=
    holds_eq_false (c := 'X') (by decide) hx
  have houter : holds "X IS OB".toList l.commentCapitals = false :=
    holds_eq_false (c := 'X') (by decide) hx
  rw [Features.mark?, hcenter, houter]
  rfl

/-- The mark that a comment makes. -/
theorem mark?_reading (hb : b.IsMade) (hheading : b.isHeading = false)
    (hl : l.reading ∈ b.readings) : Features.mark? l = b.marker?.map DiameterMarker.mark := by
  have hempty : isCaption "" = true := by decide
  have hsilent (h : l.comment = none) : Features.mark? l = none :=
    mark?_caption hempty (h.trans remark_empty.symm)
  cases b with
  | programNumber _ _ | comment _ => cases hheading
  | motion m =>
    have hcomment : l.comment = m.marker.map DiameterMarker.remark :=
      congrArg Reading.comment (List.mem_singleton.1 hl)
    unfold Features.mark? Line.commentCapitals
    rw [hcomment, marker?]
    rcases m.marker with _ | _ | _ <;> decide +kernel
  | toolChange tool text =>
    have hcaption : ∀ text ∈ "BORE" :: Job.otherWork, isCaption text = true := by
      decide +kernel
    exact mark?_caption (hcaption text hb.2) (congrArg Reading.comment (List.mem_singleton.1 hl))
  | programStop message =>
    cases message with
    | none => exact hsilent (congrArg Reading.comment (List.mem_singleton.1 hl))
    | some text =>
      exact mark?_caption (hb text rfl) (congrArg Reading.comment (List.mem_singleton.1 hl))
  | constantSurfaceSpeed maxRpm css =>
    simp only [readings, List.mem_cons, List.not_mem_nil, or_false] at hl
    rcases hl with hl | hl <;> exact hsilent (congrArg Reading.comment hl)
  | percent | fixedSpeed _ | workOffset _ | coolantOn | coolantOff | machineHome _ _ | optionalStop
  | programEnd => exact hsilent (congrArg Reading.comment (List.mem_singleton.1 hl))

theorem marked?_reading (hb : b.IsMade) (hheading : b.isHeading = false)
    (hl : l.reading ∈ b.readings) (marker : DiameterMarker) (s : ModalState Rat) :
    (Features.marked? marker.mark ⟨l, s, s.next l⟩).map (·.diameter) = b.marked? marker := by
  have hmark := mark?_reading hb hheading hl
  have hmark_iff (found : DiameterMarker) : found.mark = marker.mark ↔ found = marker := by
    cases found <;> cases marker <;> decide
  unfold Features.marked?
  simp only [hmark]
  cases b with
  | motion m =>
    have hwords : l.words = m.reading.words :=
      congrArg Reading.words (List.mem_singleton.1 hl)
    have hx := (m.words_values hwords).1
    rw [marker?, marked?, hx]
    cases hmarker : m.marker with
    | none => simp
    | some found =>
      obtain ⟨x, hmx⟩ := Option.isSome_iff_exists.1 (hb (by rw [hmarker]; rfl))
      by_cases heq : found = marker <;> simp [hmark_iff, heq, hmx]
  | percent | programNumber _ _ | comment _ | toolChange _ _ | constantSurfaceSpeed _ _
  | fixedSpeed _ | workOffset _ | coolantOn | coolantOff | machineHome _ _ | programStop _
  | optionalStop | programEnd => simp [marker?, marked?]

end Block

/-! ## What a job makes -/

/-- The numbers of stations fit into a code. -/
structure Stations.Fit (tools : Stations) : Prop where
  drill : tools.drill ≤ Scalar.codeLimit
  bore : tools.bore ≤ Scalar.codeLimit
  turn : tools.turn ≤ Scalar.codeLimit
  chamfer : tools.chamfer ≤ Scalar.codeLimit

theorem WorkOffsets.side_le_last {lathe : LatheId} {key : String} {offsets : WorkOffsets}
    (h : get? lathe key = some offsets) (side : Side) : offsets.side side ≤ last := by
  have hall : ∀ class_, ∀ row ∈ table class_, row.2.op1 ≤ last ∧ row.2.op2 ≤ last := by
    intro class_
    cases class_ <;> decide
  obtain ⟨pre, post, hrow, -⟩ := List.lookup_eq_some_iff.1 h
  obtain ⟨hop1, hop2⟩ := hall _ (key, offsets) (by rw [hrow]; simp)
  cases side
  · exact hop1
  · exact hop2

namespace Job

variable {j : Job Rat} {kind : SectionKind} {s : Section Rat}

theorem fits_of_toolChange_mem (hfit : j.lathe.tools.Fit) (h : j.sectionOf kind = .ok s) {tool : Nat}
    {text : String} (hmem : .toolChange tool text ∈ s.blocks) : tool ≤ Scalar.codeLimit := by
  have hrun {station : Nat} (hstation : station ≤ Scalar.codeLimit) {name : String}
      {settings : CutSettings Rat} {side : Side} {moves : List (Motion Rat)}
      (hmem : .toolChange tool text ∈ j.toolRun station name settings side moves) :
      tool ≤ Scalar.codeLimit := by
    rcases of_mem_toolRun hmem with heq | heq | ⟨m, -, heq⟩ | hservice
    · cases heq
      exact hstation
    · cases heq
    · cases heq
    · cases hservice
  cases kind with
  | header | flip | footer => cases isIdle_of_mem h rfl _ hmem
  | op1Drill =>
    cases h
    exact hrun hfit.drill hmem
  | op1Bore =>
    obtain ⟨passes, -, rfl⟩ := map_eq_ok.1 h
    exact hrun hfit.bore hmem
  | op1Turn =>
    cases h
    exact hrun hfit.turn hmem
  | op2Turn =>
    rcases of_op2TurnSection h with ⟨hub, increment, comment, -, -, h⟩ | ⟨-, rfl⟩
    · rw [of_hubSection h] at hmem
      exact hrun hfit.turn hmem
    · exact hrun hfit.turn hmem
  | op2Chamfer =>
    obtain ⟨-, ⟨_, _, _, hs⟩ | ⟨_, _, _, hs⟩ | hs⟩ := of_op2ChamferSection h <;> rw [hs] at hmem
    · exact (List.mem_append.1 hmem).elim (hrun hfit.bore) (hrun hfit.chamfer)
    · exact hrun hfit.bore hmem
    · exact hrun hfit.chamfer hmem

/-- Behind the head of a program nobody's words are written. -/
theorem isMade_sectionOf (hfit : j.lathe.tools.Fit)
    (hoffsets : ∀ side, j.offsets.side side ≤ WorkOffsets.last)
    (h : j.sectionOf kind = .ok s)
    (hmarks : ∀ m, .motion m ∈ s.blocks → m.marker.isSome = true → m.x.isSome = true) :
    ∀ b ∈ s.blocks, b.IsMade ∧ (kind ≠ .header → b.isHeading = false) := by
  intro b hb
  by_cases hidle : kind.isIdle = true
  · cases kind with
    | header =>
      cases h
      simp only [header, List.cons_append, List.nil_append, List.mem_cons, List.mem_append,
        Option.mem_toList, Option.map_eq_some_iff] at hb
      rcases hb with rfl | rfl | rfl | rfl | ⟨hub, -, rfl⟩ | ⟨shelf, -, rfl⟩ <;>
        exact ⟨trivial, fun hne => absurd rfl hne⟩
    | flip =>
      cases h
      have hcaption : ∀ slot ≤ WorkOffsets.last,
          isCaption ("FLIP PART OP2 " ++ workOffsetWord slot) = true := by
        unfold WorkOffsets.last
        decide +kernel
      simp only [flip, List.mem_cons, List.not_mem_nil, or_false] at hb
      rcases hb with rfl | rfl
      · exact ⟨trivial, fun _ => rfl⟩
      · refine ⟨fun text htext => ?_, fun _ => rfl⟩
        rw [← Option.some.inj htext]
        exact hcaption _ (hoffsets .op2)
    | footer =>
      cases h
      simp only [footer, List.mem_cons, List.not_mem_nil, or_false] at hb
      rcases hb with rfl | rfl <;> exact ⟨trivial, fun _ => rfl⟩
    | op1Drill | op1Bore | op1Turn | op2Turn | op2Chamfer => cases hidle
  · obtain ⟨runs, -, hblocks, -, hcomment, -⟩ := isRuns_sectionOf h (by simpa using hidle)
    have hmem := hb
    rw [hblocks] at hb
    obtain ⟨r, hr, hb⟩ := List.mem_flatMap.1 hb
    rcases of_mem_toolRun hb with rfl | rfl | ⟨m, hm, rfl⟩ | hservice
    · refine ⟨⟨fits_of_toolChange_mem hfit h hmem, ?_⟩, fun _ => rfl⟩
      rcases hcomment r hr with hother | ⟨hbore, -⟩
      · exact List.mem_cons_of_mem _ hother
      · rw [hbore]
        exact List.mem_cons_self
    · exact ⟨hoffsets r.side, fun _ => rfl⟩
    · exact ⟨hmarks m hmem, fun _ => rfl⟩
    · cases b <;> first | exact ⟨trivial, fun _ => rfl⟩ | cases hservice

end Job

end SpacerTurning
