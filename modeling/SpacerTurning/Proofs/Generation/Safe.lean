import SpacerTurning.Proofs.Check.Quiet
import SpacerTurning.Proofs.Generation.Runs
import SpacerTurning.Proofs.Program.Reading

/-!
Generated programs are safe to read.

Every block of a program that was built is a safe move or no move at all, and no text in it but the
title can break a line.  Written and read again, each of its lines is therefore a safe line.
-/

namespace SpacerTurning

open Number

def Block.IsSafe {α : Type} (clearance : α) : Block α → Prop
  | .motion m => m.IsSafe clearance
  | _ => True

section

variable {α : Type} [Scalar α]

omit [Scalar α] in
theorem Job.runBlocks_isSafe {j : Job α} {r : Run α} (h : j.AllSafe r.moves) :
    ∀ b ∈ j.runBlocks r, b.IsSafe j.clearance := by
  intro b hb
  rcases of_mem_toolRun hb with rfl | rfl | ⟨m, hm, rfl⟩ | hservice
  · trivial
  · trivial
  · exact h m hm
  · cases b <;> trivial

theorem Job.sectionOf_isSafe {j : Job α} {kind : SectionKind} {s : Section α}
    (h : j.sectionOf kind = .ok s) : ∀ b ∈ s.blocks, b.IsSafe j.clearance := by
  intro b hb
  by_cases hkind : kind.isIdle = true
  · have hidle := isIdle_of_mem h hkind b hb
    cases b <;> trivial
  · obtain ⟨runs, -, hblocks, hsafe, -⟩ := isRuns_sectionOf h (by simpa using hkind)
    rw [hblocks] at hb
    obtain ⟨r, hr, hb⟩ := List.mem_flatMap.1 hb
    exact runBlocks_isSafe (hsafe r hr) b hb

/-- Every move of a program that was built is safe at the clearance height. -/
theorem Program.blocks_isSafe {j : Job α} {p : Program α} (h : ofJob j = .ok p) :
    ∀ b ∈ p.blocks, b.IsSafe j.clearance := by
  intro b hb
  obtain ⟨s, hs, hb⟩ := List.mem_flatMap.1 hb
  obtain ⟨kind, -, hkind⟩ := exists_sectionOf h hs
  exact Job.sectionOf_isSafe hkind b hb

end

/-! ## Texts in a program -/

/-- Every thickness that has work offsets has a row in the depth table, which drills deep enough
for the bore to be seen. -/
theorem WorkOffsets.of_get? {lathe : LatheId} {key : String} {offsets : WorkOffsets}
    (h : get? lathe key = some offsets) :
    '\n' ∉ key.toList ∧
      ∃ depths : Depths Rat, Depths.row? key = some depths ∧ depths.drill ≤ -0.54 := by
  have hall : ∀ row ∈ smallParts ++ largeParts, '\n' ∉ row.1.toList ∧
      ((Depths.row? row.1 : Option (Depths Rat)).any fun d => decide (d.drill ≤ -0.54)) = true := by
    decide +kernel
  obtain ⟨row, hrow, rfl⟩ : ∃ row ∈ smallParts ++ largeParts, row.1 = key := by
    rw [get?, List.lookup_eq_findSome?] at h
    obtain ⟨row, hrow, hkey⟩ := List.exists_of_findSome?_eq_some h
    have hkey : key = row.1 := And.left (by simpa using hkey)
    refine ⟨row, ?_, hkey.symm⟩
    cases hclass : lathe.latheClass with
    | smallParts => exact List.mem_append_left _ (by simpa [table, hclass] using hrow)
    | largeParts => exact List.mem_append_right _ (by simpa [table, hclass] using hrow)
  obtain ⟨hfeed, hdepths⟩ := hall row hrow
  obtain ⟨depths, hdepths, hdrill⟩ := (Option.any_eq_true _ _).1 hdepths
  exact ⟨hfeed, depths, hdepths, by simpa using hdrill⟩

theorem Job.remarked_header (j : Job Rat) (htitle : '\n' ∉ j.part.title.toList)
    (hkey : '\n' ∉ j.part.thickness.key.toList) :
    ∀ b ∈ j.header.blocks, '\n' ∉ b.remarked.toList := by
  have hkind : '\n' ∉ j.part.kind.name.toList := by cases j.part.kind <;> decide
  have hlathe : '\n' ∉ j.part.lathe.name.toList := by cases j.part.lathe <;> decide
  have hnumber := Exact.feed_not_mem_shortest
  intro b hb
  simp only [header, List.cons_append, List.nil_append, List.mem_cons, List.mem_append,
    Option.mem_toList, Option.map_eq_some_iff] at hb
  rcases hb with rfl | rfl | rfl | rfl | ⟨hub, -, rfl⟩ | ⟨shelf, -, rfl⟩ <;>
    simp [Block.remarked, htitle, hkey, hkind, hlathe, hnumber]

theorem Job.remarked_runBlocks (j : Job Rat) {r : Run Rat} (h : '\n' ∉ r.comment.toList) :
    ∀ b ∈ j.runBlocks r, '\n' ∉ b.remarked.toList := by
  intro b hb
  rcases of_mem_toolRun hb with rfl | rfl | ⟨m, hm, rfl⟩ | hservice
  · exact h
  · simp [Block.remarked]
  · simp [Block.remarked]
  · cases b <;> first | (cases hservice; done) | simp [Block.remarked]

/-- No text in a program but the title can break a line. -/
theorem Program.remarked {j : Job Rat} {p : Program Rat} (h : ofJob j = .ok p)
    (htitle : '\n' ∉ j.part.title.toList) (hkey : '\n' ∉ j.part.thickness.key.toList) :
    ∀ b ∈ p.blocks, '\n' ∉ b.remarked.toList := by
  intro b hb
  obtain ⟨s, hs, hb⟩ := List.mem_flatMap.1 hb
  obtain ⟨kind, -, hsection⟩ := exists_sectionOf h hs
  by_cases hkind : kind.isIdle = true
  · cases kind with
    | header =>
      cases hsection
      exact j.remarked_header htitle hkey b hb
    | flip =>
      cases hsection
      have hslot (n : Nat) : '\n' ∉ Nat.toDigits 10 n := fun h =>
        absurd (allDigits_toDigits n _ h) (by decide)
      simp only [Job.flip, List.mem_cons, List.not_mem_nil, or_false] at hb
      rcases hb with rfl | rfl <;> simp [Block.remarked, workOffsetWord, hslot]
    | footer =>
      cases hsection
      simp only [Job.footer, List.mem_cons, List.not_mem_nil, or_false] at hb
      rcases hb with rfl | rfl <;> simp [Block.remarked]
    | op1Drill | op1Bore | op1Turn | op2Turn | op2Chamfer => cases hkind
  · obtain ⟨runs, -, hblocks, -, hcomment, -⟩ := Job.isRuns_sectionOf hsection (by simpa using hkind)
    rw [hblocks] at hb
    obtain ⟨r, hr, hb⟩ := List.mem_flatMap.1 hb
    refine j.remarked_runBlocks ?_ b hb
    have hother : ∀ text ∈ Job.otherWork, '\n' ∉ text.toList := by decide
    rcases hcomment r hr with hmem | ⟨hbore, -⟩
    · exact hother _ hmem
    · rw [hbore]
      decide

/-! ## Lines of a program -/

@[simp] theorem AddressWord.letter_whole (letter : Char) (n : Nat) :
    (AddressWord.whole letter n).letter = letter := rfl

@[simp] theorem AddressWord.letter_placed (letter : Char) (x : Rat) :
    (AddressWord.placed letter x).letter = letter := rfl

/-- A whole number is its own code, as far as codes go. -/
@[simp] theorem AddressWord.code?_whole (letter : Char) (n : Nat) :
    (AddressWord.whole letter n).code? = some (min n Scalar.codeLimit) := by
  have hround : Scalar.round (n : Rat) = n := Exact.round_intCast n
  have hzero : Scalar.magnitude ((n : Rat) - n) = 0 := by
    change Rat.abs _ = 0
    rw [sub_self]
    rfl
  have hsmall : Scalar.magnitude ((n : Rat) - n) < 0.000000001 := by
    rw [hzero]
    norm_num
  have hpos : (n : Rat) ≥ (Scalar.ofNat 0 : Rat) := by
    rw [Scalar.ofNat_rat]
    exact_mod_cast Nat.zero_le n
  have hcond : (n : Rat) ≥ (Scalar.ofNat 0 : Rat) ∧
      Scalar.magnitude ((n : Rat) - Scalar.round (n : Rat)) < 0.000000001 := by
    rw [hround]
    exact ⟨hpos, hsmall⟩
  have hcode := Exact.toNatWithin_natCast Scalar.codeLimit n
  refine (if_pos hcond).trans ?_
  rw [whole, hround, hcode]

def MotionMode.asked : MotionMode → MotionWord
  | .rapid => .rapid
  | .linear => .linear

theorem Motion.words_motionWord? (m : Motion Rat) {l : Line Rat} (hl : l.words = m.reading.words) :
    l.motionWord? = m.mode.map MotionMode.asked := by
  obtain ⟨mode, x, z, feed, marker⟩ := m
  simp only [Line.motionWord?, hl, reading]
  cases mode with
  | none => cases x <;> cases z <;> cases feed <;> rfl
  | some mode =>
    cases mode <;> cases x <;> cases z <;> cases feed <;>
      simp [MotionMode.code, MotionMode.asked, MotionWord.ofCode?, Scalar.codeLimit]

/-- The letters of a motion read as its values, with four places. -/
theorem Motion.words_values (m : Motion Rat) {l : Line Rat} (hl : l.words = m.reading.words) :
    l.x? = m.x.map Scalar.round4 ∧ l.z? = m.z.map Scalar.round4 ∧
      l.feed? = m.feed.map Scalar.round4 := by
  obtain ⟨mode, x, z, feed, marker⟩ := m
  simp only [Line.x?, Line.z?, Line.feed?, Line.value?, hl, reading]
  cases mode <;> cases x <;> cases z <;> cases feed <;> simp [AddressWord.placed]

theorem Motion.isSafe_reading {clearance : Rat} {m : Motion Rat} (h : m.IsSafe clearance)
    {l : Line Rat} (hl : l.reading = m.reading) : l.IsSafe (Scalar.round4 clearance) := by
  have hwords : l.words = m.reading.words := congrArg Reading.words hl
  have hword := m.words_motionWord? hwords
  obtain ⟨-, hlz, hlfeed⟩ := m.words_values hwords
  cases h with
  | rapid hmode hz =>
    refine .rapid (by rw [hword, hmode]; rfl) fun z hzl => ?_
    rw [hlz, Option.mem_def, Option.map_eq_some_iff] at hzl
    obtain ⟨z', hz', rfl⟩ := hzl
    rw [hz z' hz']
  | cut hmode hfeed =>
    refine .cut (by rw [hword, hmode]; rfl) ?_
    rw [hlfeed, Option.isSome_map]
    exact hfeed

theorem Block.isSafe_reading {clearance : Rat} {b : Block Rat} (h : b.IsSafe clearance)
    {l : Line Rat} (hl : l.reading ∈ b.readings) : l.IsSafe (Scalar.round4 clearance) := by
  obtain ⟨number, raw, words, comment⟩ := l
  cases b with
  | motion m => exact Motion.isSafe_reading h (List.mem_singleton.1 hl)
  | machineHome x z =>
    obtain ⟨rfl, rfl⟩ : _ ∧ _ := by simpa [readings, Line.reading] using hl
    exact .machine (by simp [Line.isMachine, Line.has, Scalar.codeLimit])
  | constantSurfaceSpeed maxRpm css =>
    simp only [readings, Line.reading, List.mem_cons, List.not_mem_nil, or_false,
      Reading.mk.injEq] at hl
    rcases hl with ⟨rfl, rfl⟩ | ⟨rfl, rfl⟩ <;>
      exact .still (by simp [Line.motionWord?, MotionWord.ofCode?, Scalar.codeLimit])
        (by simp [Line.z?, Line.value?])
  | programStop message =>
    cases message <;>
    · obtain ⟨rfl, rfl⟩ : _ ∧ _ := by simpa [readings, Line.reading] using hl
      exact .still (by simp [Line.motionWord?]) (by simp [Line.z?, Line.value?])
  | percent | programNumber _ _ | comment _ | toolChange _ _ | fixedSpeed _ | workOffset _
  | coolantOn | coolantOff | optionalStop | programEnd =>
    obtain ⟨rfl, rfl⟩ : _ ∧ _ := by simpa [readings, Line.reading] using hl
    exact .still (by simp [Line.motionWord?, MotionWord.ofCode?, Scalar.codeLimit])
      (by simp [Line.z?, Line.value?])

end SpacerTurning
