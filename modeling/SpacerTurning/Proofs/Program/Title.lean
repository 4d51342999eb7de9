import SpacerTurning.Proofs.Generation.Build
import SpacerTurning.Proofs.Program.Reading

/-!
What a title does to a program.

The title stands in a comment on the line of the program number, and in no other block.  A comment
takes out the parentheses that would end it, but lets a line feed through: what stands behind one is
a line of its own, and its letters are words.  Two titles make programs that read alike exactly if
these lines read alike, and a title without a line feed has none of them.
-/

namespace SpacerTurning

open Number

variable {α : Type} [Scalar α]

/-- The line of the program number, which stands behind the percent sign. -/
def numberLine : Nat := 2

/-- Lines with the same words, and with the same comments but for that on the line of the program
number. -/
def ReadAlike (a b : List (Line α)) : Prop :=
  List.Forall₂ (fun l m => l.words = m.words ∧ (l.number ≠ numberLine → l.comment = m.comment)) a b

/-- What is read in the lines of a comment after its first one. -/
def strayReadings (α : Type) [Scalar α] (title : String) : List (Reading α) :=
  (Line.parseText (commentText title) : List (Line α)).tail.map Line.reading

/-- Behind the line of the program number, lines read alike if the same is read in them. -/
theorem readAlike_parseFrom {n : Nat} (hn : numberLine < n) (a b : List String) :
    ReadAlike (Line.parseFrom n a : List (Line α)) (Line.parseFrom n b) ↔
      a.map (fun raw => (Reading.of raw.toList : Reading α))
        = b.map fun raw => Reading.of raw.toList := by
  induction a generalizing n b with
  | nil =>
    cases b with
    | nil => simp [ReadAlike, Line.parseFrom]
    | cons raw b => simp [ReadAlike, Line.parseFrom]
  | cons raw a ih =>
    cases b with
    | nil => simp [ReadAlike, Line.parseFrom]
    | cons raw' b =>
      have ih := ih (n := n + 1) (by omega) b
      have hne : n ≠ numberLine := by omega
      unfold ReadAlike at ih ⊢
      rw [Line.parseFrom, Line.parseFrom, List.forall₂_cons, ih, Line.parse_eq, Line.parse_eq,
        List.map_cons, List.map_cons, List.cons.injEq]
      generalize (Reading.of raw.toList : Reading α) = r
      generalize (Reading.of raw'.toList : Reading α) = r'
      obtain ⟨words, comment⟩ := r
      obtain ⟨words', comment'⟩ := r'
      simp [hne]

/-! ## The line of the program number -/

/-- The line of the program number, without the line feed at its end. -/
def titleLine (number : Nat) (title : String) : List Char :=
  (withComment (numberWord number) title).toList

theorem toList_numberWord (number : Nat) :
    (numberWord number).toList = 'O' :: paddedDigits 5 number := by
  simp [numberWord]

/-- The number word in front of a comment is read as such, whether or not the comment is closed. -/
theorem words_numberWord_comment (number : Nat) {body : List Char}
    (hbody : replaceComments [' '] true body = []) :
    (codeWords (codeOf [' '] ((numberWord number).toList ++ ' ' :: '(' :: body)) :
        List (AddressWord α)) = codeWords (numberWord number).toList := by
  have hplain : ∀ c ∈ (numberWord number).toList ++ [' '], c ≠ '(' ∧ c ≠ ';' := by
    intro c hc
    rw [toList_numberWord] at hc
    rcases List.mem_append.1 hc with hc | hc
    · rcases List.mem_cons.1 hc with rfl | hc
      · decide
      · have hdigit := allDigits_paddedDigits 5 number c hc
        constructor <;> rintro rfl <;> exact absurd hdigit (by decide)
    · rw [List.mem_singleton.1 hc]
      decide
  have hopen : '(' ∉ (numberWord number).toList ++ [' '] := fun m => (hplain _ m).1 rfl
  have hend : ';' ∉ (numberWord number).toList ++ [' '] := fun m => (hplain _ m).2 rfl
  have hcode : codeOf [' '] ((numberWord number).toList ++ ' ' :: '(' :: body)
      = (numberWord number).toList ++ [' ', ' '] := by
    rw [show (numberWord number).toList ++ ' ' :: '(' :: body
        = ((numberWord number).toList ++ [' ']) ++ '(' :: body by simp, codeOf_append hopen hend]
    simp [codeOf, replaceComments, hbody]
  rw [hcode, codeWords_append_blanks _ (by simp)]

theorem replaceComments_open {filler body : List Char} (h : ')' ∉ body) :
    replaceComments filler true body = [] := by
  rw [← List.append_nil body, replaceComments_inside h]
  rfl

/-- The lines of a comment after its first one, as characters. -/
theorem lineChars_commentText (title : String) :
    ∃ body, replaceComments [' '] true body = [] ∧
      (∀ front : List Char, '\n' ∉ front → Text.lineChars (front ++ (commentText title).toList ++ ['\n'])
        = (front ++ '(' :: body) :: (Text.lineChars (commentText title).toList).tail) ∧
      ((Text.lineChars (commentText title).toList).tail = [] ↔ '\n' ∉ title.toList) := by
  have hclose := close_not_mem_commentBody title
  have hfeed := feed_mem_commentBody_iff title
  rw [toList_commentText]
  generalize commentBody title = body at hclose hfeed
  by_cases h : '\n' ∈ body
  · obtain ⟨first, rest, rfl, hfirst⟩ := List.eq_append_cons_of_mem h
    have hcloseFirst : ')' ∉ Text.dropLastReturn first :=
      Text.not_mem_dropLastReturn fun m => hclose (List.mem_append_left _ m)
    have hopen : Text.dropLastReturn ('(' :: first) = '(' :: Text.dropLastReturn first := by
      cases first <;> rfl
    have hsplit (front : List Char) : front ++ '(' :: (first ++ '\n' :: rest ++ [')'])
        = (front ++ '(' :: first) ++ '\n' :: (rest ++ [')']) := by simp
    have hlines : Text.lineChars ('(' :: (first ++ '\n' :: rest ++ [')']))
        = ('(' :: Text.dropLastReturn first) :: Text.lineChars (rest ++ [')']) := by
      rw [← List.nil_append ('(' :: _), hsplit, Text.lineChars_append_feed (by simpa using hfirst),
        List.nil_append, hopen]
    refine ⟨Text.dropLastReturn first, replaceComments_open hcloseFirst, fun front hfront => ?_, ?_⟩
    · have hfeedFront : '\n' ∉ front ++ '(' :: first := by simp [hfront, hfirst]
      rw [hlines, hsplit, List.append_assoc, List.cons_append, Text.lineChars_append_feed hfeedFront,
        Text.lineChars_concat_feed (by simp) (by simp) (by simp),
        Text.dropLastReturn_append (by simp), hopen]
      rfl
    · rw [hlines, List.tail_cons, ← hfeed]
      simp [Text.lineChars_ne_nil]
  · have hline : '\n' ∉ '(' :: (body ++ [')']) := by simp [h]
    refine ⟨body ++ [')'], ?_, fun front hfront => ?_, ?_⟩
    · rw [replaceComments_body hclose]
      rfl
    · have hlast : (front ++ '(' :: (body ++ [')'])).getLast? ≠ some '\r' := by
        rw [show front ++ '(' :: (body ++ [')']) = front ++ '(' :: body ++ [')'] by simp, List.getLast?_concat]
        simp
      rw [Text.lineChars_append_feed (by simp [hfront, h]), Text.dropLastReturn_of_getLast?_ne hlast,
        Text.lineChars_of_feed_not_mem hline]
      simp
    · rw [Text.lineChars_of_feed_not_mem hline]
      simp [← hfeed, h]

/-- A title changes nothing in the words of its own line, and adds the lines of its comment. -/
theorem lineChars_titleLine (number : Nat) (title : String) :
    ∃ first, (codeWords (codeOf [' '] first) : List (AddressWord α))
          = codeWords (numberWord number).toList ∧
      Text.lineChars (titleLine number title ++ ['\n'])
        = first :: (Text.lineChars (commentText title).toList).tail := by
  have hword : ∀ c ∈ (numberWord number).toList, c ≠ '(' ∧ c ≠ ';' ∧ c ≠ '\n' ∧ c ≠ '\r' := by
    intro c hc
    rw [toList_numberWord] at hc
    rcases List.mem_cons.1 hc with rfl | hc
    · decide
    · have hdigit := allDigits_paddedDigits 5 number c hc
      refine ⟨?_, ?_, ?_, ?_⟩ <;> rintro rfl <;> exact absurd hdigit (by decide)
  have hfeed : '\n' ∉ (numberWord number).toList := fun m => (hword _ m).2.2.1 rfl
  by_cases htitle : title = ""
  · have hopen : '(' ∉ (numberWord number).toList := fun m => (hword _ m).1 rfl
    have hend : ';' ∉ (numberWord number).toList := fun m => (hword _ m).2.1 rfl
    have hlast : (numberWord number).toList.getLast? ≠ some '\r' := fun h =>
      (hword _ (List.mem_of_getLast? h)).2.2.2 rfl
    refine ⟨(numberWord number).toList, by rw [codeOf_of_plain hopen hend], ?_⟩
    rw [titleLine, withComment, if_pos htitle, Text.lineChars_append_feed hfeed,
      Text.dropLastReturn_of_getLast?_ne hlast, htitle]
    rfl
  · obtain ⟨body, hbody, hlines, -⟩ := lineChars_commentText title
    refine ⟨(numberWord number).toList ++ ' ' :: '(' :: body, words_numberWord_comment number hbody,
      ?_⟩
    have hfront : '\n' ∉ (numberWord number).toList ++ [' '] := by simp [hfeed]
    have h := hlines _ hfront
    rw [titleLine, withComment, if_neg htitle]
    simpa using h

/-! ## Programs of parts that differ in their titles -/

def Part.titled {β : Type} (part : Part β) (title : String) : Part β := { part with title }

def Job.titled {β : Type} (j : Job β) (title : String) : Job β :=
  { j with part := j.part.titled title }

/-- Only the head of a program says its title. -/
theorem Job.sectionOf_titled (j : Job α) (title : String) {kind : SectionKind}
    (hkind : kind ≠ .header) : (j.titled title).sectionOf kind = j.sectionOf kind := by
  cases kind with
  | header => exact absurd rfl hkind
  | op1Drill | op1Bore | op1Turn | flip | op2Turn | op2Chamfer | footer => rfl

theorem Job.resolve_titled (part : Part α) (lathe : Lathe α) (constants : CuttingConstants α)
    (templates : Templates α) (title : String) :
    resolve (part.titled title) lathe constants templates
      = (resolve part lathe constants templates).map (·.titled title) := by
  simp only [resolve, Part.titled]
  cases Depths.lookup part.thickness.key (some part.thickness.inches)
      constants.drillBreakthrough with
  | error refusal => rfl
  | ok found =>
    cases WorkOffsets.find part.lathe part.thickness.key with
    | error refusal => rfl
    | ok offsets => rfl

/-- Two programs of one part differ in the block of their number alone. -/
theorem Program.exists_blocks_titled {lathes : Lathes α} {constants : CuttingConstants α}
    {templates : Templates α} {part : Part α} {title₁ title₂ : String} {p₁ p₂ : Program α}
    (h₁ : build lathes constants templates (part.titled title₁) = .ok p₁)
    (h₂ : build lathes constants templates (part.titled title₂) = .ok p₂) :
    ∃ rest, p₁.blocks = .percent :: .programNumber part.programNumber title₁ :: rest ∧
      p₂.blocks = .percent :: .programNumber part.programNumber title₂ :: rest := by
  obtain ⟨lathe, j₁, -, hlathe₁, hj₁, hp₁⟩ := of_build h₁
  obtain ⟨lathe₂, j₂, -, hlathe₂, hj₂, hp₂⟩ := of_build h₂
  obtain rfl : lathe₂ = lathe := by
    have hlathe : lathes.get? part.lathe = some lathe := hlathe₁
    exact Option.some.inj (hlathe₂.symm.trans hlathe)
  rw [Job.resolve_titled] at hj₁ hj₂
  obtain ⟨j, hj, rfl⟩ := map_eq_ok.1 hj₁
  obtain ⟨j', hj', rfl⟩ := map_eq_ok.1 hj₂
  obtain rfl : j' = j := Except.ok.inj (hj'.symm.trans hj)
  obtain ⟨hnumber, -⟩ := Job.asked_of_resolve hj
  obtain ⟨horder₁, -⟩ := of_ofJob hp₁
  obtain ⟨horder₂, -⟩ := of_ofJob hp₂
  obtain ⟨kinds, hkinds, hheader⟩ : ∃ kinds,
      part.kind.sectionOrder = .header :: kinds ∧ .header ∉ kinds := by
    cases part.kind <;> exact ⟨_, rfl, by decide⟩
  have hkinds (title : String) : (j'.titled title).part.kind.sectionOrder = .header :: kinds := by
    rw [← hkinds, ← hnumber]
    rfl
  rw [hkinds, List.map_cons] at horder₁ horder₂
  obtain ⟨head₁, rest₁, hsections₁, hhead₁, hrest₁⟩ := List.map_eq_cons_iff.1 horder₁.symm
  obtain ⟨head₂, rest₂, hsections₂, hhead₂, hrest₂⟩ := List.map_eq_cons_iff.1 horder₂.symm
  have hsame (title : String) :
      kinds.map (j'.titled title).sectionOf = kinds.map j'.sectionOf := by
    refine List.map_congr_left fun kind hkind => j'.sectionOf_titled title ?_
    rintro rfl
    exact hheader hkind
  rw [hsame] at hrest₁ hrest₂
  obtain rfl : rest₁ = rest₂ :=
    List.map_injective_iff.2 (fun _ _ => Except.ok.inj) (hrest₁.trans hrest₂.symm)
  cases hhead₁
  cases hhead₂
  refine ⟨j'.header.blocks.drop 2 ++ rest₁.flatMap (·.blocks), ?_, ?_⟩
  · rw [blocks, hsections₁, ← hnumber]
    rfl
  · rw [blocks, hsections₂, ← hnumber]
    rfl

/-- What is read in the lines of a program that starts with its number. -/
theorem Program.exists_parseText_eq {p : Program α} {number : Nat} {title : String}
    {rest : List (Block α)} (h : p.blocks = .percent :: .programNumber number title :: rest) :
    ∃ first : String, (codeWords (codeOf [' '] first.toList) : List (AddressWord α))
          = codeWords (numberWord number).toList ∧
      (Line.parseText p.text : List (Line α))
        = Line.parse 1 "%" :: Line.parse numberLine first
          :: Line.parseFrom 3 ((Text.splitLines (commentText title)).tail
            ++ Text.splitLines (Text.joinLines (rest.flatMap Block.lines))) := by
  obtain ⟨first, hwords, hfirst⟩ := lineChars_titleLine (α := α) number title
  refine ⟨String.ofList first, by simpa using hwords, ?_⟩
  have htext : p.text.toList = ['%'] ++ '\n' :: (titleLine number title ++ '\n'
      :: (Text.joinLines (rest.flatMap Block.lines)).toList) := by
    rw [text, lines, h]
    simp [Text.toList_joinLines, Block.lines, titleLine]
  have hlines : Text.splitLines p.text = "%" :: String.ofList first
      :: ((Text.splitLines (commentText title)).tail
        ++ Text.splitLines (Text.joinLines (rest.flatMap Block.lines))) := by
    rw [Text.splitLines_eq, htext, Text.lineChars_append_feed (by decide), Text.lineChars_append,
      hfirst, Text.splitLines_eq, Text.splitLines_eq]
    simp [Text.dropLastReturn]
  rw [Line.parseText, Line.parseAll, hlines]
  rfl

theorem strayReadings_eq (title : String) :
    strayReadings α title
      = (Text.splitLines (commentText title)).tail.map fun raw => Reading.of raw.toList := by
  rw [strayReadings, List.map_tail, Line.parseText, Line.parseAll, Line.map_reading_parseFrom,
    List.map_tail]

/-- A title strays from its line exactly if it has a line feed. -/
theorem strayReadings_eq_nil_iff (title : String) :
    strayReadings α title = [] ↔ '\n' ∉ title.toList := by
  obtain ⟨-, -, -, hnil⟩ := lineChars_commentText title
  rw [strayReadings_eq, List.map_eq_nil_iff, Text.splitLines_eq, ← List.map_tail,
    List.map_eq_nil_iff, hnil]

/-- Programs that are the same behind their numbers read alike exactly if their titles leave the same
lines behind their own. -/
theorem Program.readAlike_iff {p₁ p₂ : Program α} {number : Nat} {title₁ title₂ : String}
    {rest : List (Block α)} (h₁ : p₁.blocks = .percent :: .programNumber number title₁ :: rest)
    (h₂ : p₂.blocks = .percent :: .programNumber number title₂ :: rest) :
    ReadAlike (Line.parseText p₁.text : List (Line α)) (Line.parseText p₂.text) ↔
      strayReadings α title₁ = strayReadings α title₂ := by
  obtain ⟨first₁, hwords₁, hparse₁⟩ := exists_parseText_eq h₁
  obtain ⟨first₂, hwords₂, hparse₂⟩ := exists_parseText_eq h₂
  have hnumber : (Line.parse numberLine first₁ : Line α).words
        = (Line.parse numberLine first₂ : Line α).words ∧
      ((Line.parse numberLine first₁ : Line α).number ≠ numberLine →
        (Line.parse numberLine first₁ : Line α).comment
          = (Line.parse numberLine first₂ : Line α).comment) := by
    refine ⟨?_, fun h => absurd rfl h⟩
    rw [Line.words_parse, Line.words_parse, lineWords, lineWords, hwords₁, hwords₂]
  have hrest := readAlike_parseFrom (α := α) (n := 3) (by decide)
    ((Text.splitLines (commentText title₁)).tail
      ++ Text.splitLines (Text.joinLines (rest.flatMap Block.lines)))
    ((Text.splitLines (commentText title₂)).tail
      ++ Text.splitLines (Text.joinLines (rest.flatMap Block.lines)))
  rw [List.map_append, List.map_append, List.append_left_inj, ← strayReadings_eq,
    ← strayReadings_eq] at hrest
  rw [hparse₁, hparse₂, ← hrest, ReadAlike, List.forall₂_cons, List.forall₂_cons]
  constructor
  · rintro ⟨-, -, h⟩
    exact h
  · intro h
    exact ⟨⟨rfl, fun _ => rfl⟩, hnumber, h⟩

/-- Two programs of one part under two titles read alike exactly if the titles leave the same lines
behind their own, and a title leaves none exactly if it has no line feed. -/
theorem Program.readAlike_titled_iff (lathes : Lathes α) (constants : CuttingConstants α)
    (templates : Templates α) (part : Part α) (title₁ title₂ : String) (p₁ p₂ : Program α)
    (h₁ : build lathes constants templates (part.titled title₁) = .ok p₁)
    (h₂ : build lathes constants templates (part.titled title₂) = .ok p₂) :
    (ReadAlike (Line.parseText p₁.text : List (Line α)) (Line.parseText p₂.text) ↔
        strayReadings α title₁ = strayReadings α title₂) ∧
      (strayReadings α title₁ = [] ↔ '\n' ∉ title₁.toList) ∧
      (strayReadings α title₂ = [] ↔ '\n' ∉ title₂.toList) := by
  obtain ⟨rest, hblocks₁, hblocks₂⟩ := exists_blocks_titled h₁ h₂
  exact ⟨readAlike_iff hblocks₁ hblocks₂, strayReadings_eq_nil_iff title₁,
    strayReadings_eq_nil_iff title₂⟩

/-- A part without anything special. -/
def Part.plainSample : Part Rat where
  programNumber := 7
  title := ""
  round := 5.75
  thickness := { key := "0.75", inches := 0.75 }
  boreMm := 63.5
  fittedBoreMm := 63.5
  bore := 2.5
  lathe := .l1
  fitted := false
  feedMode := .proven
  variant := .standard

theorem Program.exists_build_of_isOk (title : String)
    (h : (build .standard .standard (fun _ => none) (Part.plainSample.titled title)).isOk = true) :
    ∃ p, build .standard .standard (fun _ => none) (Part.plainSample.titled title) = .ok p :=
  exists_eq_ok h

theorem Program.readAlike_titled_plain :
    ∃ p₁ p₂, build .standard .standard (fun _ => none) (Part.plainSample.titled "PLAIN") = .ok p₁ ∧
      build .standard .standard (fun _ => none) (Part.plainSample.titled "(OTHER) #2") = .ok p₂ ∧
      (ReadAlike (Line.parseText p₁.text : List (Line Rat)) (Line.parseText p₂.text) ↔
          strayReadings Rat "PLAIN" = strayReadings Rat "(OTHER) #2") ∧
        (strayReadings Rat "PLAIN" = [] ↔ '\n' ∉ "PLAIN".toList) ∧
        (strayReadings Rat "(OTHER) #2" = [] ↔ '\n' ∉ "(OTHER) #2".toList) := by
  obtain ⟨p₁, h₁⟩ := exists_build_of_isOk "PLAIN" (by decide +kernel)
  obtain ⟨p₂, h₂⟩ := exists_build_of_isOk "(OTHER) #2" (by decide +kernel)
  exact ⟨p₁, p₂, h₁, h₂, readAlike_titled_iff _ _ _ _ _ _ _ _ h₁ h₂⟩

/-- A title with a line feed in it is a move of its own in the program. -/
theorem Program.not_readAlike_titled :
    ∃ p₁ p₂, build .standard .standard (fun _ => none) (Part.plainSample.titled "A") = .ok p₁ ∧
      build .standard .standard (fun _ => none) (Part.plainSample.titled "A\nG00 X9. Z-5.")
        = .ok p₂ ∧
      ¬ ReadAlike (Line.parseText p₁.text : List (Line Rat)) (Line.parseText p₂.text) ∧
      strayReadings Rat "A\nG00 X9. Z-5." = [{
        words := [{ letter := 'G', value := 0 }, { letter := 'X', value := 9 },
          { letter := 'Z', value := -5 }]
        comment := none }] := by
  obtain ⟨p₁, h₁⟩ := exists_build_of_isOk "A" (by decide +kernel)
  obtain ⟨p₂, h₂⟩ := exists_build_of_isOk "A\nG00 X9. Z-5." (by decide +kernel)
  obtain ⟨rest, hblocks₁, hblocks₂⟩ := exists_blocks_titled h₁ h₂
  have hstray : strayReadings Rat "A\nG00 X9. Z-5." = [{
      words := [{ letter := 'G', value := 0 }, { letter := 'X', value := 9 },
        { letter := 'Z', value := -5 }]
      comment := none }] := by decide +kernel
  have hnone : strayReadings Rat "A" = [] := by decide +kernel
  refine ⟨p₁, p₂, h₁, h₂, ?_, hstray⟩
  rw [readAlike_iff hblocks₁ hblocks₂, hnone, hstray]
  simp

end SpacerTurning
