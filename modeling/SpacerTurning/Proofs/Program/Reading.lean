import SpacerTurning.Program.Text
import SpacerTurning.Proofs.Check.Words
import SpacerTurning.Proofs.Number.Exact
import SpacerTurning.Proofs.Text.Capitals
import SpacerTurning.Proofs.Text.Lines

/-!
Reading what was written.

The line of a block is words with a blank between them, and a comment behind them.  A comment holds
no parentheses of its own, so that it ends where its line ends, and none of its letters is read as
a word.  `Block.readings` says what is read in the lines of a block, over exact numbers.
-/

namespace SpacerTurning

open Number

/-- A text that reads as words, whatever stands behind a blank after it. -/
structure Reads (α : Type) [Scalar α] (cs : List Char) (words : List (AddressWord α)) : Prop where
  plain : ∀ c ∈ cs, c ≠ '(' ∧ c ≠ ';' ∧ c ≠ '\n' ∧ c ≠ '\r'
  closed : openLetter? cs = none
  words_eq : codeWords cs = words

namespace Reads

variable {α : Type} [Scalar α]

theorem append {a b : List Char} {u v : List (AddressWord α)} (ha : Reads α a u)
    (hb : Reads α b v) : Reads α (a ++ ' ' :: b) (u ++ v) where
  plain := by
    intro c hc
    rcases List.mem_append.1 hc with hc | hc
    · exact ha.plain c hc
    · rcases List.mem_cons.1 hc with rfl | hc
      · decide
      · exact hb.plain c hc
  closed := by
    have hblank : openLetter? (a ++ [' ']) = none := by
      rw [openLetter?_append, if_pos (by decide)]
      exact ha.closed
    rw [show a ++ ' ' :: b = a ++ [' '] ++ b by simp, openLetter?_append]
    split
    · exact hblank
    · exact hb.closed
  words_eq := by
    have hends : EndsNumber (' ' :: b) := endsNumber_cons.2 (by decide)
    rw [codeWords_append hends (Or.inl ha.closed), codeWords_of_not_alpha (by decide), ha.words_eq,
      hb.words_eq]

theorem nil : Reads α [] [] where
  plain := by simp
  closed := rfl
  words_eq := rfl

theorem letter {l : Char} (hl : l.isAlpha = true) {n : List Char}
    (h : numberPart n = some ([], n)) (hblank : ∀ c ∈ n, Text.isBlank c = false)
    {w : AddressWord α} (hword : wordOf l n = some w) : Reads α (l :: n) [w] where
  plain := by
    obtain ⟨rest, hrest, hnumeric, -⟩ := numberPart_prefix h
    intro c hc
    rcases List.mem_cons.1 hc with rfl | hc
    · refine ⟨?_, ?_, ?_, ?_⟩ <;> rintro rfl <;> exact absurd hl (by decide)
    · have hdigit := hnumeric c (by simpa using hc)
      have hb := hblank c hc
      refine ⟨?_, ?_, ?_, ?_⟩ <;> rintro rfl
      · exact absurd hdigit (by decide)
      · exact absurd hdigit (by decide)
      · exact absurd hb (by decide)
      · exact absurd hb (by decide)
  closed := by
    obtain ⟨rest, hrest, hnumeric, ⟨last, hlast, -⟩, -⟩ := numberPart_prefix h
    obtain ⟨front, hfront⟩ := List.getLast?_eq_some_iff.1 hlast
    have hmem : last ∈ n := hfront ▸ by simp
    rw [hfront, ← List.cons_append]
    exact openLetter?_concat _ (hblank last hmem)
      (isAlpha_of_isNumeric (hnumeric last (by simpa using hmem)))
  words_eq := by
    have h' : numberPart ([] ++ n ++ []) = some ([], n) := by simpa using h
    have hwords := codeWords_letter (α := α) hl h'
    simp only [List.nil_append, List.append_nil, codeWords_nil, hword] at hwords
    exact hwords

theorem whole {l : Char} (hl : l.isAlpha = true) {ds : List Char} (hds : AllDigits ds)
    (hne : ds ≠ []) {w : AddressWord α} (hword : wordOf l ds = some w) :
    Reads α (l :: ds) [w] := by
  have hnumber := numberPart_digits hds hne endsNumber_nil
  rw [List.append_nil] at hnumber
  exact letter hl hnumber (fun c hc => (Text.digit_ne (hds c hc)).1) hword

theorem placed {l : Char} (hl : l.isAlpha = true) (n : WordNumber) {w : AddressWord α}
    (hword : wordOf l n.text = some w) : Reads α (l :: n.text) [w] := by
  have hnumber : numberPart (n.text ++ []) = some ([], n.text) := numberPart_text n (by simp)
  rw [List.append_nil] at hnumber
  exact letter hl hnumber (fun c hc => n.isBlank_of_mem_text hc) hword

end Reads

/-! ## Lines -/

/-- What is read in a line. -/
structure Reading (α : Type) where
  words : List (AddressWord α)
  comment : Option String
deriving DecidableEq

section

variable {α : Type} [Scalar α]

/-- What is read in the characters of a line. -/
def Reading.of (cs : List Char) : Reading α where
  words := codeWords (codeOf [' '] cs)
  comment := commentOf cs

theorem Line.parse_eq (n : Nat) (raw : String) :
    (Line.parse n raw : Line α) =
      { number := n, raw, words := (Reading.of raw.toList : Reading α).words
        comment := (Reading.of raw.toList : Reading α).comment } := rfl

theorem commentBodies_append {a : List Char} (ha : '(' ∉ a) (b : List Char) :
    commentBodies none (a ++ b) = commentBodies none b := by
  induction a with
  | nil => rfl
  | cons c a ih =>
    have hc : c ≠ '(' := fun e => ha (e ▸ List.mem_cons_self)
    have hrest : '(' ∉ a := fun m => ha (List.mem_cons_of_mem _ m)
    simp [commentBodies, hc, ih hrest]

theorem commentBodies_body {body : List Char} (h : ')' ∉ body) (seen rest : List Char) :
    commentBodies (some seen) (body ++ ')' :: rest)
      = (seen.reverse ++ body) :: commentBodies none rest := by
  induction body generalizing seen with
  | nil => simp [commentBodies]
  | cons c body ih =>
    have hc : c ≠ ')' := fun e => h (e ▸ List.mem_cons_self)
    have hrest : ')' ∉ body := fun m => h (List.mem_cons_of_mem _ m)
    simp [commentBodies, hc, ih hrest]

/-- What the body of a comment says, if it says anything. -/
def remark (body : List Char) : Option String :=
  if Text.trim body = [] then none else some (String.ofList (Text.trim body))

theorem commentOf_code {a : List Char} (ha : '(' ∉ a) : commentOf a = none := by
  have h := commentBodies_append ha []
  rw [List.append_nil] at h
  simp [commentOf, h, commentBodies]

theorem commentOf_comment {a body : List Char} (ha : '(' ∉ a) (hbody : ')' ∉ body) :
    commentOf (a ++ '(' :: (body ++ [')'])) = remark body := by
  have h : commentBodies none (a ++ '(' :: (body ++ [')'])) = [body] := by
    rw [commentBodies_append ha]
    simpa [commentBodies] using commentBodies_body hbody [] []
  rw [commentOf, h, remark]
  by_cases hnil : Text.trim body = []
  · simp [hnil]
  · simp [hnil]

theorem Reads.reading {cs : List Char} {words : List (AddressWord α)} (h : Reads α cs words) :
    Reading.of cs = { words, comment := none } := by
  have hopen : '(' ∉ cs := fun m => (h.plain _ m).1 rfl
  have hend : ';' ∉ cs := fun m => (h.plain _ m).2.1 rfl
  rw [Reading.of, codeOf_of_plain hopen hend, commentOf_code hopen, h.words_eq]

/-- A comment behind a text, with a blank or another text without words between them, adds none. -/
theorem Reads.reading_comment {cs gap body : List Char} {words : List (AddressWord α)}
    (h : Reads α cs words) (hgap : gap = [] ∨ gap = [' ']) (hbody : ')' ∉ body) :
    Reading.of (cs ++ gap ++ '(' :: (body ++ [')'])) = { words, comment := remark body } := by
  have hplain : ∀ c ∈ cs ++ gap, c ≠ '(' ∧ c ≠ ';' := by
    intro c hc
    rcases List.mem_append.1 hc with hc | hc
    · exact ⟨(h.plain c hc).1, (h.plain c hc).2.1⟩
    · rcases hgap with rfl | rfl
      · cases hc
      · obtain rfl := List.mem_singleton.1 hc
        decide
  have hopen : '(' ∉ cs ++ gap := fun m => (hplain _ m).1 rfl
  have hend : ';' ∉ cs ++ gap := fun m => (hplain _ m).2 rfl
  have hblank : ∀ c ∈ gap ++ [' '], Text.isBlank c = true := by
    rcases hgap with rfl | rfl <;> simp
  have hcode : codeOf [' '] (cs ++ gap ++ '(' :: (body ++ [')'])) = cs ++ (gap ++ [' ']) := by
    rw [codeOf_append hopen hend, codeOf_comment hbody]
    simp [codeOf, replaceComments]
  rw [Reading.of, hcode, codeWords_append_blanks _ hblank, h.words_eq,
    commentOf_comment hopen hbody]

end

/-! ## Comments that are written -/

def commentBody (text : String) : List Char :=
  Text.capitalize (text.toList.filter fun c => c ≠ '(' ∧ c ≠ ')')

theorem toList_commentText (text : String) :
    (commentText text).toList = '(' :: (commentBody text ++ [')']) := by
  simp [commentText, commentBody]

theorem close_not_mem_commentBody (text : String) : ')' ∉ commentBody text := by
  rw [commentBody, Text.mem_capitalize_iff (by decide) (by decide)]
  simp

theorem feed_mem_commentBody_iff (text : String) : '\n' ∈ commentBody text ↔ '\n' ∈ text.toList := by
  rw [commentBody, Text.mem_capitalize_iff (by decide) (by decide)]
  simp

/-- A line that reads in a certain way, and is one line as long as its comment is. -/
structure LineReads {α : Type} [Scalar α] (remarked : String) (line : String) (r : Reading α) :
    Prop where
  reading : Reading.of line.toList = r
  one_line : '\n' ∉ remarked.toList → '\n' ∉ line.toList
  last : line.toList.getLast? ≠ some '\r'

section

variable {α : Type} [Scalar α]

theorem Reads.line {line : String} {words : List (AddressWord α)}
    (h : Reads α line.toList words) (remarked : String) :
    LineReads remarked line { words, comment := none } where
  reading := h.reading
  one_line := fun _ m => (h.plain _ m).2.2.1 rfl
  last := fun hlast => (h.plain _ (List.mem_of_getLast? hlast)).2.2.2 rfl

theorem Reads.line_with {cs gap body : List Char} {words : List (AddressWord α)}
    (h : Reads α cs words) (hgap : gap = [] ∨ gap = [' ']) (hclose : ')' ∉ body)
    {remarked : String} (hfeed : '\n' ∉ remarked.toList → '\n' ∉ body) {line : String}
    (hline : line.toList = cs ++ gap ++ '(' :: (body ++ [')'])) :
    LineReads remarked line { words, comment := remark body } where
  reading := by
    rw [hline]
    exact h.reading_comment hgap hclose
  one_line := by
    intro hremarked
    have hcode : '\n' ∉ cs := fun m => (h.plain _ m).2.2.1 rfl
    have hblank : '\n' ∉ gap := by rcases hgap with rfl | rfl <;> decide
    simp [hline, hcode, hblank, hfeed hremarked]
  last := by
    rw [hline, show cs ++ gap ++ '(' :: (body ++ [')']) = (cs ++ gap ++ '(' :: body) ++ [')'] by simp,
      List.getLast?_concat]
    simp

theorem Reads.line_comment {line : String} {words : List (AddressWord α)}
    (h : Reads α line.toList words) (text : String) :
    LineReads text (line ++ " " ++ commentText text)
      { words, comment := remark (commentBody text) } :=
  h.line_with (Or.inr rfl) (close_not_mem_commentBody text)
    (fun hfeed => (feed_mem_commentBody_iff text).not.2 hfeed) (by simp [toList_commentText])

theorem lineReads_commentText (text : String) :
    LineReads text (commentText text)
      ({ words := [], comment := remark (commentBody text) } : Reading α) :=
  Reads.nil.line_with (Or.inl rfl) (close_not_mem_commentBody text)
    (fun hfeed => (feed_mem_commentBody_iff text).not.2 hfeed) (by simp [toList_commentText])

theorem remark_empty : remark (commentBody "") = none := by decide

/-- A word, with a comment behind it if there is one. -/
theorem Reads.line_withComment {line : String} {words : List (AddressWord α)}
    (h : Reads α line.toList words) (text : String) :
    LineReads text (withComment line text) { words, comment := remark (commentBody text) } := by
  unfold withComment
  split
  · next htext =>
    rw [htext, remark_empty]
    exact h.line ""
  · exact h.line_comment text

end

/-! ## Blocks -/

def AddressWord.whole (letter : Char) (n : Nat) : AddressWord Rat := { letter, value := n }

def AddressWord.placed (letter : Char) (x : Rat) : AddressWord Rat :=
  { letter, value := Scalar.round4 x }

def MotionMode.code : MotionMode → Nat
  | .rapid => 0
  | .linear => 1

/-- The comment of a mark, as it is read. -/
def DiameterMarker.remark : DiameterMarker → String
  | .centerBore => "X IS CB"
  | .outerBore => "X IS OB"

def Motion.reading (m : Motion Rat) : Reading Rat where
  words := (m.mode.map fun mode => .whole 'G' mode.code).toList
    ++ (m.x.map (.placed 'X')).toList ++ (m.z.map (.placed 'Z')).toList
    ++ (m.feed.map (.placed 'F')).toList
  comment := m.marker.map DiameterMarker.remark

def Block.readings : Block Rat → List (Reading Rat)
  | .percent => [{ words := [], comment := none }]
  | .programNumber number title =>
    [{ words := [.whole 'O' number], comment := remark (commentBody title) }]
  | .comment text => [{ words := [], comment := remark (commentBody text) }]
  | .toolChange tool text =>
    [{ words := [.whole 'T' tool], comment := remark (commentBody text) }]
  | .constantSurfaceSpeed maxRpm css =>
    [{ words := [.whole 'G' 50, .whole 'S' maxRpm], comment := none },
      { words := [.whole 'G' 96, .whole 'S' css, .whole 'M' 3], comment := none }]
  | .fixedSpeed rpm =>
    [{ words := [.whole 'G' 97, .whole 'S' rpm, .whole 'M' 3], comment := none }]
  | .workOffset slot => [{ words := [.whole 'G' 154, .whole 'P' slot], comment := none }]
  | .coolantOn => [{ words := [.whole 'M' 8], comment := none }]
  | .coolantOff => [{ words := [.whole 'M' 9], comment := none }]
  | .motion m => [m.reading]
  | .machineHome x z =>
    [{ words := [.whole 'G' 0, .whole 'G' 53, .placed 'X' x, .placed 'Z' z], comment := none }]
  | .programStop none => [{ words := [.whole 'M' 0], comment := none }]
  | .programStop (some text) =>
    [{ words := [.whole 'M' 0], comment := remark (commentBody text) }]
  | .optionalStop => [{ words := [.whole 'M' 1], comment := none }]
  | .programEnd => [{ words := [.whole 'M' 30], comment := none }]

/-- The text that a block carries, for the operator to read. -/
def Block.remarked : Block Rat → String
  | .programNumber _ text | .comment text | .toolChange _ text | .programStop (some text) => text
  | _ => ""

theorem wordOf_whole {l : Char} (hl : l.toUpper = l) {ds : List Char} (hds : AllDigits ds)
    (hne : ds ≠ []) : wordOf l ds = some (AddressWord.whole l (ofDigits ds)) := by
  simp [wordOf, Piece.word?, Exact.read_digits hds hne, hl, AddressWord.whole]

theorem reads_whole {l : Char} (halpha : l.isAlpha = true) (hl : l.toUpper = l) (n : Nat) :
    Reads Rat (l :: Nat.toDigits 10 n) [.whole l n] := by
  have hword := wordOf_whole hl (allDigits_toDigits n) Nat.toDigits_ne_nil
  rw [ofDigits_toDigits] at hword
  exact Reads.whole halpha (allDigits_toDigits n) Nat.toDigits_ne_nil hword

theorem reads_padded {l : Char} (halpha : l.isAlpha = true) (hl : l.toUpper = l) (width n : Nat) :
    Reads Rat (l :: paddedDigits width n) [.whole l n] := by
  have hne : paddedDigits width n ≠ [] := by simp [paddedDigits]
  have hword := wordOf_whole hl (allDigits_paddedDigits width n) hne
  rw [ofDigits_paddedDigits] at hword
  exact Reads.whole halpha (allDigits_paddedDigits width n) hne hword

theorem reads_placed {l : Char} (halpha : l.isAlpha = true) (hl : l.toUpper = l) (x : Rat) :
    Reads Rat (l :: (Word.format x).toList) [.placed l x] := by
  have hread := Exact.read_format x
  obtain ⟨n, -, hformat⟩ := Exact.exists_format_eq x
  rw [hformat, String.toList_ofList] at hread ⊢
  refine Reads.placed halpha _ ?_
  simp [wordOf, Piece.word?, hread, hl, AddressWord.placed]

theorem toList_toString (n : Nat) : (toString n).toList = Nat.toDigits 10 n := Nat.toList_repr

/-- Words with a blank between them are read one after the other. -/
theorem Reads.intercalate {texts : List (List Char)} {words : List (AddressWord Rat)}
    (h : List.Forall₂ (fun cs w => Reads Rat cs [w]) texts words) :
    Reads Rat ([' '].intercalate texts) words := by
  induction h with
  | nil => exact Reads.nil
  | @cons cs w texts words hw htail ih =>
    cases htail with
    | nil => simpa using hw
    | cons hw' htail' =>
      rw [List.intercalate_cons_cons]
      simpa using hw.append ih

theorem DiameterMarker.toList_text (m : DiameterMarker) :
    ∃ body, m.text.toList = '(' :: (body ++ [')']) ∧ ')' ∉ body ∧ '\n' ∉ body
      ∧ SpacerTurning.remark body = some m.remark := by
  cases m with
  | centerBore => exact ⟨"X IS CB".toList, by decide⟩
  | outerBore => exact ⟨"X IS OB".toList, by decide⟩

/-- The words of a move, without its mark. -/
def Motion.codeTexts (m : Motion Rat) : List (List Char) :=
  (m.mode.map fun mode => 'G' :: paddedDigits 2 mode.code).toList
    ++ (m.x.map fun x => 'X' :: (Word.format x).toList).toList
    ++ (m.z.map fun z => 'Z' :: (Word.format z).toList).toList
    ++ (m.feed.map fun f => 'F' :: (Word.format f).toList).toList

theorem Motion.reads_codeTexts (m : Motion Rat) :
    Reads Rat ([' '].intercalate m.codeTexts) m.reading.words := by
  have mode : List.Forall₂ (fun cs w => Reads Rat cs [w])
      (m.mode.map fun mode => 'G' :: paddedDigits 2 mode.code).toList
      (m.mode.map fun mode => AddressWord.whole 'G' mode.code).toList := by
    cases m.mode with
    | none => exact .nil
    | some mode => exact .cons (reads_padded (by decide) (by decide) 2 mode.code) .nil
  have placed (l : Char) (halpha : l.isAlpha = true) (hl : l.toUpper = l) (x : Option Rat) :
      List.Forall₂ (fun cs w => Reads Rat cs [w])
        (x.map fun x => l :: (Word.format x).toList).toList
        (x.map (AddressWord.placed l)).toList := by
    cases x with
    | none => exact .nil
    | some x => exact .cons (reads_placed halpha hl x) .nil
  exact Reads.intercalate (List.rel_append (List.rel_append (List.rel_append mode
    (placed 'X' (by decide) (by decide) m.x)) (placed 'Z' (by decide) (by decide) m.z))
    (placed 'F' (by decide) (by decide) m.feed))

theorem Motion.toList_text (m : Motion Rat) :
    m.text.toList = [' '].intercalate
      (m.codeTexts ++ (m.marker.map fun k => k.text.toList).toList) := by
  have hmode (mode : MotionMode) : mode.word.toList = 'G' :: paddedDigits 2 mode.code := by
    cases mode <;> decide
  have hmap {β : Type} (f : β → String) (x : Option β) :
      (x.map f).toList.map String.toList = (x.map fun b => (f b).toList).toList := by
    cases x <;> rfl
  rw [Motion.text, String.toList_intercalate, Motion.words]
  simp [hmap, Motion.codeTexts, hmode, word]

theorem intercalate_concat {sep : List Char} {texts : List (List Char)} (h : texts ≠ [])
    (last : List Char) :
    sep.intercalate (texts ++ [last]) = sep.intercalate texts ++ sep ++ last := by
  induction texts with
  | nil => exact absurd rfl h
  | cons text texts ih =>
    cases texts with
    | nil => simp
    | cons text' texts =>
      have ih := ih (by simp)
      rw [List.cons_append] at ih ⊢
      simp only [List.cons_append, List.intercalate_cons_cons] at ih ⊢
      rw [ih]
      simp

theorem Motion.lineReads (m : Motion Rat) : LineReads "" m.text m.reading := by
  have hcode := m.reads_codeTexts
  have htext := m.toList_text
  cases hmarker : m.marker with
  | none =>
    rw [hmarker] at htext
    have hreads : Reads Rat m.text.toList m.reading.words := by
      rw [htext]
      simpa using hcode
    have hreading : m.reading = { words := m.reading.words, comment := none } := by
      simp [Motion.reading, hmarker]
    rw [hreading]
    exact hreads.line ""
  | some k =>
    obtain ⟨body, hbody, hclose, hfeed, hremark⟩ := k.toList_text
    rw [hmarker, Option.map_some, Option.toList_some] at htext
    obtain ⟨gap, hgap, hline⟩ : ∃ gap, (gap = [] ∨ gap = [' ']) ∧
        m.text.toList = [' '].intercalate m.codeTexts ++ gap ++ '(' :: (body ++ [')']) := by
      rw [htext, hbody]
      by_cases hnil : m.codeTexts = []
      · exact ⟨[], Or.inl rfl, by simp [hnil]⟩
      · exact ⟨[' '], Or.inr rfl, intercalate_concat hnil _⟩
    have hreading : m.reading = { words := m.reading.words, comment := remark body } := by
      simp [Motion.reading, hmarker, hremark]
    rw [hreading]
    exact hcode.line_with hgap hclose (fun _ => hfeed) hline

/-- The lines of a block are read as its readings. -/
theorem Block.lineReads (b : Block Rat) :
    List.Forall₂ (LineReads b.remarked) b.lines b.readings := by
  have whole (l : Char) (n : Nat) (halpha : l.isAlpha = true := by decide)
      (hl : l.toUpper = l := by decide) := reads_whole halpha hl n
  have placed (l : Char) (x : Rat) (halpha : l.isAlpha = true := by decide)
      (hl : l.toUpper = l := by decide) := reads_placed halpha hl x
  have padded (l : Char) (width n : Nat) (halpha : l.isAlpha = true := by decide)
      (hl : l.toUpper = l := by decide) := reads_padded halpha hl width n
  have line {cs : List Char} {words : List (AddressWord Rat)} (h : Reads Rat cs words)
      {line : String} (hline : line.toList = cs) :
      LineReads "" line { words, comment := none } := Reads.line (hline ▸ h) ""
  cases b with
  | percent => exact .cons ⟨by decide, by decide, by decide⟩ .nil
  | programNumber number title =>
    refine .cons (Reads.line_withComment ?_ title) .nil
    simpa [numberWord] using padded 'O' 5 number
  | comment text => exact .cons (lineReads_commentText text) .nil
  | toolChange tool text =>
    refine .cons (Reads.line_withComment ?_ text) .nil
    simpa [toList_toString] using whole 'T' tool
  | constantSurfaceSpeed maxRpm css =>
    refine .cons ?_ (.cons ?_ .nil)
    · exact line ((whole 'G' 50).append (whole 'S' maxRpm)) (by simp; rfl)
    · exact line ((whole 'G' 96).append ((whole 'S' css).append (padded 'M' 2 3))) (by simp; rfl)
  | fixedSpeed rpm =>
    exact .cons (line ((whole 'G' 97).append ((whole 'S' rpm).append (padded 'M' 2 3))) (by simp; rfl)) .nil
  | workOffset slot =>
    exact .cons (line ((whole 'G' 154).append (whole 'P' slot)) (by simp [workOffsetWord]; rfl)) .nil
  | coolantOn => exact .cons (line (padded 'M' 2 8) (by decide)) .nil
  | coolantOff => exact .cons (line (padded 'M' 2 9) (by decide)) .nil
  | motion m => exact .cons m.lineReads .nil
  | machineHome x z =>
    exact .cons (line ((padded 'G' 2 0).append ((whole 'G' 53).append ((placed 'X' x).append
      (placed 'Z' z)))) (by simp [word]; rfl)) .nil
  | programStop message =>
    cases message with
    | none => exact .cons (line (padded 'M' 2 0) (by decide)) .nil
    | some text =>
      have hreads : Reads Rat "M00".toList [.whole 'M' 0] := padded 'M' 2 0
      have hline := hreads.line_comment text
      rw [show "M00" ++ " " = "M00 " from rfl] at hline
      exact .cons hline .nil
  | optionalStop => exact .cons (line (padded 'M' 2 1) (by decide)) .nil
  | programEnd => exact .cons (line (whole 'M' 30) (by decide)) .nil

/-! ## Programs -/

def Line.reading {α : Type} (l : Line α) : Reading α := { words := l.words, comment := l.comment }

theorem Line.map_reading_parseFrom {α : Type} [Scalar α] (n : Nat) (raws : List String) :
    (parseFrom n raws : List (Line α)).map reading = raws.map fun raw => Reading.of raw.toList := by
  induction raws generalizing n with
  | nil => rfl
  | cons raw raws ih =>
    rw [parseFrom, List.map_cons, List.map_cons, ih]
    rfl

namespace Program

theorem forall₂_lines (p : Program Rat) (h : ∀ b ∈ p.blocks, '\n' ∉ b.remarked.toList) :
    List.Forall₂ (LineReads "") p.lines (p.blocks.flatMap Block.readings) := by
  rw [Program.lines]
  generalize p.blocks = blocks at h
  induction blocks with
  | nil => exact .nil
  | cons b blocks ih =>
    have hfeed := h b List.mem_cons_self
    have hb : List.Forall₂ (LineReads "") b.lines b.readings :=
      b.lineReads.imp fun _ _ hline => ⟨hline.reading, fun _ => hline.one_line hfeed, hline.last⟩
    exact List.rel_append hb (ih fun b' hb' => h b' (List.mem_cons_of_mem _ hb'))

theorem splitLines_text (p : Program Rat) (h : ∀ b ∈ p.blocks, '\n' ∉ b.remarked.toList) :
    Text.splitLines p.text = p.lines := by
  refine Text.splitLines_joinLines fun line hline => ?_
  have hlines := p.forall₂_lines h
  generalize p.lines = lines, p.blocks.flatMap Block.readings = readings at hline hlines
  induction hlines with
  | nil => cases hline
  | cons hfirst _ ih =>
    rcases List.mem_cons.1 hline with rfl | hline
    · exact ⟨hfirst.one_line (by decide), hfirst.last⟩
    · exact ih hline

/-- The text of a program is read line by line, as its blocks say. -/
theorem map_reading_parseText (p : Program Rat) (h : ∀ b ∈ p.blocks, '\n' ∉ b.remarked.toList) :
    (Line.parseText p.text : List (Line Rat)).map Line.reading = p.blocks.flatMap Block.readings := by
  rw [Line.parseText, Line.parseAll, Line.map_reading_parseFrom, p.splitLines_text h]
  have hlines := p.forall₂_lines h
  generalize p.lines = lines, p.blocks.flatMap Block.readings = readings at hlines
  induction hlines with
  | nil => rfl
  | cons hline _ ih => rw [List.map_cons, ih, hline.reading]

end Program

end SpacerTurning
