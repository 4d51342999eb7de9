import SpacerTurning.Check.Detector
import SpacerTurning.Proofs.Check.Replace
import SpacerTurning.Proofs.Check.Steps
import SpacerTurning.Proofs.Number.Lawful

/-!
Mended lines, read again.

A detector decides by the words of a line and writes a text.  Here the text is read again, for each
way in which a line is mended, and compared letter by letter with the line that it was.
-/

namespace SpacerTurning

open Number

variable {α : Type} [Scalar α]

/-! ## Lines that are read -/

namespace Line

/-- A line is what its text is read as. -/
def IsRead (l : Line α) : Prop := l = parse l.number l.raw

theorem isRead_parse (n : Nat) (raw : String) : (parse n raw : Line α).IsRead := rfl

theorem IsRead.words {l : Line α} (h : l.IsRead) : l.words = lineWords l.raw.toList := by
  conv => lhs; rw [h]
  rfl

omit [Scalar α] in
/-- A semicolon ends the code in front of the first parenthesis. -/
def isEnded (l : Line α) : Bool := (frontOf l.raw.toList).contains ';'

omit [Scalar α] in
/-- The code in front of the first parenthesis has a word with a letter. -/
def hasInFront (l : Line α) (letter : Char) : Bool :=
  (pieces 0 (codeInFront l.raw.toList)).any (·.isWord letter)

end Line

/-- The words of a line if no letter in front of its first parenthesis has its number behind. -/
def apartWords (cs : List Char) : List (AddressWord α) :=
  if ';' ∈ frontOf cs then lineWords cs else frontWords cs ++ backWords cs

/-- The line as it reads if no letter in front of its first parenthesis has its number behind. -/
def Line.apart (l : Line α) : Line α := { l with words := apartWords l.raw.toList }

/-- What a line reads apart is a part of what it reads. -/
theorem exists_lineWords_apart (cs : List Char) :
    ∃ a o b : List (AddressWord α), lineWords cs = a ++ (o ++ b) ∧ apartWords cs = a ++ b := by
  rw [apartWords]
  split
  · exact ⟨lineWords cs, [], [], by simp, by simp⟩
  · next hend =>
    obtain ⟨o, ho⟩ := exists_lineWords_eq (α := α) hend
    exact ⟨frontWords cs, o, backWords cs, ho, rfl⟩

theorem Line.motionWord?_apart {l : Line α} (hl : l.IsRead) (hnone : l.motionWord? = none) :
    l.apart.motionWord? = none := by
  obtain ⟨a, o, b, hwords, hapart⟩ := exists_lineWords_apart (α := α) l.raw.toList
  rw [motionWord?_eq, List.getLast?_eq_none_iff, hl.words, hwords] at hnone
  rw [motionWord?_eq, List.getLast?_eq_none_iff, apart, hapart]
  simp only [wordsWith_append, List.filterMap_append, List.append_eq_nil_iff] at hnone ⊢
  exact ⟨hnone.1, hnone.2.2⟩

/-! ## A feed in front of the first parenthesis -/

section

variable [LawfulScalar α]

theorem exists_feedWord (feed : α) :
    ∃ (w : WordNumber) (v : α), (feedWord feed).toList = 'F' :: w.text ∧
      wordOf 'F' w.text = some { letter := 'F', value := v } := by
  obtain ⟨w, v, htext, hread, -, -⟩ := exists_format_text feed
  refine ⟨w, v, ?_, ?_⟩
  · rw [feedWord, String.toList_append, htext]
    rfl
  · rw [wordOf, Piece.word?, hread]
    rfl

/-- A feed changes no word with another letter, as long as the line is read apart. -/
theorem wordsWith_insertFeed (raw : String) (feed : α) {letter : Char} (hletter : letter ≠ 'F') :
    wordsWith letter (lineWords (Edit.insertBeforeComment raw (feedWord feed)).toList)
      = wordsWith letter (apartWords raw.toList : List (AddressWord α)) := by
  rw [apartWords]
  split
  · next hend => rw [Edit.lineWords_insert_of_ended hend]
  · next hend =>
    obtain ⟨w, v, hword, hread⟩ := exists_feedWord feed
    have hF : wordsWith letter [{ letter := 'F', value := v }] = [] :=
      wordsWith_of_ne (by simp) hletter
    rw [Edit.lineWords_insert (by decide) w hword hend, hread, Option.toList_some,
      wordsWith_append, wordsWith_append, hF, List.append_nil, wordsWith_append]

/-- The feed is read unless the code has ended before. -/
theorem wordsWith_feed_insertFeed (raw : String) (feed : α) :
    (wordsWith 'F' (lineWords (Edit.insertBeforeComment raw (feedWord feed)).toList :
      List (AddressWord α)) = []) ↔
      ';' ∈ frontOf raw.toList ∧ wordsWith 'F' (lineWords raw.toList : List (AddressWord α)) = [] := by
  by_cases hend : ';' ∈ frontOf raw.toList
  · rw [Edit.lineWords_insert_of_ended hend]
    simp [hend]
  · obtain ⟨w, v, hword, hread⟩ := exists_feedWord feed
    have hF : wordsWith 'F' [{ letter := 'F', value := v }] = [{ letter := 'F', value := v }] := rfl
    rw [Edit.lineWords_insert (by decide) w hword hend, hread, Option.toList_some,
      wordsWith_append, wordsWith_append, hF]
    simp [hend]

end

namespace Line

variable {l l' : Line α}

omit [Scalar α] in
theorem feed?_isSome (l : Line α) : l.feed?.isSome = true ↔ wordsWith 'F' l.words ≠ [] := by
  rw [feed?, value?_eq, Option.isSome_map, List.isSome_head?]

omit [Scalar α] in
theorem isEnded_eq_false (l : Line α) : l.isEnded = false ↔ ';' ∉ frontOf l.raw.toList := by
  simp [isEnded]

/-- A feed that a line is given is read, and the line moves as it did, exactly if the code has not
ended before the feed and no word of a motion or an axis goes on behind it. -/
theorem insertFeed_iff [LawfulScalar α] {feed : α} (hl : l.IsRead) (hl' : l'.IsRead)
    (hraw : l'.raw = Edit.insertBeforeComment l.raw (feedWord feed)) (hfeed : l.feed? = none) :
    (l'.motionWord? = l.motionWord? ∧ l'.x? = l.x? ∧ l'.z? = l.z? ∧ l'.feed?.isSome = true) ↔
      l.isEnded = false ∧ l.apart.motionWord? = l.motionWord? ∧ l.apart.x? = l.x? ∧
        l.apart.z? = l.z? := by
  have hsame {letter : Char} (hletter : letter ≠ 'F') :
      wordsWith letter l'.words = wordsWith letter l.apart.words := by
    rw [hl'.words, hraw, wordsWith_insertFeed l.raw feed hletter]
    rfl
  have hmotion : l'.motionWord? = l.apart.motionWord? := motionWord?_congr (hsame (by decide))
  have hx : l'.x? = l.apart.x? := value?_congr (hsame (by decide))
  have hz : l'.z? = l.apart.z? := value?_congr (hsame (by decide))
  have hold : wordsWith 'F' (lineWords l.raw.toList : List (AddressWord α)) = [] := by
    have h := feed?_isSome l
    rw [hfeed, hl.words] at h
    simpa using h
  have hsome : l'.feed?.isSome = true ↔ l.isEnded = false := by
    rw [feed?_isSome, isEnded_eq_false, hl'.words, hraw, Ne, wordsWith_feed_insertFeed]
    simp [hold]
  rw [hmotion, hx, hz, hsome]
  tauto

end Line

/-! ## A line that is asked for a cut -/

theorem Edit.IsCutOf.apartWords {cs' cs : List Char} (h : Edit.IsCutOf (α := α) cs' cs)
    {letter : Char} (hletter : letter ≠ 'N') :
    wordsWith letter (apartWords cs' : List (AddressWord α))
      = wordsWith letter (wordOf 'G' ['0', '1']).toList ++ wordsWith letter (apartWords cs) := by
  unfold SpacerTurning.apartWords
  by_cases hend : ';' ∈ frontOf cs
  · rw [if_pos hend, if_pos (h.ended.2 hend), h.lineWords hletter]
  · rw [if_neg hend, if_neg (mt h.ended.1 hend), wordsWith_append, wordsWith_append,
      h.frontWords hletter, h.backWords, List.append_assoc]

section

variable [LawfulScalar α]

theorem exists_cutWord :
    ∃ w : AddressWord α, wordOf 'G' ['0', '1'] = some w ∧ w.letter = 'G' ∧ w.code? = some 1 := by
  obtain ⟨v, hread, hcode⟩ := LawfulScalar.read_one (α := α)
  exact ⟨{ letter := 'G', value := v }, by rw [wordOf, Piece.word?, hread]; rfl, rfl, hcode⟩

def Line.cutText (l : Line α) (feed : α) : String :=
  let front := Edit.prependWord l.raw "G01"
  if l.feed?.isNone then Edit.insertBeforeComment front (feedWord feed) else front

namespace Line

variable {l l' : Line α} {feed : α}

/-- What stands beside the word for a cut and a feed: all words of the line if it has a feed already,
and else those that it has apart. -/
theorem wordsWith_cut (hl : l.IsRead) (hl' : l'.IsRead) (hraw : l'.raw = l.cutText feed)
    {letter : Char} (hN : letter ≠ 'N') (hF : letter ≠ 'F') :
    wordsWith letter l'.words = wordsWith letter (wordOf 'G' ['0', '1']).toList
      ++ wordsWith letter (if l.feed?.isSome then l.words else l.apart.words) := by
  have hcut := Edit.isCutOf_prependWord (α := α) l.raw
  rw [hl'.words, hraw, cutText]
  cases l.feed? with
  | none =>
    exact (wordsWith_insertFeed _ feed hF).trans (hcut.apartWords hN)
  | some _ =>
    refine (hcut.lineWords hN).trans ?_
    rw [← hl.words]
    rfl

theorem feed?_cut (hl : l.IsRead) (hl' : l'.IsRead) (hraw : l'.raw = l.cutText feed) :
    l'.feed?.isSome = true ↔ l.feed?.isSome = true ∨ l.isEnded = false := by
  have hcut := Edit.isCutOf_prependWord (α := α) l.raw
  have hG : wordsWith 'F' (wordOf 'G' ['0', '1'] : Option (AddressWord α)).toList = [] :=
    wordsWith_of_ne (fun w hw => letter_of_mem_wordOf hw) (by decide)
  have hfront : wordsWith 'F' (lineWords (Edit.prependWord l.raw "G01").toList)
      = wordsWith 'F' l.words := by
    rw [hcut.lineWords (by decide), hG, hl.words, List.nil_append]
  rw [feed?_isSome, isEnded_eq_false, hl'.words, hraw, cutText]
  cases hfeed : l.feed? with
  | none =>
    have hold : wordsWith 'F' l.words = [] := by
      have h := feed?_isSome l
      rw [hfeed] at h
      simpa using h
    have hnew := wordsWith_feed_insertFeed (Edit.prependWord l.raw "G01") feed
    rw [hcut.ended, hfront, hold] at hnew
    simpa using not_congr hnew
  | some _ =>
    have hold := (feed?_isSome l).1 (by rw [hfeed]; rfl)
    simp [hfront, hold]

/-- A line that relies on the motion before it is read as a cut once it is asked for one. -/
theorem motionWord?_cut (hl : l.IsRead) (hl' : l'.IsRead) (hraw : l'.raw = l.cutText feed)
    (hnone : l.motionWord? = none) : l'.motionWord? = some .linear := by
  obtain ⟨w, hw, hletter, hcode⟩ := exists_cutWord (α := α)
  have hG : wordsWith 'G' (wordOf 'G' ['0', '1'] : Option (AddressWord α)).toList = [w] := by
    rw [hw]
    exact wordsWith_of_all (by simpa using hletter)
  have hwords := wordsWith_cut hl hl' hraw (by decide : 'G' ≠ 'N') (by decide)
  rw [hG] at hwords
  cases hfeed : l.feed? with
  | none =>
    rw [hfeed] at hwords
    exact motionWord?_of_linear (l := l.apart) hcode (motionWord?_apart hl hnone) hwords
  | some _ =>
    rw [hfeed] at hwords
    exact motionWord?_of_linear (l := l) hcode hnone hwords

/-- It has a feed and goes where it went, exactly if it had a feed or can be given one: its code has
not ended before the feed, and no word of an axis goes on behind it. -/
theorem cut_iff (hl : l.IsRead) (hl' : l'.IsRead) (hraw : l'.raw = l.cutText feed) :
    (l'.x? = l.x? ∧ l'.z? = l.z? ∧ l'.feed?.isSome = true) ↔
      l.feed?.isSome = true ∨
        (l.isEnded = false ∧ l.apart.x? = l.x? ∧ l.apart.z? = l.z?) := by
  have hsame {letter : Char} (hN : letter ≠ 'N') (hF : letter ≠ 'F') (hG : letter ≠ 'G') :
      wordsWith letter l'.words
        = wordsWith letter (if l.feed?.isSome then l.words else l.apart.words) := by
    have hnone : wordsWith letter (wordOf 'G' ['0', '1'] : Option (AddressWord α)).toList = [] :=
      wordsWith_of_ne (fun w hw => letter_of_mem_wordOf hw) hG
    rw [wordsWith_cut hl hl' hraw hN hF, hnone, List.nil_append]
  have hX := hsame (by decide : 'X' ≠ 'N') (by decide) (by decide)
  have hZ := hsame (by decide : 'Z' ≠ 'N') (by decide) (by decide)
  rw [feed?_cut hl hl' hraw]
  cases hfeed : l.feed? with
  | none =>
    rw [hfeed] at hX hZ
    have hx : l'.x? = l.apart.x? := value?_congr hX
    have hz : l'.z? = l.apart.z? := value?_congr hZ
    rw [hx, hz]
    simp
    tauto
  | some _ =>
    rw [hfeed] at hX hZ
    have hx : l'.x? = l.x? := value?_congr hX
    have hz : l'.z? = l.z? := value?_congr hZ
    simp [hx, hz]

end Line

end

/-! ## A height in the place of another -/

section

variable [LawfulScalar α]

theorem exists_heightWord (height : α) :
    ∃ (w : WordNumber) (v : α), ("Z" ++ Word.format height).toList = 'Z' :: w.text ∧
      wordOf 'Z' w.text = some { letter := 'Z', value := v } ∧ Scalar.isFinite v = true ∧
      (if Scalar.isFinite (Scalar.round4 height) then v == Scalar.round4 height else v == 0) = true ∧
      (¬ height ≤ 0 → 0 ≤ v) := by
  obtain ⟨w, v, htext, hread, hvalue, hpositive⟩ := exists_format_text height
  refine ⟨w, v, ?_, ?_, isFinite_of_read hread, hvalue, hpositive⟩
  · rw [String.toList_append, htext]
    rfl
  · rw [wordOf, Piece.word?, hread]
    rfl

namespace Line

variable {l l' : Line α} {height : α}

/-- A line with another height is the same line but for its heights. -/
theorem wordsWith_height (hl : l.IsRead) (hl' : l'.IsRead)
    (hraw : l'.raw = Edit.replaceWord l.raw 'Z' ("Z" ++ Word.format height)) {letter : Char}
    (hletter : letter ≠ 'Z') : wordsWith letter l'.words = wordsWith letter l.words := by
  cases hfront : l.hasInFront 'Z' with
  | false => rw [hl'.words, hraw, lineWords_replaceWord_of_not_any hfront, hl.words]
  | true =>
    obtain ⟨w, v, hword, hread, -⟩ := exists_heightWord height
    obtain ⟨a, o, b, hold, -, ho, hnew⟩ := exists_lineWords_replaceWord (α := α) (by decide)
      (by decide) w hword hfront
    have hold' : wordsWith letter o = [] := wordsWith_of_ne ho hletter
    have hnew' : wordsWith letter [{ letter := 'Z', value := v }] = [] :=
      wordsWith_of_ne (by simp) hletter
    rw [hl'.words, hraw, hnew, hl.words, hold, hread, Option.toList_some]
    simp only [wordsWith_append, hold', hnew']

/-- The height is read if a height stands in front of the first parenthesis. -/
theorem exists_z?_height (hl' : l'.IsRead)
    (hraw : l'.raw = Edit.replaceWord l.raw 'Z' ("Z" ++ Word.format height))
    (hfront : l.hasInFront 'Z' = true) :
    ∃ v, l'.z? = some v ∧ Scalar.isFinite v = true ∧
      (if Scalar.isFinite (Scalar.round4 height) then v == Scalar.round4 height else v == 0) = true ∧
      (¬ height ≤ 0 → 0 ≤ v) := by
  obtain ⟨w, v, hword, hread, hfinite, hvalue, hpositive⟩ := exists_heightWord height
  obtain ⟨a, o, b, -, ha, -, hnew⟩ := exists_lineWords_replaceWord (α := α) (by decide)
    (by decide) w hword hfront
  refine ⟨v, ?_, hfinite, hvalue, hpositive⟩
  have hZ : wordsWith 'Z' [{ letter := 'Z', value := v }] = [{ letter := 'Z', value := v }] := rfl
  rw [z?, value?_eq, hl'.words, hraw, hnew, hread, Option.toList_some, wordsWith_append,
    wordsWith_append, ha, hZ]
  rfl

omit [LawfulScalar α] in
theorem z?_height_of_not (hl : l.IsRead) (hl' : l'.IsRead)
    (hraw : l'.raw = Edit.replaceWord l.raw 'Z' ("Z" ++ Word.format height))
    (hfront : l.hasInFront 'Z' = false) : l'.z? = l.z? := by
  refine value?_congr ?_
  rw [hl'.words, hraw, lineWords_replaceWord_of_not_any hfront, hl.words]

/-- The line stops at the new height exactly if a height stands in front of its first parenthesis
and the new one can be written, or if the line stopped there before. -/
theorem height_iff (hl : l.IsRead) (hl' : l'.IsRead)
    (hraw : l'.raw = Edit.replaceWord l.raw 'Z' ("Z" ++ Word.format height)) :
    (∃ z, l'.z? = some z ∧ (z == Scalar.round4 height) = true) ↔
      (l.hasInFront 'Z' = true ∧ Scalar.isFinite (Scalar.round4 height) = true) ∨
        (l.hasInFront 'Z' = false ∧ ∃ z, l.z? = some z ∧ (z == Scalar.round4 height) = true) := by
  cases hfront : l.hasInFront 'Z' with
  | false => simp [z?_height_of_not hl hl' hraw hfront]
  | true =>
    obtain ⟨v, hz, hfinite, hvalue, -⟩ := exists_z?_height hl' hraw hfront
    constructor
    · rintro ⟨z, hz', heq⟩
      rw [hz] at hz'
      obtain rfl := Option.some.inj hz'
      exact Or.inl ⟨rfl, LawfulScalar.isFinite_of_beq heq hfinite⟩
    · rintro (⟨-, hfinite'⟩ | ⟨hnot, -⟩)
      · rw [if_pos hfinite'] at hvalue
        exact ⟨v, hz, hvalue⟩
      · cases hnot

end Line

end

/-! ## A face that is asked for as a cut -/

/-- The characters of a comment stand in the line, and none of them closes the comment. -/
theorem mem_commentBodies {opened : Option (List Char)} {cs body : List Char} {c : Char}
    (h : body ∈ commentBodies opened cs) (hc : c ∈ body) :
    (c ∈ cs ∧ c ≠ ')') ∨ c ∈ opened.getD [] := by
  induction cs generalizing opened with
  | nil =>
    cases opened with
    | none => cases h
    | some rest =>
      obtain rfl := List.mem_singleton.1 h
      exact Or.inr (List.mem_reverse.1 hc)
  | cons d cs ih =>
    cases opened with
    | none =>
      rcases ih h with ⟨hmem, hne⟩ | hmem
      · exact Or.inl ⟨List.mem_cons_of_mem _ hmem, hne⟩
      · split at hmem <;> cases hmem
    | some rest =>
      rw [commentBodies] at h
      split at h
      · rcases List.mem_cons.1 h with rfl | h
        · exact Or.inr (List.mem_reverse.1 hc)
        · rcases ih h with ⟨hmem, hne⟩ | hmem
          · exact Or.inl ⟨List.mem_cons_of_mem _ hmem, hne⟩
          · cases hmem
      · next hd =>
        rcases ih h with ⟨hmem, hne⟩ | hmem
        · exact Or.inl ⟨List.mem_cons_of_mem _ hmem, hne⟩
        · rcases List.mem_cons.1 hmem with rfl | hmem
          · exact Or.inl ⟨List.mem_cons_self, hd⟩
          · exact Or.inr hmem

theorem mem_intercalate {c : Char} {sep : String} {ls : List String}
    (h : c ∈ (sep.intercalate ls).toList) : c ∈ sep.toList ∨ ∃ l ∈ ls, c ∈ l.toList := by
  induction ls with
  | nil => simp at h
  | cons l ls ih =>
    cases ls with
    | nil =>
      rw [String.intercalate_singleton] at h
      exact Or.inr ⟨l, List.mem_cons_self, h⟩
    | cons l' ls =>
      rw [String.intercalate_cons_cons, String.toList_append, String.toList_append, List.mem_append,
        List.mem_append] at h
      rcases h with (h | h) | h
      · exact Or.inr ⟨l, List.mem_cons_self, h⟩
      · exact Or.inl h
      · rcases ih h with h | ⟨m, hm, h⟩
        · exact Or.inl h
        · exact Or.inr ⟨m, List.mem_cons_of_mem _ hm, h⟩

theorem mem_commentOf {cs : List Char} {comment : String} (h : commentOf cs = some comment)
    {c : Char} (hc : c ∈ comment.toList) : (c ∈ cs ∧ c ≠ ')') ∨ c = ' ' := by
  have hbodies : ∀ body ∈ ((commentBodies none cs).map Text.trim).filter (· ≠ []), c ∈ body →
      c ∈ cs ∧ c ≠ ')' := by
    intro body hbody hmem
    obtain ⟨whole, hwhole, rfl⟩ := List.mem_map.1 (List.mem_filter.1 hbody).1
    have hmem : c ∈ whole := (List.dropWhile_sublist _).mem (Edit.mem_trimEnd hmem)
    simpa using mem_commentBodies hwhole hmem
  unfold commentOf at h
  split at h
  · cases h
  · rw [← Option.some.inj h] at hc
    rcases mem_intercalate hc with hc | ⟨s, hs, hc⟩
    · exact Or.inr (by simpa using hc)
    · obtain ⟨body, hbody, rfl⟩ := List.mem_map.1 hs
      exact Or.inl (hbodies body hbody (by simpa using hc))

theorem Line.IsRead.comment {l : Line α} (h : l.IsRead) :
    ∀ comment ∈ l.comment, ')' ∉ comment.toList := by
  intro comment hcomment hmem
  rw [h] at hcomment
  rcases mem_commentOf hcomment hmem with ⟨-, hne⟩ | heq
  · exact hne rfl
  · exact absurd heq (by decide)

def faceText (feed : α) (comment : Option String) : String :=
  let code := "G01 Z0. " ++ feedWord feed
  match comment with
  | some comment => code ++ " (" ++ comment ++ ")"
  | none => code

def remarkText : Option String → List Char
  | some comment => '(' :: (comment.toList ++ [')'])
  | none => []

theorem codeOf_remarkText {comment : Option String} (h : ∀ c ∈ comment, ')' ∉ c.toList) :
    ∀ c ∈ codeOf [' '] (remarkText comment), c = ' ' := by
  cases comment with
  | none => simp [remarkText, codeOf, replaceComments]
  | some comment =>
    rw [remarkText, codeOf_comment (h comment rfl)]
    simp [codeOf, replaceComments]

/-- The text is a face and its comment, with a feed put in between. -/
theorem exists_faceText (feed : α) (comment : Option String) :
    ∃ raw, faceText feed comment = Edit.insertBeforeComment raw (feedWord feed) ∧
      frontOf raw.toList = "G01 Z0.".toList ∧ backOf raw.toList = remarkText comment := by
  have hface : '(' ∉ "G01 Z0.".toList := by decide
  have hhead : ∀ c ∈ (remarkText comment).head?, c = '(' := by
    cases comment <;> simp [remarkText]
  have hfront : frontOf ("G01 Z0.".toList ++ remarkText comment) = "G01 Z0.".toList := by
    rw [frontOf_append hface, frontOf_of_head hhead, List.append_nil]
  have hback : backOf ("G01 Z0.".toList ++ remarkText comment) = remarkText comment := by
    rw [backOf_append hface, backOf_of_head hhead]
  refine ⟨String.ofList ("G01 Z0.".toList ++ remarkText comment), ?_, ?_, ?_⟩
  · rw [← String.toList_inj, Edit.toList_insertBeforeComment, String.toList_ofList, hfront,
      Edit.tailOf, hback]
    have htrim : Text.trimEnd "G01 Z0.".toList = "G01 Z0.".toList := by decide
    rw [htrim]
    cases comment <;> simp [faceText, remarkText]
  · rw [String.toList_ofList, hfront]
  · rw [String.toList_ofList, hback]

section

variable [LawfulScalar α]

theorem exists_face_words (feed : α) {comment : Option String}
    (hcomment : ∀ c ∈ comment, ')' ∉ c.toList) :
    ∃ w v u : α, lineWords (faceText feed comment).toList
        = [{ letter := 'G', value := w }, { letter := 'Z', value := v },
          { letter := 'F', value := u }] ∧
      AddressWord.code? { letter := 'G', value := w } = some 1 ∧ (v == 0) = true := by
  obtain ⟨raw, htext, hfront, hback⟩ := exists_faceText feed comment
  obtain ⟨text, u, hword, hfeed⟩ := exists_feedWord feed
  obtain ⟨w, hone, hcode⟩ := LawfulScalar.read_one (α := α)
  obtain ⟨v, hzero, hface⟩ := LawfulScalar.read_zero (α := α)
  have hfrontWords : (frontWords raw.toList : List (AddressWord α))
      = [{ letter := 'G', value := w }, { letter := 'Z', value := v }] := by
    have hpieces : pieces 0 "G01 Z0.".toList
        = [.word 'G' [] ['0', '1'], .other ' ', .word 'Z' [] ['0', '.']] := by decide
    have hend : ';' ∉ frontOf raw.toList := by rw [hfront]; decide
    rw [frontWords_of_not_ended hend, hfront, codeWords, hpieces]
    simp only [List.filterMap_cons, List.filterMap_nil, Piece.word?, hone, hzero, Option.map_some]
    rfl
  have hbackWords : (backWords raw.toList : List (AddressWord α)) = [] := by
    rw [backWords, hback]
    refine codeWords_of_no_letter fun c hc => ?_
    rw [codeOf_remarkText hcomment c hc]
    decide
  have hend : ';' ∉ frontOf raw.toList := by rw [hfront]; decide
  refine ⟨w, v, u, ?_, hcode, hface⟩
  rw [htext, Edit.lineWords_insert (by decide) text hword hend, hfrontWords, hfeed, hbackWords]
  rfl

/-- The face is read as a cut at height zero with a feed. -/
theorem Line.face_reads {l : Line α} {feed : α} {comment : Option String} (hl : l.IsRead)
    (hraw : l.raw = faceText feed comment) (hcomment : ∀ c ∈ comment, ')' ∉ c.toList) :
    l.event = .motion .linear ∧ l.motionWord? = some .linear ∧ l.x? = none ∧
      (∃ z, l.z? = some z ∧ (z == 0) = true) ∧ l.feed?.isSome = true := by
  obtain ⟨w, v, u, hwords, hcode, hface⟩ := exists_face_words feed hcomment
  rw [← hraw, ← hl.words] at hwords
  have hmotion : l.motionWord? = some .linear := by
    simp [motionWord?, hwords, hcode, MotionWord.ofCode?]
  refine ⟨?_, hmotion, ?_, ⟨v, ?_, hface⟩, ?_⟩
  · have hmachine : l.isMachine = false := by simp [isMachine, has, hwords, hcode]
    have htool : l.tool? = none := by simp [tool?, hwords]
    simp [event, hmachine, htool, hmotion]
  · simp [x?, value?, hwords]
  · simp [z?, value?, hwords]
  · simp [feed?, value?, hwords]

end

end SpacerTurning
