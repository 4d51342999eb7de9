import SpacerTurning.Proofs.Check.Edit

/-!
A word in the place of another.

The first word with a letter stands between a text without such a word and the rest of the code.  It
is looked for in front of the first parenthesis, in the code or behind the semicolon that ends it,
and it changes what is read only if it stands in the code.
-/

namespace SpacerTurning

open Number

def Piece.isWord (letter : Char) : Piece → Bool
  | .word l _ _ => l.toUpper = letter.toUpper
  | .other _ => false

theorem replaceFirst_of_isWord {letter : Char} {p : Piece} (h : p.isWord letter = true)
    (replacement : List Char) (ps : List Piece) :
    Edit.replaceFirst letter replacement (p :: ps) = replacement ++ ps.flatMap Piece.text := by
  cases p with
  | other c => cases h
  | word l gap number => rw [Edit.replaceFirst, if_pos (by simpa [Piece.isWord] using h)]

theorem replaceFirst_of_not_isWord {letter : Char} {p : Piece} (h : p.isWord letter = false)
    (replacement : List Char) (ps : List Piece) :
    Edit.replaceFirst letter replacement (p :: ps)
      = p.text ++ Edit.replaceFirst letter replacement ps := by
  cases p with
  | other c => rfl
  | word l gap number => rw [Edit.replaceFirst, if_neg (by simpa [Piece.isWord] using h)]

def codeInFront (cs : List Char) : List Char := (frontOf cs).takeWhile (· != ';')

theorem not_mem_codeInFront (cs : List Char) : '(' ∉ codeInFront cs ∧ ';' ∉ codeInFront cs := by
  refine ⟨fun h => paren_not_mem_frontOf cs ((List.takeWhile_prefix _).subset h), fun h => ?_⟩
  simpa using List.all_eq_true.1 (List.all_takeWhile (l := frontOf cs) (p := (· != ';'))) ';' h

/-- Behind the code in front of the first parenthesis stands that parenthesis, or a semicolon and
what is no code. -/
theorem exists_codeInFront_append (cs : List Char) :
    ∃ rest, frontOf cs = codeInFront cs ++ rest ∧ ∀ c ∈ rest.head?, c = ';' := by
  refine ⟨(frontOf cs).dropWhile (· != ';'), List.takeWhile_append_dropWhile.symm, ?_⟩
  intro c hc
  have h := List.head?_dropWhile_not (· != ';') (frontOf cs)
  rw [hc] at h
  simpa using h

/-! ## The first word with a letter -/

theorem numberPart_append_of_some {cs g n b : List Char} (h : numberPart (g ++ n ++ cs) = some (g, n))
    (hb : EndsNumber b) : numberPart (g ++ n ++ (cs ++ b)) = some (g, n) := by
  obtain ⟨rest, hrest, -, ⟨last, hlast, hblank⟩, -⟩ := numberPart_prefix h
  have hsome : ∃ c ∈ g ++ n ++ cs, Text.isBlank c = false :=
    ⟨last, by simp [List.mem_of_getLast? hlast], hblank⟩
  rw [← List.append_assoc, numberPart_append hsome hb, h]

theorem head?_of_numberPart {cs g n : List Char} (h : numberPart (g ++ n ++ cs) = some (g, n)) :
    ∀ c ∈ cs.head?, Text.isDecimalDigit c = false := by
  obtain ⟨rest, hrest, -, -, hhead⟩ := numberPart_prefix h
  rw [List.append_cancel_left hrest]
  exact hhead

/-- A text where a word with a letter is the first one. -/
structure FirstWord (letter : Char) (cs : List Char) where
  before : List Char
  first : Char
  gap : List Char
  number : List Char
  behind : List Char
  eq : cs = before ++ first :: (gap ++ number ++ behind)
  isAlpha : first.isAlpha = true
  isFirst : first.toUpper = letter.toUpper
  numberPart_eq : numberPart (gap ++ number ++ behind) = some (gap, number)

namespace FirstWord

variable {letter : Char} {cs : List Char}

/-- The text with something in the place of the word. -/
def replace (f : FirstWord letter cs) (replacement : List Char) : List Char :=
  f.before ++ (replacement ++ f.behind)

theorem not_mem_replace (f : FirstWord letter cs) {replacement : List Char} {c : Char}
    (hcs : c ∉ cs) (hreplacement : c ∉ replacement) : c ∉ f.replace replacement := by
  rw [f.eq] at hcs
  simp only [List.mem_append, List.mem_cons, not_or] at hcs
  simp [replace, hcs, hreplacement]

def push (f : FirstWord letter cs) {whole front : List Char} (h : whole = front ++ cs) :
    FirstWord letter whole :=
  { f with
    before := front ++ f.before
    eq := by rw [h, List.append_assoc, ← f.eq] }

end FirstWord

variable {α : Type} [Scalar α]

theorem codeWords_firstWord {letter : Char} {cs : List Char} (f : FirstWord letter cs) :
    (codeWords cs : List (AddressWord α))
      = codeWords f.before ++ codeWords (f.first :: (f.gap ++ f.number ++ f.behind)) := by
  conv => lhs; rw [f.eq]
  exact codeWords_append_letter f.before f.isAlpha _

/-- The word is the first one to be read, and the one to be replaced. -/
structure FirstWord.Leads (α : Type) [Scalar α] {letter : Char} {cs : List Char}
    (f : FirstWord letter cs) : Prop where
  words : wordsWith letter.toUpper (codeWords f.before : List (AddressWord α)) = []
  replaced (replacement : List Char) :
    Edit.replaceFirst letter replacement (pieces 0 cs) = f.replace replacement

/-- A piece that is no such word stays in front. -/
theorem FirstWord.Leads.push {letter : Char} {cs : List Char} {f : FirstWord letter cs}
    (hf : f.Leads α) {whole : List Char} {p : Piece} (hwhole : whole = p.text ++ cs)
    (hpieces : pieces 0 whole = p :: pieces 0 cs) (hp : p.isWord letter = false)
    {ws : List (AddressWord α)} (hcode : codeWords whole = ws ++ codeWords cs)
    (hws : wordsWith letter.toUpper ws = []) : (f.push hwhole).Leads α where
  words := by
    have hwords := codeWords_firstWord (α := α) (f.push hwhole)
    rw [hcode, codeWords_firstWord f, ← List.append_assoc] at hwords
    rw [← List.append_cancel_right hwords, wordsWith_append, hws, hf.words]
    rfl
  replaced replacement := by
    rw [hpieces, replaceFirst_of_not_isWord hp, hf.replaced, FirstWord.replace, ← List.append_assoc]
    rfl

/-- The word that is replaced is found where it is the first one. -/
theorem exists_firstWord (letter : Char) (cs : List Char)
    (h : (pieces 0 cs).any (·.isWord letter) = true) : ∃ f : FirstWord letter cs, f.Leads α := by
  match cs with
  | [] => simp [pieces] at h
  | c :: rest =>
    -- A character that is no word of its own stays in front of the first word of the rest.
    have hother (hpieces : pieces 0 (c :: rest) = .other c :: pieces 0 rest) :
        ∃ f : FirstWord letter (c :: rest), f.Leads α := by
      have hrest : (pieces 0 rest).any (·.isWord letter) = true := by
        simpa [hpieces, Piece.isWord] using h
      obtain ⟨f, hf⟩ := exists_firstWord letter rest hrest
      have hcode : (codeWords (c :: rest) : List (AddressWord α)) = [] ++ codeWords rest := by
        rw [codeWords, hpieces]
        rfl
      have hwhole : c :: rest = (Piece.other c).text ++ rest := rfl
      exact ⟨_, hf.push hwhole hpieces rfl hcode rfl⟩
    cases hc : c.isAlpha with
    | false => exact hother (pieces_of_not_alpha hc rest)
    | true =>
      cases hnumber : numberPart rest with
      | none => exact hother (pieces_of_none hnumber)
      | some r =>
        obtain ⟨g, n⟩ := r
        obtain ⟨behind, hrest, -, -, -⟩ := numberPart_prefix hnumber
        have hdrop : rest.drop (g.length + n.length) = behind := by
          rw [hrest, ← List.length_append, List.drop_left]
        have hpieces := pieces_of_some hc hnumber
        rw [hdrop] at hpieces
        rw [hrest] at hnumber
        cases hword : Piece.isWord letter (.word c g n) with
        | true =>
          refine ⟨⟨[], c, g, n, behind, by rw [hrest]; rfl, hc, by simpa [Piece.isWord] using hword,
            hnumber⟩, rfl, fun replacement => ?_⟩
          rw [hpieces, replaceFirst_of_isWord hword, flatMap_text_pieces]
          rfl
        | false =>
          have hbehind : (pieces 0 behind).any (·.isWord letter) = true := by
            rwa [hpieces, List.any_cons, hword, Bool.false_or] at h
          have hshorter : behind.length < rest.length + 1 := by
            rw [hrest]
            simp
            omega
          obtain ⟨f, hf⟩ := exists_firstWord letter behind hbehind
          have hletter : letter.toUpper ≠ c.toUpper := by
            simpa [Piece.isWord, eq_comm] using hword
          have hcode : (codeWords (c :: rest) : List (AddressWord α))
              = (wordOf c n).toList ++ codeWords behind := by
            rw [hrest]
            exact codeWords_letter hc hnumber
          have hwhole : c :: rest = (Piece.word c g n).text ++ behind := by
            rw [hrest]
            rfl
          exact ⟨_, hf.push hwhole hpieces hword hcode
            (wordsWith_of_ne (fun w hw => letter_of_mem_wordOf hw) hletter)⟩
termination_by cs.length

/-! ## The line with another word -/

theorem replaceFirst_append_of_any {letter : Char} {replacement : List Char} {ps : List Piece}
    (h : ps.any (·.isWord letter) = true) (qs : List Piece) :
    Edit.replaceFirst letter replacement (ps ++ qs)
      = Edit.replaceFirst letter replacement ps ++ qs.flatMap Piece.text := by
  induction ps with
  | nil => simp at h
  | cons p ps ih =>
    cases hp : p.isWord letter with
    | true => simp [replaceFirst_of_isWord hp]
    | false =>
      rw [List.any_cons, hp, Bool.false_or] at h
      simp [replaceFirst_of_not_isWord hp, ih h]

theorem replaceFirst_append_of_not_any {letter : Char} (replacement : List Char) {ps : List Piece}
    (h : ps.any (·.isWord letter) = false) (qs : List Piece) :
    Edit.replaceFirst letter replacement (ps ++ qs)
      = ps.flatMap Piece.text ++ Edit.replaceFirst letter replacement qs := by
  induction ps with
  | nil => rfl
  | cons p ps ih =>
    rw [List.any_cons, Bool.or_eq_false_iff] at h
    simp [replaceFirst_of_not_isWord h.1, ih h.2]

theorem pieces_append_semicolon (cs : List Char) {rest : List Char}
    (h : ∀ c ∈ rest.head?, c = ';') : pieces 0 (cs ++ rest) = pieces 0 cs ++ pieces 0 rest := by
  refine pieces_append (fun c hc => ?_) (Or.inr (numberPart_of_head fun c hc => ?_))
  · obtain rfl := h c hc
    decide
  · obtain rfl := h c hc
    decide

theorem toList_replaceWord (raw : String) (letter : Char) (replacement : String) :
    (Edit.replaceWord raw letter replacement).toList
      = Edit.replaceFirst letter replacement.toList (pieces 0 (frontOf raw.toList))
        ++ backOf raw.toList := by
  rw [Edit.replaceWord, String.toList_ofList]
  rfl

/-- A line where the code in front of the first parenthesis has no word with the letter reads as it
did. -/
theorem lineWords_replaceWord_of_not_any {raw replacement : String} {letter : Char}
    (h : (pieces 0 (codeInFront raw.toList)).any (·.isWord letter) = false) :
    (lineWords (Edit.replaceWord raw letter replacement).toList : List (AddressWord α))
      = lineWords raw.toList := by
  obtain ⟨rest, hfront, hhead⟩ := exists_codeInFront_append raw.toList
  have hpieces := pieces_append_semicolon (codeInFront raw.toList) hhead
  have hnew : (Edit.replaceWord raw letter replacement).toList = codeInFront raw.toList
      ++ (Edit.replaceFirst letter replacement.toList (pieces 0 rest) ++ backOf raw.toList) := by
    rw [toList_replaceWord, hfront, hpieces, replaceFirst_append_of_not_any _ h, flatMap_text_pieces,
      List.append_assoc]
  have hraw : raw.toList = codeInFront raw.toList ++ (rest ++ backOf raw.toList) := by
    rw [← List.append_assoc, ← hfront, frontOf_append_backOf]
  obtain ⟨hopen, hend⟩ := not_mem_codeInFront raw.toList
  rw [hnew]
  conv => rhs; rw [hraw]
  cases rest with
  | nil => rfl
  | cons c rest =>
    obtain rfl := hhead c rfl
    have hcode (b : List Char) : codeOf [' '] (';' :: b) = [] := by simp [codeOf, replaceComments]
    have hstay : Edit.replaceFirst letter replacement.toList (pieces 0 (';' :: rest))
        = ';' :: Edit.replaceFirst letter replacement.toList (pieces 0 rest) := by
      rw [pieces_of_not_alpha (by decide), Edit.replaceFirst]
    rw [hstay, List.cons_append, List.cons_append, lineWords, lineWords, codeOf_append hopen hend,
      codeOf_append hopen hend, hcode, hcode]

/-- A line where that code has such a word has the new word in the place of the first one. -/
theorem exists_lineWords_replaceWord {raw replacement : String} {letter : Char}
    (halpha : letter.isAlpha = true) (hupper : letter.toUpper = letter) (w : WordNumber)
    (hreplacement : replacement.toList = letter :: w.text)
    (h : (pieces 0 (codeInFront raw.toList)).any (·.isWord letter) = true) :
    ∃ a o b : List (AddressWord α), lineWords raw.toList = a ++ (o ++ b) ∧
      wordsWith letter a = [] ∧ (∀ w ∈ o, w.letter = letter) ∧
      lineWords (Edit.replaceWord raw letter replacement).toList
        = a ++ ((wordOf letter w.text).toList ++ b) := by
  obtain ⟨rest, hfront, hhead⟩ := exists_codeInFront_append raw.toList
  have hpieces := pieces_append_semicolon (codeInFront raw.toList) hhead
  obtain ⟨f, ⟨hnone, hreplace⟩⟩ := exists_firstWord (α := α) letter _ h
  obtain ⟨hopen, hend⟩ := not_mem_codeInFront raw.toList
  have hraw : raw.toList = codeInFront raw.toList ++ (rest ++ backOf raw.toList) := by
    rw [← List.append_assoc, ← hfront, frontOf_append_backOf]
  have hnew : (Edit.replaceWord raw letter replacement).toList
      = f.replace replacement.toList ++ (rest ++ backOf raw.toList) := by
    rw [toList_replaceWord, hfront, hpieces, replaceFirst_append_of_any h, flatMap_text_pieces,
      hreplace, List.append_assoc]
  -- What comes behind is the same code in the old line and in the new one.
  have hends : EndsNumber (codeOf [' '] (rest ++ backOf raw.toList)) := by
    cases rest with
    | nil => exact endsNumber_codeOf (head?_backOf raw.toList)
    | cons c rest =>
      obtain rfl := hhead c rfl
      simpa [codeOf, replaceComments] using endsNumber_nil
  have hreplaceOpen : '(' ∉ f.replace replacement.toList ∧ ';' ∉ f.replace replacement.toList := by
    rw [hreplacement]
    exact ⟨f.not_mem_replace hopen (Edit.not_mem_word halpha w (by simp)),
      f.not_mem_replace hend (Edit.not_mem_word halpha w (by simp))⟩
  have hold := numberPart_append_of_some f.numberPart_eq hends
  have hdigit : ∀ c ∈ (f.behind ++ codeOf [' '] (rest ++ backOf raw.toList)).head?,
      Text.isDecimalDigit c = false := by
    cases hbehind : f.behind with
    | nil => exact fun c hc => (hends c hc).1
    | cons c behind =>
      have := head?_of_numberPart f.numberPart_eq
      rw [hbehind] at this
      rintro d ⟨⟩
      exact this c rfl
  refine ⟨codeWords f.before, (wordOf f.first f.number).toList,
    codeWords (f.behind ++ codeOf [' '] (rest ++ backOf raw.toList)), ?_, ?_, ?_, ?_⟩
  · conv => lhs; rw [hraw]
    rw [lineWords, codeOf_append hopen hend]
    conv => lhs; rw [f.eq]
    rw [List.append_assoc, List.cons_append, List.append_assoc, codeWords_append_letter _ f.isAlpha,
      codeWords_letter f.isAlpha hold]
  · rwa [hupper] at hnone
  · intro v hv
    rw [letter_of_mem_wordOf hv, f.isFirst, hupper]
  · have hnumber := numberPart_text w hdigit
    have hletter : (codeWords (letter :: (w.text
          ++ (f.behind ++ codeOf [' '] (rest ++ backOf raw.toList)))) : List (AddressWord α))
        = (wordOf letter w.text).toList
          ++ codeWords (f.behind ++ codeOf [' '] (rest ++ backOf raw.toList)) :=
      codeWords_letter (g := []) halpha hnumber
    rw [hnew, lineWords, codeOf_append hreplaceOpen.1 hreplaceOpen.2, FirstWord.replace,
      hreplacement, ← hletter, ← codeWords_append_letter _ halpha]
    simp

end SpacerTurning
