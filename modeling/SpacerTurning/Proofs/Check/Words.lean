import SpacerTurning.Proofs.Check.Pieces

/-!
Words of a line.

The words of a line are the words of its code, so that what is known of parts in a row holds of
words in a row.  Code in front of the first parenthesis is read as it stands, and a comment leaves a
blank behind, which ends every number.
-/

namespace SpacerTurning

open Number

section

variable {α : Type} [Scalar α]

/-- The words of a text without comments. -/
def codeWords (cs : List Char) : List (AddressWord α) := (pieces 0 cs).filterMap Piece.word?

/-- The words of a line, of which only the code counts. -/
def lineWords (cs : List Char) : List (AddressWord α) := codeWords (codeOf [' '] cs)

theorem Line.words_parse (n : Nat) (raw : String) :
    (Line.parse n raw : Line α).words = lineWords raw.toList := rfl

@[simp] theorem codeWords_nil : (codeWords [] : List (AddressWord α)) = [] := rfl

theorem codeWords_append {a b : List Char} (hb : EndsNumber b)
    (h : openLetter? a = none ∨ numberPart b = none) :
    (codeWords (a ++ b) : List (AddressWord α)) = codeWords a ++ codeWords b := by
  rw [codeWords, pieces_append hb h, List.filterMap_append]
  rfl

theorem codeWords_of_not_alpha {c : Char} (hc : c.isAlpha = false) (cs : List Char) :
    (codeWords (c :: cs) : List (AddressWord α)) = codeWords cs := by
  rw [codeWords, pieces_of_not_alpha hc]
  rfl

/-- A text without letters in front of another has no words. -/
theorem codeWords_append_of_no_letter {a : List Char} (ha : ∀ c ∈ a, c.isAlpha = false)
    (b : List Char) : (codeWords (a ++ b) : List (AddressWord α)) = codeWords b := by
  induction a with
  | nil => rfl
  | cons c a ih =>
    rw [List.cons_append, codeWords_of_not_alpha (ha c List.mem_cons_self),
      ih fun d hd => ha d (List.mem_cons_of_mem _ hd)]

theorem codeWords_of_no_letter {a : List Char} (ha : ∀ c ∈ a, c.isAlpha = false) :
    (codeWords a : List (AddressWord α)) = [] := by
  simpa using codeWords_append_of_no_letter (α := α) ha []

theorem isAlpha_of_isBlank {c : Char} (h : Text.isBlank c = true) : c.isAlpha = false :=
  isAlpha_of_isNumeric (by simp [isNumeric, h])

theorem endsNumber_of_blank {g : List Char} (hg : ∀ c ∈ g, Text.isBlank c = true) :
    EndsNumber g := by
  intro c hc
  have hblank := hg c (List.mem_of_mem_head? hc)
  constructor
  · cases hd : Text.isDecimalDigit c with
    | false => rfl
    | true => rw [Text.isBlank_of_isDecimalDigit hd] at hblank; cases hblank
  · rintro rfl
    exact absurd hblank (by decide)

theorem codeWords_append_blanks (a : List Char) {g : List Char}
    (hg : ∀ c ∈ g, Text.isBlank c = true) :
    (codeWords (a ++ g) : List (AddressWord α)) = codeWords a := by
  rw [codeWords_append (endsNumber_of_blank hg) (Or.inr (numberPart_of_blank hg)),
    codeWords_of_no_letter fun c hc => isAlpha_of_isBlank (hg c hc), List.append_nil]

/-- A text is what is left of it without the blanks at its end, and those blanks. -/
theorem exists_trimEnd_append (cs : List Char) :
    ∃ g, cs = Text.trimEnd cs ++ g ∧ ∀ c ∈ g, Text.isBlank c = true := by
  refine ⟨(cs.reverse.takeWhile Text.isBlank).reverse, ?_, ?_⟩
  · rw [Text.trimEnd, ← List.reverse_append, List.takeWhile_append_dropWhile, List.reverse_reverse]
  · intro c hc
    exact List.all_eq_true.1 List.all_takeWhile c (List.mem_reverse.1 hc)

theorem codeWords_trimEnd (cs : List Char) :
    (codeWords (Text.trimEnd cs) : List (AddressWord α)) = codeWords cs := by
  obtain ⟨g, hg, hblank⟩ := exists_trimEnd_append cs
  conv => rhs; rw [hg]
  rw [codeWords_append_blanks _ hblank]

def wordOf (letter : Char) (number : List Char) : Option (AddressWord α) :=
  Piece.word? (.word letter [] number)

theorem codeWords_letter {l : Char} (hl : l.isAlpha = true) {g n rest : List Char}
    (h : numberPart (g ++ n ++ rest) = some (g, n)) :
    (codeWords (l :: (g ++ n ++ rest)) : List (AddressWord α))
      = (wordOf l n).toList ++ codeWords rest := by
  have hdrop : (g ++ n ++ rest).drop (g.length + n.length) = rest := by
    rw [← List.length_append, List.drop_left]
  have hword : (Piece.word? (.word l g n) : Option (AddressWord α)) = wordOf l n := rfl
  rw [codeWords, pieces_of_some hl h, hdrop, List.filterMap_cons, hword]
  cases (wordOf l n : Option (AddressWord α)) <;> rfl

/-- A text in front of a letter reads as it does alone. -/
theorem codeWords_append_letter (a : List Char) {l : Char} (hl : l.isAlpha = true)
    (rest : List Char) :
    (codeWords (a ++ l :: rest) : List (AddressWord α)) = codeWords a ++ codeWords (l :: rest) := by
  have hnot := isNumeric_of_isAlpha hl
  simp only [isNumeric, Bool.or_eq_false_iff, beq_eq_false_iff_ne] at hnot
  obtain ⟨⟨⟨⟨hblank, hdigit⟩, hpoint⟩, hminus⟩, hplus⟩ := hnot
  refine codeWords_append (endsNumber_cons.2 ⟨hdigit, hpoint⟩) (Or.inr (numberPart_of_head ?_))
  rintro c ⟨⟩
  exact ⟨hblank, hdigit, hpoint, hminus, hplus⟩

end

/-! ## Code -/

theorem replaceComments_append {a : List Char} (ha : '(' ∉ a) (filler b : List Char) :
    replaceComments filler false (a ++ b) = a ++ replaceComments filler false b := by
  induction a with
  | nil => rfl
  | cons c a ih =>
    have hc : c ≠ '(' := fun e => ha (e ▸ List.mem_cons_self)
    have hrest : '(' ∉ a := fun m => ha (List.mem_cons_of_mem _ m)
    simp [replaceComments, hc, ih hrest]

/-- An open comment goes on to its closing parenthesis. -/
theorem replaceComments_inside {body : List Char} (h : ')' ∉ body) (filler rest : List Char) :
    replaceComments filler true (body ++ rest) = replaceComments filler true rest := by
  induction body with
  | nil => rfl
  | cons c body ih =>
    have hc : c ≠ ')' := fun e => h (e ▸ List.mem_cons_self)
    have hrest : ')' ∉ body := fun m => h (List.mem_cons_of_mem _ m)
    have hstill : (c != ')') = true := by simpa using hc
    rw [List.cons_append, replaceComments, hstill, ih hrest]

theorem replaceComments_body {body : List Char} (h : ')' ∉ body) (filler rest : List Char) :
    replaceComments filler true (body ++ ')' :: rest) = replaceComments filler false rest :=
  replaceComments_inside h filler (')' :: rest)

/-- Code in front of every comment and every semicolon stands as it is. -/
theorem codeOf_append {a : List Char} (hopen : '(' ∉ a) (hend : ';' ∉ a) (filler b : List Char) :
    codeOf filler (a ++ b) = a ++ codeOf filler b := by
  have hall : ∀ c ∈ a, (c != ';') = true := fun c hc => by
    have : c ≠ ';' := fun e => hend (e ▸ hc)
    simpa using this
  rw [codeOf, replaceComments_append hopen, List.takeWhile_append_of_pos hall]
  rfl

theorem codeOf_of_plain {a : List Char} (hopen : '(' ∉ a) (hend : ';' ∉ a) (filler : List Char) :
    codeOf filler a = a := by
  simpa [codeOf, replaceComments] using codeOf_append hopen hend filler []

theorem takeWhile_append_of_end {a : List Char} (hend : ';' ∈ a) (b : List Char) :
    (a ++ b).takeWhile (· != ';') = a.takeWhile (· != ';') := by
  have hlen : (a.takeWhile (· != ';')).length ≠ a.length := by
    intro hlen
    have hall := List.all_eq_true.1 (List.all_takeWhile (l := a) (p := (· != ';')))
    rw [(List.takeWhile_prefix (l := a) (· != ';')).eq_of_length hlen] at hall
    simpa using hall ';' hend
  rw [List.takeWhile_append, if_neg hlen]

/-- What follows a semicolon is no code. -/
theorem codeOf_append_of_end {a : List Char} (hopen : '(' ∉ a) (hend : ';' ∈ a)
    (filler b : List Char) : codeOf filler (a ++ b) = a.takeWhile (· != ';') := by
  rw [codeOf, replaceComments_append hopen, takeWhile_append_of_end hend]

/-- A comment leaves a blank, and what comes behind it. -/
theorem codeOf_comment {body : List Char} (h : ')' ∉ body) (rest : List Char) :
    codeOf [' '] ('(' :: (body ++ ')' :: rest)) = ' ' :: codeOf [' '] rest := by
  simp [codeOf, replaceComments, replaceComments_body h]

/-- The code of a text that is a comment in front, or nothing, ends a number in front of it. -/
theorem endsNumber_codeOf {cs : List Char} (h : ∀ c ∈ cs.head?, c = '(') :
    EndsNumber (codeOf [' '] cs) := by
  cases cs with
  | nil => exact endsNumber_nil
  | cons c cs =>
    obtain rfl := h c rfl
    have hblank : Text.isDecimalDigit ' ' = false ∧ ' ' ≠ '.' := by decide
    simpa [codeOf, replaceComments] using endsNumber_cons.2 hblank

/-- Blanks after a text stay there, or belong to a comment that is never closed. -/
theorem replaceComments_append_blanks (filler : List Char) {g : List Char}
    (hg : ∀ c ∈ g, Text.isBlank c = true) (isOpen : Bool) (cs : List Char) :
    ∃ g', (∀ c ∈ g', Text.isBlank c = true) ∧
      replaceComments filler isOpen (cs ++ g) = replaceComments filler isOpen cs ++ g' := by
  induction cs generalizing isOpen with
  | nil =>
    cases isOpen with
    | false =>
      have hparen : '(' ∉ g := fun m => absurd (hg _ m) (by decide)
      have h := replaceComments_append hparen filler []
      rw [List.append_nil] at h
      exact ⟨g, hg, by simpa [replaceComments] using h⟩
    | true =>
      refine ⟨[], by simp, ?_⟩
      induction g with
      | nil => rfl
      | cons c g ih =>
        have hc : c ≠ ')' := by
          rintro rfl
          exact absurd (hg _ List.mem_cons_self) (by decide)
        have hstill : (c != ')') = true := by simpa using hc
        have ih := ih fun d hd => hg d (List.mem_cons_of_mem _ hd)
        simpa [replaceComments, hstill] using ih
  | cons c cs ih =>
    cases isOpen with
    | true => exact ih (c != ')')
    | false =>
      by_cases hc : c = '('
      · obtain ⟨g', hg', h⟩ := ih true
        exact ⟨g', hg', by simp [replaceComments, hc, h]⟩
      · obtain ⟨g', hg', h⟩ := ih false
        exact ⟨g', hg', by simp [replaceComments, hc, h]⟩

/-- Blanks after a text are blanks after its code, if they are in its code at all. -/
theorem exists_codeOf_append_blanks (filler cs : List Char) {g : List Char}
    (hg : ∀ c ∈ g, Text.isBlank c = true) :
    ∃ g', (∀ c ∈ g', Text.isBlank c = true) ∧
      codeOf filler (cs ++ g) = codeOf filler cs ++ g' := by
  obtain ⟨g', hg', h⟩ := replaceComments_append_blanks filler hg false cs
  have hend : ∀ c ∈ g', (c != ';') = true := by
    intro c hc
    have hblank := hg' c hc
    have : c ≠ ';' := by
      rintro rfl
      exact absurd hblank (by decide)
    simpa using this
  rw [codeOf, h, List.takeWhile_append, codeOf]
  split
  · next hlen =>
    refine ⟨g', hg', ?_⟩
    rw [(List.takeWhile_prefix (· != ';')).eq_of_length hlen, List.takeWhile_eq_self_iff.2 hend]
  · exact ⟨[], by simp, by simp⟩

section

variable {α : Type} [Scalar α]

theorem lineWords_append_blanks (cs : List Char) {g : List Char}
    (hg : ∀ c ∈ g, Text.isBlank c = true) :
    (lineWords (cs ++ g) : List (AddressWord α)) = lineWords cs := by
  obtain ⟨g', hg', h⟩ := exists_codeOf_append_blanks [' '] cs hg
  rw [lineWords, h, codeWords_append_blanks _ hg']
  rfl

theorem lineWords_blanks_append {g : List Char} (hg : ∀ c ∈ g, Text.isBlank c = true)
    (cs : List Char) : (lineWords (g ++ cs) : List (AddressWord α)) = lineWords cs := by
  have hopen : '(' ∉ g := fun m => absurd (hg _ m) (by decide)
  have hend : ';' ∉ g := fun m => absurd (hg _ m) (by decide)
  rw [lineWords, lineWords, codeOf_append hopen hend,
    codeWords_append_of_no_letter fun c hc => isAlpha_of_isBlank (hg c hc)]

end

end SpacerTurning
