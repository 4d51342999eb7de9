import SpacerTurning.Proofs.Check.Mending

/-!
Sequence numbers.

A sequence number in front of a line adds words with its own letter, and no others.  Here each way
in which a line is mended is compared on a line and on the line with a sequence number: the number
stays where it is, or what both lines are made into has the same words but for that letter.
-/

namespace SpacerTurning

open Number

/-- A line as it is, or with a sequence number and blanks in front.  Blanks that the line starts with
may be left out. -/
inductive IsNumbered : List Char → List Char → Prop where
  | same (cs : List Char) : IsNumbered cs cs
  | number {digits gap blanks : List Char} (cs : List Char) (hdigits : AllDigits digits)
      (hne : digits ≠ []) (hgap : ∀ c ∈ gap, Text.isBlank c = true) (hsome : gap ≠ [])
      (hblanks : ∀ c ∈ blanks, Text.isBlank c = true) :
      IsNumbered (blanks ++ cs) ('N' :: (digits ++ (gap ++ cs)))

/-- A line with a sequence number and one blank in front. -/
theorem isNumbered_append {digits : String} (hdigits : AllDigits digits.toList)
    (hne : digits.toList ≠ []) (raw : String) :
    IsNumbered raw.toList ("N" ++ digits ++ " " ++ raw).toList := by
  have hblank : ∀ c ∈ [' '], Text.isBlank c = true := by simp
  have h := IsNumbered.number raw.toList hdigits hne hblank (by simp) (by simp : ∀ c ∈ [], _)
  simpa [String.toList_append] using h

/-! ## Blanks at the end -/

theorem trimEnd_append_of_blank (cs : List Char) {g : List Char}
    (hg : ∀ c ∈ g, Text.isBlank c = true) : Text.trimEnd (cs ++ g) = Text.trimEnd cs := by
  rw [Text.trimEnd, Text.trimEnd, List.reverse_append,
    List.dropWhile_append_of_pos fun c hc => hg c (List.mem_reverse.1 hc)]

theorem trimEnd_append_of_not_blank (a : List Char) {cs : List Char}
    (h : ∃ c ∈ cs, Text.isBlank c = false) : Text.trimEnd (a ++ cs) = a ++ Text.trimEnd cs := by
  obtain ⟨c, hc, hblank⟩ := h
  have hne : cs.reverse.dropWhile Text.isBlank ≠ [] := by
    intro hnil
    rw [List.dropWhile_eq_nil_iff] at hnil
    rw [hnil c (List.mem_reverse.2 hc)] at hblank
    cases hblank
  rw [Text.trimEnd, Text.trimEnd, List.reverse_append, List.dropWhile_append,
    if_neg (by simpa using hne), List.reverse_append, List.reverse_reverse]

/-! ## Parts of a numbered line -/

theorem pieces_blanks_append {g : List Char} (hg : ∀ c ∈ g, Text.isBlank c = true)
    (cs : List Char) : pieces 0 (g ++ cs) = g.map Piece.other ++ pieces 0 cs := by
  induction g with
  | nil => rfl
  | cons c g ih =>
    rw [List.cons_append, pieces_of_not_alpha (isAlpha_of_isBlank (hg c List.mem_cons_self)),
      ih fun d hd => hg d (List.mem_cons_of_mem _ hd)]
    rfl

theorem numberPart_digits_blanks {ds g : List Char} (hds : AllDigits ds) (hne : ds ≠ [])
    (hg : ∀ c ∈ g, Text.isBlank c = true) (hgap : g ≠ []) (cs : List Char) :
    numberPart (ds ++ (g ++ cs)) = some ([], ds) := by
  obtain ⟨b, g, rfl⟩ := List.exists_cons_of_ne_nil hgap
  have hends : EndsNumber [b] := endsNumber_of_blank fun c hc => by
    rw [List.mem_singleton.1 hc]
    exact hg b List.mem_cons_self
  exact numberPart_digits hds hne (endsNumber_cons.2 (endsNumber_cons.1 hends))

theorem pieces_number {ds g : List Char} (hds : AllDigits ds) (hne : ds ≠ [])
    (hg : ∀ c ∈ g, Text.isBlank c = true) (hgap : g ≠ []) (cs : List Char) :
    pieces 0 ('N' :: (ds ++ (g ++ cs)))
      = .word 'N' [] ds :: (g.map Piece.other ++ pieces 0 cs) := by
  have hnumber := numberPart_digits_blanks hds hne hg hgap cs
  have hdrop : (ds ++ (g ++ cs)).drop (([] : List Char).length + ds.length) = g ++ cs := by
    rw [List.length_nil, Nat.zero_add, List.drop_left]
  rw [pieces_of_some (by decide) hnumber, hdrop, pieces_blanks_append hg]

theorem not_mem_number {ds g : List Char} (hds : AllDigits ds) (hne : ds ≠ [])
    (hg : ∀ c ∈ g, Text.isBlank c = true) {c : Char} (hc : c ∈ ['(', ';', '\n'])
    (hblank : Text.isBlank c = false) : c ∉ 'N' :: (ds ++ g) := by
  have hsequence : c ∉ 'N' :: ds :=
    Edit.not_mem_sequence (Or.inr ⟨'N', ds, rfl, Or.inl rfl, hne, hds⟩) hc
  have hgap : c ∉ g := fun hmem => by
    rw [hg c hmem] at hblank
    cases hblank
  rw [← List.cons_append, List.mem_append, not_or]
  exact ⟨hsequence, hgap⟩

namespace IsNumbered

variable {cs cs' : List Char}

theorem append (h : IsNumbered cs cs') (rest : List Char) :
    IsNumbered (cs ++ rest) (cs' ++ rest) := by
  cases h with
  | same => exact .same _
  | number cs hds hne hg hgap hg' => simpa using IsNumbered.number (cs ++ rest) hds hne hg hgap hg'

/-- A sequence number stands in front of the first parenthesis. -/
theorem cut (h : IsNumbered cs cs') :
    IsNumbered (frontOf cs) (frontOf cs') ∧ backOf cs' = backOf cs := by
  cases h with
  | same => exact ⟨.same _, rfl⟩
  | @number ds g g' cs hds hne hg hgap hg' =>
    have hnew : '(' ∉ 'N' :: (ds ++ g) := not_mem_number hds hne hg (by simp) (by decide)
    have hold : '(' ∉ g' := fun m => absurd (hg' _ m) (by decide)
    have hsplit : 'N' :: (ds ++ (g ++ cs)) = 'N' :: (ds ++ g) ++ cs := by simp
    rw [hsplit, frontOf_append hnew, frontOf_append hold, backOf_append hnew, backOf_append hold]
    refine ⟨?_, rfl⟩
    simpa using IsNumbered.number (frontOf cs) hds hne hg hgap hg'

theorem ended (h : IsNumbered cs cs') : ';' ∈ frontOf cs' ↔ ';' ∈ frontOf cs := by
  generalize frontOf cs = a, frontOf cs' = b, h.cut.1 = hfront
  cases hfront with
  | same => rfl
  | @number ds g g' cs hds hne hg hgap hg' =>
    have hnew : ';' ∉ 'N' :: (ds ++ g) := not_mem_number hds hne hg (by simp) (by decide)
    have hold : ';' ∉ g' := fun m => absurd (hg' _ m) (by decide)
    have hsplit : 'N' :: (ds ++ (g ++ cs)) = 'N' :: (ds ++ g) ++ cs := by simp
    rw [hsplit, List.mem_append, List.mem_append, or_iff_right hnew, or_iff_right hold]

section

variable {α : Type} [Scalar α]

/-- The words of the line, behind those of its sequence number. -/
theorem exists_lineWords (h : IsNumbered cs cs') :
    ∃ own : List (AddressWord α), (∀ w ∈ own, w.letter = 'N') ∧
      lineWords cs' = own ++ lineWords cs := by
  cases h with
  | same => exact ⟨[], by simp, rfl⟩
  | @number ds g g' cs hds hne hg hgap hg' =>
    have hopen : '(' ∉ 'N' :: (ds ++ g) := not_mem_number hds hne hg (by simp) (by decide)
    have hend : ';' ∉ 'N' :: (ds ++ g) := not_mem_number hds hne hg (by simp) (by decide)
    have hsplit : 'N' :: (ds ++ (g ++ cs)) = 'N' :: (ds ++ g) ++ cs := by simp
    have hcode : 'N' :: (ds ++ g) ++ codeOf [' '] cs
        = 'N' :: ([] ++ ds ++ (g ++ codeOf [' '] cs)) := by simp
    refine ⟨(wordOf 'N' ds).toList, fun w hw => letter_of_mem_wordOf hw, ?_⟩
    rw [hsplit, lineWords_blanks_append hg', lineWords, codeOf_append hopen hend, hcode,
      codeWords_letter (by decide) (numberPart_digits_blanks hds hne hg hgap _),
      codeWords_append_of_no_letter fun c hc => isAlpha_of_isBlank (hg c hc)]
    rfl

theorem wordsWith_lineWords (h : IsNumbered cs cs') {letter : Char} (hletter : letter ≠ 'N') :
    wordsWith letter (lineWords cs' : List (AddressWord α)) = wordsWith letter (lineWords cs) := by
  obtain ⟨own, hown, hwords⟩ := h.exists_lineWords (α := α)
  rw [hwords, wordsWith_append, wordsWith_of_ne hown hletter, List.nil_append]

end

/-! ## A number in front of a mended line -/

/-- A word put behind blanks that end a line. -/
theorem trimEnd_append (h : IsNumbered cs cs') (rest : List Char) :
    IsNumbered (Text.trimEnd cs ++ ' ' :: rest) (Text.trimEnd cs' ++ ' ' :: rest) := by
  cases h with
  | same => exact .same _
  | @number ds g g' cs hds hne hg hgap hg' =>
    by_cases hsome : ∃ c ∈ cs, Text.isBlank c = false
    · have hsplit : 'N' :: (ds ++ (g ++ cs)) = 'N' :: (ds ++ g) ++ cs := by simp
      rw [hsplit, trimEnd_append_of_not_blank _ hsome, trimEnd_append_of_not_blank _ hsome]
      simpa using IsNumbered.number (Text.trimEnd cs ++ ' ' :: rest) hds hne hg hgap hg'
    · -- Nothing is left of the line, so that the new word comes right behind the number.
      have hcs : ∀ c ∈ cs, Text.isBlank c = true := by simpa using hsome
      have hall : ∀ c ∈ g ++ cs, Text.isBlank c = true := by
        simpa [or_imp, forall_and] using And.intro hg hcs
      have hall' : ∀ c ∈ g' ++ cs, Text.isBlank c = true := by
        simpa [or_imp, forall_and] using And.intro hg' hcs
      have hold : Text.trimEnd (g' ++ cs) = [] := by
        simpa [Text.trimEnd] using trimEnd_append_of_blank [] hall'
      have hnew : Text.trimEnd ('N' :: (ds ++ (g ++ cs))) = 'N' :: ds := by
        rw [← List.cons_append, trimEnd_append_of_blank _ hall]
        obtain ⟨init, d, rfl⟩ := (List.eq_nil_or_concat ds).resolve_left hne
        have hd : Text.isBlank d = false := (Text.digit_ne (hds d (by simp))).1
        simpa using Text.trimEnd_concat_of_not_blank hd ('N' :: init)
      rw [hold, hnew]
      have hspace : ∀ c ∈ [' '], Text.isBlank c = true := by simp
      simpa using IsNumbered.number rest hds hne hspace (by simp) hspace

theorem insertBeforeComment {raw raw' : String} (h : IsNumbered raw.toList raw'.toList)
    (word : String) :
    IsNumbered (Edit.insertBeforeComment raw word).toList
      (Edit.insertBeforeComment raw' word).toList := by
  obtain ⟨hfront, hback⟩ := h.cut
  rw [Edit.toList_insertBeforeComment, Edit.toList_insertBeforeComment, Edit.tailOf, Edit.tailOf,
    hback]
  exact hfront.trimEnd_append _

theorem replaceFirst (h : IsNumbered cs cs') {letter : Char} (hletter : letter.toUpper ≠ 'N')
    (replacement : List Char) :
    IsNumbered (Edit.replaceFirst letter replacement (pieces 0 cs))
      (Edit.replaceFirst letter replacement (pieces 0 cs')) := by
  cases h with
  | same => exact .same _
  | @number ds g g' cs hds hne hg hgap hg' =>
    have hnone (b : List Char) : (b.map Piece.other).any (·.isWord letter) = false := by
      simp [Piece.isWord]
    have htext (b : List Char) : (b.map Piece.other).flatMap Piece.text = b := by
      induction b with
      | nil => rfl
      | cons c b ih => rw [List.map_cons, List.flatMap_cons, ih]; rfl
    have hN : Char.toUpper 'N' ≠ letter.toUpper := hletter.symm
    rw [pieces_number hds hne hg hgap, pieces_blanks_append hg', Edit.replaceFirst, if_neg hN,
      replaceFirst_append_of_not_any _ (hnone g), replaceFirst_append_of_not_any _ (hnone g'),
      htext, htext]
    simpa [Piece.text] using
      IsNumbered.number (Edit.replaceFirst letter replacement (pieces 0 cs)) hds hne hg hgap hg'

theorem replaceWord {raw raw' : String} (h : IsNumbered raw.toList raw'.toList) {letter : Char}
    (hletter : letter.toUpper ≠ 'N') (replacement : String) :
    IsNumbered (Edit.replaceWord raw letter replacement).toList
      (Edit.replaceWord raw' letter replacement).toList := by
  obtain ⟨hfront, hback⟩ := h.cut
  rw [toList_replaceWord, toList_replaceWord, hback]
  exact (hfront.replaceFirst hletter _).append _

end IsNumbered

/-! ## Lines that read alike -/

section

variable {α : Type} [Scalar α]

/-- Two lines have the same words but for sequence numbers, in front of their first parenthesis and
behind it, and both are read to their end or none is. -/
structure ReadsAlike (cs cs' : List Char) : Prop where
  lineWords {letter : Char} : letter ≠ 'N' →
    wordsWith letter (lineWords cs' : List (AddressWord α)) = wordsWith letter (lineWords cs)
  frontWords {letter : Char} : letter ≠ 'N' →
    wordsWith letter (frontWords cs' : List (AddressWord α)) = wordsWith letter (frontWords cs)
  backWords : (backWords cs' : List (AddressWord α)) = backWords cs
  ended : ';' ∈ frontOf cs' ↔ ';' ∈ frontOf cs

theorem IsNumbered.readsAlike {cs cs' : List Char} (h : IsNumbered cs cs') :
    ReadsAlike (α := α) cs cs' where
  lineWords := h.wordsWith_lineWords
  frontWords := h.cut.1.wordsWith_lineWords
  backWords := by rw [backWords, backWords, h.cut.2]
  ended := h.ended

namespace ReadsAlike

variable {raw raw' : String}

/-- The word for a cut comes in behind a sequence number. -/
theorem prependCut (h : ReadsAlike (α := α) raw.toList raw'.toList) :
    ReadsAlike (α := α) (Edit.prependWord raw "G01").toList
      (Edit.prependWord raw' "G01").toList := by
  have hcut := Edit.isCutOf_prependWord (α := α) raw
  have hcut' := Edit.isCutOf_prependWord (α := α) raw'
  constructor
  · intro letter hletter
    rw [hcut.lineWords hletter, hcut'.lineWords hletter, h.lineWords hletter]
  · intro letter hletter
    rw [hcut.frontWords hletter, hcut'.frontWords hletter, h.frontWords hletter]
  · rw [hcut.backWords, hcut'.backWords, h.backWords]
  · rw [hcut.ended, hcut'.ended, h.ended]

theorem insertFeed [LawfulScalar α] (h : ReadsAlike (α := α) raw.toList raw'.toList) (feed : α)
    {letter : Char} (hletter : letter ≠ 'N') :
    wordsWith letter (SpacerTurning.lineWords
        (Edit.insertBeforeComment raw' (feedWord feed)).toList : List (AddressWord α))
      = wordsWith letter (SpacerTurning.lineWords
        (Edit.insertBeforeComment raw (feedWord feed)).toList) := by
  by_cases hend : ';' ∈ frontOf raw.toList
  · rw [Edit.lineWords_insert_of_ended hend, Edit.lineWords_insert_of_ended (h.ended.2 hend),
      h.lineWords hletter]
  · obtain ⟨w, v, hword, -⟩ := exists_feedWord feed
    rw [Edit.lineWords_insert (by decide) w hword hend,
      Edit.lineWords_insert (by decide) w hword (mt h.ended.1 hend), h.backWords]
    simp only [wordsWith_append, h.frontWords hletter]

end ReadsAlike

end

end SpacerTurning
