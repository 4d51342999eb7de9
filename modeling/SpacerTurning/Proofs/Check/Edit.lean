import SpacerTurning.Proofs.Check.Cut

/-!
Words of a changed line.

A word that is put in front of the first parenthesis stands between the words in front and the words
behind, unless the code has ended before.  A word that is put at the front of a line stands before
all of its words but a sequence number.  A word that is put in the place of another leaves the words
around it as they were.
-/

namespace SpacerTurning
namespace Edit

open Number

theorem mem_trimEnd {c : Char} {cs : List Char} (h : c ∈ Text.trimEnd cs) : c ∈ cs := by
  obtain ⟨g, hg, -⟩ := exists_trimEnd_append cs
  rw [hg]
  exact List.mem_append_left g h

theorem mem_trimEnd_of_not_blank {c : Char} {cs : List Char} (h : c ∈ cs)
    (hc : Text.isBlank c = false) : c ∈ Text.trimEnd cs := by
  obtain ⟨g, hg, hblank⟩ := exists_trimEnd_append cs
  rw [hg, List.mem_append] at h
  rcases h with h | h
  · exact h
  · rw [hblank c h] at hc
    cases hc

/-- A program word has nothing in it that a line could end with, or its code. -/
theorem not_mem_word {l : Char} (hl : l.isAlpha = true) (w : WordNumber) {c : Char}
    (hc : c ∈ ['(', ';', '\n']) : c ∉ l :: w.text := by
  have hplain : c.isAlpha = false ∧ c.isDigit = false ∧ c ≠ '-' ∧ c ≠ '.' := by
    simp only [List.mem_cons, List.not_mem_nil, or_false] at hc
    rcases hc with rfl | rfl | rfl <;> decide
  obtain ⟨halpha, hdigit, hminus, hpoint⟩ := hplain
  intro h
  rw [WordNumber.text, List.mem_cons, List.mem_append, List.mem_append, List.mem_cons] at h
  rcases h with rfl | h | h | h | h
  · rw [hl] at halpha
    cases halpha
  · split at h
    · exact hminus (List.mem_singleton.1 h)
    · cases h
  · rw [w.whole_digits c h] at hdigit
    cases hdigit
  · exact hpoint h
  · rw [w.fraction_digits c h] at hdigit
    cases hdigit

section

variable {α : Type} [Scalar α]

/-! ## A word in front of the first parenthesis -/

def tailOf (cs : List Char) : List Char := if backOf cs = [] then [] else ' ' :: backOf cs

theorem toList_insertBeforeComment (raw word : String) :
    (insertBeforeComment raw word).toList
      = Text.trimEnd (frontOf raw.toList) ++ ' ' :: (word.toList ++ tailOf raw.toList) := by
  rw [insertBeforeComment, String.toList_ofList, tailOf]
  change (if backOf raw.toList = [] then _ else _) = _
  split
  · rw [List.append_nil]
    rfl
  · rw [List.append_assoc, List.cons_append]
    rfl

theorem codeWords_tailOf (cs : List Char) :
    (codeWords (codeOf [' '] (tailOf cs)) : List (AddressWord α)) = backWords cs := by
  rw [tailOf]
  split
  · next h =>
    rw [backWords, h]
    rfl
  · have hcode : codeOf [' '] (' ' :: backOf cs) = ' ' :: codeOf [' '] (backOf cs) :=
      codeOf_append (a := [' ']) (by decide) (by decide) [' '] _
    rw [hcode, codeWords_of_not_alpha (by decide)]
    rfl

theorem head?_codeOf_tailOf (cs : List Char) :
    ∀ c ∈ (codeOf [' '] (tailOf cs)).head?, Text.isDecimalDigit c = false := by
  rw [tailOf]
  split
  · simp [codeOf, replaceComments]
  · have hcode : codeOf [' '] (' ' :: backOf cs) = ' ' :: codeOf [' '] (backOf cs) :=
      codeOf_append (a := [' ']) (by decide) (by decide) [' '] _
    rw [hcode]
    rintro c ⟨⟩
    decide

theorem toList_insertWord {raw word : String} {l : Char} {w : WordNumber}
    (hword : word.toList = l :: w.text) :
    (insertBeforeComment raw word).toList
      = (Text.trimEnd (frontOf raw.toList) ++ ' ' :: l :: w.text) ++ tailOf raw.toList := by
  rw [toList_insertBeforeComment, hword]
  simp

theorem not_mem_insertWord {cs : List Char} {l : Char} (hl : l.isAlpha = true) (w : WordNumber)
    {c : Char} (hc : c ∈ ['(', ';', '\n']) (hfront : c ∉ cs) :
    c ∉ Text.trimEnd cs ++ ' ' :: l :: w.text := by
  have hblank : c ≠ ' ' := by
    rintro rfl
    exact absurd hc (by decide)
  rw [List.mem_append, List.mem_cons, not_or, not_or]
  exact ⟨mt mem_trimEnd hfront, hblank, not_mem_word hl w hc⟩

/-- A word in front of the first parenthesis, where the code has not ended. -/
theorem lineWords_insert {raw word : String} {l : Char} (hl : l.isAlpha = true) (w : WordNumber)
    (hword : word.toList = l :: w.text) (hend : ';' ∉ frontOf raw.toList) :
    (lineWords (insertBeforeComment raw word).toList : List (AddressWord α))
      = frontWords raw.toList ++ (wordOf l w.text).toList ++ backWords raw.toList := by
  have hopen := not_mem_insertWord hl w (by simp) (paren_not_mem_frontOf raw.toList)
  have hlast := not_mem_insertWord hl w (by simp) hend
  have hblank : ∀ c ∈ [' '], Text.isBlank c = true := by simp
  have hnumber := numberPart_text w (head?_codeOf_tailOf raw.toList)
  have hletter : (codeWords (l :: (w.text ++ codeOf [' '] (tailOf raw.toList))) :
      List (AddressWord α)) = (wordOf l w.text).toList ++ codeWords (codeOf [' '] (tailOf raw.toList)) :=
    codeWords_letter (g := []) hl hnumber
  rw [toList_insertWord hword, lineWords, codeOf_append hopen hlast]
  calc (codeWords (Text.trimEnd (frontOf raw.toList) ++ ' ' :: l :: w.text
        ++ codeOf [' '] (tailOf raw.toList)) : List (AddressWord α))
      = codeWords (Text.trimEnd (frontOf raw.toList) ++ [' ']
          ++ l :: (w.text ++ codeOf [' '] (tailOf raw.toList))) := by simp
    _ = codeWords (frontOf raw.toList) ++ ((wordOf l w.text).toList ++ backWords raw.toList) := by
      rw [codeWords_append_letter _ hl, hletter, codeWords_append_blanks _ hblank,
        codeWords_trimEnd, codeWords_tailOf]
    _ = _ := by
      rw [frontWords_of_not_ended hend, List.append_assoc]

/-- Behind a semicolon the word is not read. -/
theorem lineWords_insert_of_ended {raw word : String} (h : ';' ∈ frontOf raw.toList) :
    (lineWords (insertBeforeComment raw word).toList : List (AddressWord α))
      = lineWords raw.toList := by
  have htrim : ';' ∈ Text.trimEnd (frontOf raw.toList) :=
    mem_trimEnd_of_not_blank h (by decide)
  have hopen := mt mem_trimEnd (paren_not_mem_frontOf raw.toList)
  obtain ⟨g, hg, -⟩ := exists_trimEnd_append (frontOf raw.toList)
  rw [lineWords_of_ended h, toList_insertBeforeComment, lineWords,
    codeOf_append_of_end hopen htrim]
  conv => rhs; rw [hg, takeWhile_append_of_end htrim]

/-! ## A word at the front of a line -/

/-- A sequence number, as it stands at the front of a line. -/
def IsSequence (s : List Char) : Prop :=
  ∃ c ds, s = c :: ds ∧ (c = 'N' ∨ c = 'n') ∧ ds ≠ [] ∧ ∀ d ∈ ds, d.isDigit = true

/-- The word for a cut, behind a sequence number. -/
def cutMark (s : List Char) : List Char :=
  if s = [] then ['G', '0', '1'] else s ++ [' ', 'G', '0', '1']

theorem sequencePart_spec (cs : List Char) :
    ∃ rest, cs = sequencePart cs ++ rest ∧ (sequencePart cs = [] ∨ IsSequence (sequencePart cs)) := by
  cases cs with
  | nil => exact ⟨[], rfl, Or.inl rfl⟩
  | cons c cs =>
    by_cases hc : c = 'N' ∨ c = 'n'
    · have hsplit : cs.takeWhile Char.isDigit ++ cs.dropWhile Char.isDigit = cs :=
        List.takeWhile_append_dropWhile
      cases hds : cs.takeWhile Char.isDigit with
      | nil => exact ⟨c :: cs, by simp [sequencePart, hds], Or.inl (by simp [sequencePart, hds])⟩
      | cons d ds =>
        have hpart : sequencePart (c :: cs) = c :: d :: ds := by simp [sequencePart, hc, hds]
        rw [hpart]
        refine ⟨cs.dropWhile Char.isDigit, ?_, Or.inr ⟨c, d :: ds, rfl, hc, by simp, ?_⟩⟩
        · conv => lhs; rw [← hsplit, hds]
          rfl
        · intro e he
          rw [← hds] at he
          exact List.all_eq_true.1 List.all_takeWhile e he
    · exact ⟨c :: cs, by simp [sequencePart, hc], Or.inl (by simp [sequencePart, hc])⟩

theorem exists_blanks_append (cs : List Char) :
    ∃ g, cs = g ++ Text.trimStart cs ∧ ∀ c ∈ g, Text.isBlank c = true :=
  ⟨cs.takeWhile Text.isBlank, List.takeWhile_append_dropWhile.symm,
    fun c hc => List.all_eq_true.1 List.all_takeWhile c hc⟩

/-- A line is blanks, a sequence number or none, blanks and the rest.  The word for a cut comes
between the sequence number and the rest. -/
theorem exists_prependWord (raw : String) :
    ∃ g s g' rest t, raw.toList = g ++ (s ++ (g' ++ rest)) ∧ (s = [] ∨ IsSequence s) ∧
      (prependWord raw "G01").toList ++ t = cutMark s ++ ' ' :: rest ∧
      (∀ c ∈ g ++ g' ++ t, Text.isBlank c = true) := by
  obtain ⟨g, hg, hblank⟩ := exists_blanks_append raw.toList
  obtain ⟨tail, htail, hs⟩ := sequencePart_spec (Text.trimStart raw.toList)
  cases hseq : sequencePart (Text.trimStart raw.toList) with
  | nil =>
    refine ⟨g, [], [], Text.trimStart raw.toList, [], hg, Or.inl rfl, ?_, by simpa using hblank⟩
    simp [prependWord, hseq, cutMark]
  | cons c ds =>
    rw [hseq] at htail hs
    obtain ⟨g', hg', hblank'⟩ := exists_blanks_append tail
    obtain ⟨t, ht, hblankEnd⟩ :=
      exists_trimEnd_append (cutMark (c :: ds) ++ ' ' :: Text.trimStart tail)
    refine ⟨g, c :: ds, g', Text.trimStart tail, t, ?_, hs, ?_, ?_⟩
    · rw [← hg', ← htail]
      exact hg
    · have hdrop : (Text.trimStart raw.toList).drop (c :: ds).length = tail := by
        rw [htail, List.drop_left]
      have htext : (prependWord raw "G01").toList
          = Text.trimEnd (cutMark (c :: ds) ++ ' ' :: Text.trimStart tail) := by
        rw [← hdrop]
        simp [prependWord, hseq, cutMark]
      rw [htext, ← ht]
    · intro d hd
      rw [List.mem_append, List.mem_append] at hd
      rcases hd with (hd | hd) | hd
      · exact hblank d hd
      · exact hblank' d hd
      · exact hblankEnd d hd

/-- What stands behind a sequence number has the words that it has alone. -/
theorem wordsWith_sequence {s : List Char} (hs : s = [] ∨ IsSequence s) {letter : Char}
    (hletter : letter ≠ 'N') (cs : List Char) :
    wordsWith letter (codeWords (s ++ cs) : List (AddressWord α))
      = wordsWith letter (codeWords cs) := by
  rcases hs with rfl | ⟨c, ds, rfl, hc, -, hds⟩
  · rfl
  · have hcAlpha : c.isAlpha = true := by rcases hc with rfl | rfl <;> decide
    have hplain (cs : List Char) (h : ∀ d ∈ cs, isNumeric d = true) (rest : List Char) :
        (codeWords (cs ++ rest) : List (AddressWord α)) = codeWords rest :=
      codeWords_append_of_no_letter (fun d hd => isAlpha_of_isNumeric (h d hd)) rest
    have hdigits : ∀ d ∈ ds, isNumeric d = true := fun d hd => by
      simp [isNumeric, Text.isDecimalDigit_of_isDigit (hds d hd)]
    cases hnumber : numberPart (ds ++ cs) with
    | none =>
      have hwords : (codeWords (c :: (ds ++ cs)) : List (AddressWord α)) = codeWords (ds ++ cs) := by
        rw [codeWords, pieces_of_none hnumber]
        rfl
      rw [List.cons_append, hwords, hplain ds hdigits]
    | some r =>
      obtain ⟨g, n⟩ := r
      obtain ⟨rest, hrest, hnumeric, -⟩ := numberPart_prefix hnumber
      have hsame : (codeWords rest : List (AddressWord α)) = codeWords cs := by
        -- Either the number ends within the digits, or it takes numeric characters behind them.
        rcases List.append_eq_append_iff.1 hrest with ⟨more, hmore, rfl⟩ | ⟨more, rfl, rfl⟩
        · rw [hplain more fun d hd => hnumeric d (by rw [hmore]; exact List.mem_append_right _ hd)]
        · rw [hplain more fun d hd => hdigits d (List.mem_append_right _ hd)]
      have hN : wordsWith letter (wordOf c n : Option (AddressWord α)).toList = [] := by
        refine wordsWith_of_ne (fun w hw => letter_of_mem_wordOf hw) ?_
        rcases hc with rfl | rfl <;> exact hletter
      rw [hrest] at hnumber
      rw [List.cons_append, hrest, codeWords_letter hcAlpha hnumber, wordsWith_append, hN, hsame,
        List.nil_append]

theorem not_mem_sequence {s : List Char} (hs : s = [] ∨ IsSequence s) {c : Char}
    (hc : c ∈ ['(', ';', '\n']) : c ∉ s := by
  have hplain : c.isDigit = false ∧ c ≠ 'N' ∧ c ≠ 'n' := by
    simp only [List.mem_cons, List.not_mem_nil, or_false] at hc
    rcases hc with rfl | rfl | rfl <;> decide
  obtain ⟨hdigit, hN, hn⟩ := hplain
  rcases hs with rfl | ⟨d, ds, rfl, hd, -, hds⟩
  · simp
  · intro hmem
    rcases List.mem_cons.1 hmem with rfl | hmem
    · exact hd.elim hN hn
    · rw [hds c hmem] at hdigit
      cases hdigit

theorem not_mem_cutMark {s : List Char} (hs : s = [] ∨ IsSequence s) {c : Char}
    (hc : c ∈ ['(', ';', '\n']) : c ∉ cutMark s := by
  have hmark : c ∉ [' ', 'G', '0', '1'] := by
    simp only [List.mem_cons, List.not_mem_nil, or_false] at hc
    rcases hc with rfl | rfl | rfl <;> decide
  rw [cutMark]
  split
  · exact mt (List.mem_cons_of_mem ' ') hmark
  · rw [List.mem_append, not_or]
    exact ⟨not_mem_sequence hs hc, hmark⟩

theorem openLetter?_cutMark (s : List Char) : openLetter? (cutMark s) = none := by
  rw [cutMark]
  split
  · decide
  · have hmark : s ++ [' ', 'G', '0', '1'] = (s ++ [' ', 'G', '0']) ++ ['1'] := by simp
    rw [hmark]
    exact openLetter?_concat _ (by decide) (by decide)

theorem wordsWith_cutMark {s : List Char} (hs : s = [] ∨ IsSequence s) {letter : Char}
    (hletter : letter ≠ 'N') :
    wordsWith letter (codeWords (cutMark s) : List (AddressWord α))
      = wordsWith letter (wordOf 'G' ['0', '1']).toList := by
  have hmark : (codeWords ['G', '0', '1'] : List (AddressWord α))
      = (wordOf 'G' ['0', '1']).toList := by
    have halpha : Char.isAlpha 'G' = true := by decide
    have hnumber : numberPart ([] ++ ['0', '1'] ++ []) = some ([], ['0', '1']) := by decide
    simpa using codeWords_letter (α := α) halpha hnumber
  by_cases hnil : s = []
  · rw [hnil, cutMark, if_pos rfl, hmark]
  · rw [cutMark, if_neg hnil, wordsWith_sequence hs hletter, codeWords_of_not_alpha (by decide),
      hmark]

/-- The word for a cut stands before the words of the line with any letter but that of a sequence
number. -/
theorem wordsWith_lineWords_cutMark {s g g' : List Char} (hs : s = [] ∨ IsSequence s)
    (hg : ∀ c ∈ g, Text.isBlank c = true) (hg' : ∀ c ∈ g', Text.isBlank c = true) {letter : Char}
    (hletter : letter ≠ 'N') (rest : List Char) :
    wordsWith letter (lineWords (cutMark s ++ ' ' :: rest) : List (AddressWord α))
      = wordsWith letter (wordOf 'G' ['0', '1']).toList
        ++ wordsWith letter (lineWords (g ++ (s ++ (g' ++ rest)))) := by
  have hopen := not_mem_cutMark hs (c := '(') (by simp)
  have hend := not_mem_cutMark hs (c := ';') (by simp)
  have hrest : wordsWith letter (lineWords (g ++ (s ++ (g' ++ rest))) : List (AddressWord α))
      = wordsWith letter (lineWords rest) := by
    rw [lineWords_blanks_append hg, lineWords, codeOf_append (not_mem_sequence hs (by simp))
      (not_mem_sequence hs (by simp)), wordsWith_sequence hs hletter]
    change wordsWith letter (lineWords (g' ++ rest)) = _
    rw [lineWords_blanks_append hg']
  rw [lineWords_append_blank hopen hend (openLetter?_cutMark s), wordsWith_append, wordsWith_cutMark hs hletter,
    hrest]

/-- The words of a line that is asked for a cut: on both sides of its first parenthesis they are
what they were, but for the word for the cut and a sequence number. -/
structure IsCutOf (cs' cs : List Char) : Prop where
  lineWords {letter : Char} : letter ≠ 'N' →
    wordsWith letter (lineWords cs' : List (AddressWord α))
      = wordsWith letter (wordOf 'G' ['0', '1']).toList ++ wordsWith letter (lineWords cs)
  frontWords {letter : Char} : letter ≠ 'N' →
    wordsWith letter (frontWords cs' : List (AddressWord α))
      = wordsWith letter (wordOf 'G' ['0', '1']).toList ++ wordsWith letter (frontWords cs)
  backWords : (backWords cs' : List (AddressWord α)) = backWords cs
  ended : ';' ∈ frontOf cs' ↔ ';' ∈ frontOf cs

theorem isCutOf_prependWord (raw : String) :
    IsCutOf (α := α) (prependWord raw "G01").toList raw.toList := by
  obtain ⟨g, s, g', rest, t, hraw, hs, hnew, hblank⟩ := exists_prependWord raw
  have hg : ∀ c ∈ g, Text.isBlank c = true := fun c hc => hblank c (by simp [hc])
  have hg' : ∀ c ∈ g', Text.isBlank c = true := fun c hc => hblank c (by simp [hc])
  have ht : ∀ c ∈ t, Text.isBlank c = true := fun c hc => hblank c (by simp [hc])
  have hend := not_mem_cutMark hs (c := ';') (by simp)
  have hnewOpen : '(' ∉ cutMark s ++ [' '] := by simp [not_mem_cutMark hs (c := '(')]
  have hrawPlain {c : Char} (hc : c ∈ ['(', ';', '\n']) (hnot : Text.isBlank c = false) :
      c ∉ g ++ s ++ g' := by
    have hblank : c ∉ g ∧ c ∉ g' :=
      ⟨fun h => by simp [hg c h] at hnot, fun h => by simp [hg' c h] at hnot⟩
    simp [hblank, not_mem_sequence hs hc]
  have hrawOpen : '(' ∉ g ++ s ++ g' := hrawPlain (by simp) (by decide)
  have hrawEnd : ';' ∉ g ++ s ++ g' := hrawPlain (by simp) (by decide)
  have hnewSplit : cutMark s ++ ' ' :: rest = (cutMark s ++ [' ']) ++ rest := by simp
  have hrawSplit : raw.toList = (g ++ s ++ g') ++ rest := by rw [hraw]; simp
  have hnewFront : frontOf (cutMark s ++ ' ' :: rest) = cutMark s ++ ' ' :: frontOf rest := by
    rw [hnewSplit, frontOf_append hnewOpen]
    simp
  have hrawFront : frontOf raw.toList = g ++ (s ++ (g' ++ frontOf rest)) := by
    rw [hrawSplit, frontOf_append hrawOpen]
    simp
  constructor
  · intro letter hletter
    rw [← lineWords_append_blanks _ ht, hnew, wordsWith_lineWords_cutMark hs hg hg' hletter, hraw]
  · intro letter hletter
    rw [← frontWords_append_blanks ht, hnew, SpacerTurning.frontWords, hnewFront,
      wordsWith_lineWords_cutMark hs hg hg' hletter, SpacerTurning.frontWords, hrawFront]
  · rw [← backWords_append_blanks ht, hnew, SpacerTurning.backWords, hnewSplit,
      backOf_append hnewOpen, SpacerTurning.backWords, hrawSplit, backOf_append hrawOpen]
  · rw [← semicolon_mem_frontOf_append_blanks ht, hnew, hnewFront, hrawSplit,
      frontOf_append hrawOpen, List.mem_append, List.mem_append, or_iff_right hrawEnd]
    simp [hend]

end

end Edit
end SpacerTurning
