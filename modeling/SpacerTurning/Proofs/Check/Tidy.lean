import SpacerTurning.Proofs.Check.Mending
import SpacerTurning.Proofs.Text.Lines

/-!
Lines with their code in front.

Where all of the code stands in front of the first parenthesis, whatever is put there is read as it
is meant.  Every way of mending a line leaves such a line as another one.
-/

namespace SpacerTurning

open Number

/-- Code without parentheses and semicolons, and a comment at the end of the line or none. -/
def IsPlainLine (cs : List Char) : Prop :=
  ∃ code, (∀ c ∈ code, c ≠ '(' ∧ c ≠ ')' ∧ c ≠ ';') ∧
    (cs = code ∨ ∃ body, '(' ∉ body ∧ ')' ∉ body ∧ cs = code ++ '(' :: (body ++ [')']))

/-- The code of a line stands in front of its first parenthesis, and the line is a single one. -/
structure IsTidy (cs : List Char) : Prop where
  not_ended : ';' ∉ frontOf cs
  blank : ∀ c ∈ codeOf [' '] (backOf cs), Text.isBlank c = true
  single : '\n' ∉ cs

namespace IsTidy

variable {a b cs : List Char}

theorem nil : IsTidy [] where
  not_ended := by simp [frontOf, Edit.splitComment]
  blank := by simp [backOf, Edit.splitComment, codeOf, replaceComments]
  single := by simp

theorem of_append (hopen : '(' ∉ a) (h : IsTidy (a ++ b)) : IsTidy b := by
  obtain ⟨hend, hblank, hsingle⟩ := h
  rw [frontOf_append hopen, List.mem_append, not_or] at hend
  rw [backOf_append hopen] at hblank
  rw [List.mem_append, not_or] at hsingle
  exact ⟨hend.2, hblank, hsingle.2⟩

theorem append (hopen : '(' ∉ a) (hend : ';' ∉ a) (hsingle : '\n' ∉ a) (h : IsTidy b) :
    IsTidy (a ++ b) := by
  refine ⟨?_, ?_, ?_⟩
  · rw [frontOf_append hopen, List.mem_append, not_or]
    exact ⟨hend, h.not_ended⟩
  · rw [backOf_append hopen]
    exact h.blank
  · rw [List.mem_append, not_or]
    exact ⟨hsingle, h.single⟩

theorem backOf (h : IsTidy cs) : IsTidy (backOf cs) := by
  rw [← frontOf_append_backOf cs] at h
  exact h.of_append (paren_not_mem_frontOf cs)

theorem comment {body : List Char} (hclose : ')' ∉ body) (hsingle : '\n' ∉ body) :
    IsTidy ('(' :: (body ++ [')'])) := by
  have hhead : ∀ c ∈ ('(' :: (body ++ [')'])).head?, c = '(' := by
    rintro c ⟨⟩
    rfl
  refine ⟨?_, ?_, by simpa using hsingle⟩
  · rw [frontOf_of_head hhead]
    simp
  · rw [backOf_of_head hhead, codeOf_comment hclose]
    simp only [codeOf, replaceComments, List.takeWhile_nil, List.mem_singleton]
    rintro c rfl
    decide

theorem of_isPlainLine (h : IsPlainLine cs) (hsingle : '\n' ∉ cs) : IsTidy cs := by
  obtain ⟨code, hcode, hcs⟩ := h
  have hopen : '(' ∉ code := fun hmem => (hcode _ hmem).1 rfl
  have hend : ';' ∉ code := fun hmem => (hcode _ hmem).2.2 rfl
  rcases hcs with rfl | ⟨body, -, hclose, rfl⟩
  · have h := append hopen hend hsingle nil
    rwa [List.append_nil] at h
  · rw [List.mem_append, List.mem_cons, List.mem_append] at hsingle
    push Not at hsingle
    exact append hopen hend hsingle.1 (comment hclose hsingle.2.2.1)

/-- A tidy line is tidy without the blanks at its end. -/
theorem of_append_blanks (hb : ∀ c ∈ b, Text.isBlank c = true) (h : IsTidy (a ++ b)) : IsTidy a := by
  refine ⟨?_, ?_, fun hmem => h.single (List.mem_append_left b hmem)⟩
  · rw [← semicolon_mem_frontOf_append_blanks hb]
    exact h.not_ended
  · have hblank := h.blank
    rcases cut_append_blanks hb a with ⟨-, hback⟩ | ⟨-, hback⟩
    · obtain ⟨b', -, hcode⟩ := exists_codeOf_append_blanks [' '] (SpacerTurning.backOf a) hb
      rw [hback, hcode] at hblank
      exact fun c hc => hblank c (List.mem_append_left b' hc)
    · rwa [hback] at hblank

/-! ## Reading -/

theorem apartWords {α : Type} [Scalar α] (h : IsTidy cs) :
    (apartWords cs : List (AddressWord α)) = lineWords cs := by
  have hback : (backWords cs : List (AddressWord α)) = [] :=
    codeWords_of_no_letter fun c hc => isAlpha_of_isBlank (h.blank c hc)
  rw [SpacerTurning.apartWords, if_neg h.not_ended, hback, List.append_nil,
    frontWords_of_not_ended h.not_ended, lineWords_of_not_ended h.not_ended,
    codeWords_append_blanks _ h.blank]

/-! ## Mending -/

variable {α : Type} [Scalar α] [LawfulScalar α] {raw : String}

theorem insertFeed (h : IsTidy raw.toList) (feed : α) :
    IsTidy (Edit.insertBeforeComment raw (feedWord feed)).toList := by
  obtain ⟨w, -, hword, -⟩ := exists_feedWord feed
  have hnot {c : Char} (hc : c ∈ ['(', ';', '\n']) (hfront : c ∉ frontOf raw.toList) :=
    Edit.not_mem_insertWord (l := 'F') (by decide) w hc hfront
  have hsingle : '\n' ∉ frontOf raw.toList := fun hmem =>
    h.single ((List.takeWhile_prefix _).subset hmem)
  have htail : IsTidy (Edit.tailOf raw.toList) := by
    rw [Edit.tailOf]
    split
    · exact nil
    · exact append (a := [' ']) (by decide) (by decide) (by decide) h.backOf
  rw [Edit.toList_insertWord hword]
  exact append (hnot (by simp) (paren_not_mem_frontOf raw.toList)) (hnot (by simp) h.not_ended)
    (hnot (by simp) hsingle) htail

theorem prependCut (h : IsTidy raw.toList) : IsTidy (Edit.prependWord raw "G01").toList := by
  obtain ⟨g, s, g', rest, t, hraw, hs, hnew, hblank⟩ := Edit.exists_prependWord raw
  have ht : ∀ c ∈ t, Text.isBlank c = true := fun c hc => hblank c (by simp [hc])
  have hopen : '(' ∉ g ++ s ++ g' := by
    have hnot : '(' ∉ g ++ g' := fun hmem =>
      absurd (hblank '(' (List.mem_append_left t hmem)) (by decide)
    rw [List.mem_append, not_or] at hnot
    simp [hnot, Edit.not_mem_sequence hs (c := '(')]
  have hrest : IsTidy rest := by
    have hraw : raw.toList = (g ++ s ++ g') ++ rest := by rw [hraw]; simp
    rw [hraw] at h
    exact h.of_append hopen
  have hmark {c : Char} (hc : c ∈ ['(', ';', '\n']) : c ∉ Edit.cutMark s ++ [' '] := by
    have hblank : c ≠ ' ' := by
      rintro rfl
      exact absurd hc (by decide)
    simp [hblank, Edit.not_mem_cutMark hs hc]
  have hwhole : IsTidy ((Edit.cutMark s ++ [' ']) ++ rest) :=
    append (hmark (by simp)) (hmark (by simp)) (hmark (by simp)) hrest
  refine of_append_blanks ht ?_
  rw [hnew]
  simpa using hwhole

theorem cutText {l : Line α} (h : IsTidy l.raw.toList) (feed : α) :
    IsTidy (l.cutText feed).toList := by
  rw [Line.cutText]
  split
  · exact h.prependCut.insertFeed feed
  · exact h.prependCut

theorem height (h : IsTidy raw.toList) (height : α) :
    IsTidy (Edit.replaceWord raw 'Z' ("Z" ++ Word.format height)).toList := by
  rw [toList_replaceWord]
  cases hany : (pieces 0 (frontOf raw.toList)).any (·.isWord 'Z') with
  | false =>
    have hstay := replaceFirst_append_of_not_any ("Z" ++ Word.format height).toList hany []
    rw [List.append_nil, flatMap_text_pieces] at hstay
    rw [hstay, Edit.replaceFirst, List.append_nil, frontOf_append_backOf]
    exact h
  | true =>
    obtain ⟨f, ⟨-, hreplace⟩⟩ := exists_firstWord (α := α) 'Z' _ hany
    obtain ⟨w, -, hword, -⟩ := exists_heightWord height
    have hsingle : '\n' ∉ frontOf raw.toList := fun hmem =>
      h.single ((List.takeWhile_prefix _).subset hmem)
    have hnot {c : Char} (hc : c ∈ ['(', ';', '\n']) (hfront : c ∉ frontOf raw.toList) :
        c ∉ f.replace ("Z" ++ Word.format height).toList := by
      rw [hword]
      exact f.not_mem_replace hfront (Edit.not_mem_word (by decide) w hc)
    rw [hreplace]
    exact append (hnot (by simp) (paren_not_mem_frontOf raw.toList)) (hnot (by simp) h.not_ended)
      (hnot (by simp) hsingle) h.backOf

theorem faceText {l : Line α} (h : IsTidy l.raw.toList) (hl : l.IsRead) (feed : α) :
    IsTidy (faceText feed l.comment).toList := by
  obtain ⟨raw, htext, hfront, hback⟩ := exists_faceText feed l.comment
  have hremark : IsTidy (remarkText l.comment) := by
    have hclose := hl.comment
    cases hcomment : l.comment with
    | none => exact nil
    | some body =>
      refine comment (hclose body (by rw [hcomment]; rfl)) fun hmem => ?_
      have hof : commentOf l.raw.toList = some body := by
        rw [hl] at hcomment
        exact hcomment
      rcases mem_commentOf hof hmem with ⟨hmem, -⟩ | heq
      · exact h.single hmem
      · exact absurd heq (by decide)
  rw [htext]
  refine insertFeed ?_ feed
  rw [← frontOf_append_backOf raw.toList, hfront, hback]
  exact append (by decide) (by decide) (by decide) hremark

end IsTidy

end SpacerTurning
