import SpacerTurning.Check.Edit
import SpacerTurning.Proofs.Check.Letters

/-!
A line cut at its first parenthesis.

A line is changed in front of its first parenthesis, and read with a blank in place of every
comment.  The two agree on the words in front and on the words behind, but not on where the code
ends, which is at a semicolon that may stand in front of the parenthesis, and not on a letter in
front that finds its number behind.
-/

namespace SpacerTurning

open Number

/-- What stands in front of the first parenthesis. -/
def frontOf (cs : List Char) : List Char := (Edit.splitComment cs).1

/-- The first parenthesis and what comes behind it. -/
def backOf (cs : List Char) : List Char := (Edit.splitComment cs).2

theorem frontOf_append_backOf (cs : List Char) : frontOf cs ++ backOf cs = cs :=
  List.takeWhile_append_dropWhile

theorem paren_not_mem_frontOf (cs : List Char) : '(' ∉ frontOf cs := fun h => by
  simpa using List.all_eq_true.1 (List.all_takeWhile (l := cs) (p := (· != '('))) '(' h

theorem head?_backOf (cs : List Char) : ∀ c ∈ (backOf cs).head?, c = '(' := by
  intro c hc
  have h := List.head?_dropWhile_not (· != '(') cs
  have hc : (cs.dropWhile (· != '(')).head? = some c := hc
  rw [hc] at h
  simpa using h

theorem frontOf_append {a : List Char} (ha : '(' ∉ a) (b : List Char) :
    frontOf (a ++ b) = a ++ frontOf b := by
  refine List.takeWhile_append_of_pos fun c hc => ?_
  have : c ≠ '(' := fun e => ha (e ▸ hc)
  simpa using this

theorem backOf_append {a : List Char} (ha : '(' ∉ a) (b : List Char) :
    backOf (a ++ b) = backOf b := by
  refine List.dropWhile_append_of_pos fun c hc => ?_
  have : c ≠ '(' := fun e => ha (e ▸ hc)
  simpa using this

theorem frontOf_of_head {b : List Char} (h : ∀ c ∈ b.head?, c = '(') : frontOf b = [] := by
  cases b with
  | nil => rfl
  | cons c b => simp [frontOf, Edit.splitComment, h c rfl]

theorem backOf_of_head {b : List Char} (h : ∀ c ∈ b.head?, c = '(') : backOf b = b := by
  cases b with
  | nil => rfl
  | cons c b => simp [backOf, Edit.splitComment, h c rfl]

section

variable {α : Type} [Scalar α]

def frontWords (cs : List Char) : List (AddressWord α) := lineWords (frontOf cs)

def backWords (cs : List Char) : List (AddressWord α) := lineWords (backOf cs)

theorem lineWords_of_ended {cs : List Char} (h : ';' ∈ frontOf cs) :
    (lineWords cs : List (AddressWord α)) = codeWords ((frontOf cs).takeWhile (· != ';')) := by
  conv => lhs; rw [← frontOf_append_backOf cs]
  rw [lineWords, codeOf_append_of_end (paren_not_mem_frontOf cs) h]

theorem lineWords_of_not_ended {cs : List Char} (h : ';' ∉ frontOf cs) :
    (lineWords cs : List (AddressWord α)) = codeWords (frontOf cs ++ codeOf [' '] (backOf cs)) := by
  conv => lhs; rw [← frontOf_append_backOf cs]
  rw [lineWords, codeOf_append (paren_not_mem_frontOf cs) h]

theorem lineWords_of_plain {cs : List Char} (hopen : '(' ∉ cs) (hend : ';' ∉ cs) :
    (lineWords cs : List (AddressWord α)) = codeWords cs := by
  rw [lineWords, codeOf_of_plain hopen hend]

theorem frontWords_of_not_ended {cs : List Char} (h : ';' ∉ frontOf cs) :
    (frontWords cs : List (AddressWord α)) = codeWords (frontOf cs) :=
  lineWords_of_plain (paren_not_mem_frontOf cs) h

theorem lineWords_append_blank {a : List Char} (hopen : '(' ∉ a) (hend : ';' ∉ a)
    (ha : openLetter? a = none) (b : List Char) :
    (lineWords (a ++ ' ' :: b) : List (AddressWord α)) = codeWords a ++ lineWords b := by
  have hblank : ∀ c ∈ [' '], Text.isBlank c = true := by simp
  have hcode : codeOf [' '] (' ' :: b) = ' ' :: codeOf [' '] b :=
    codeOf_append (a := [' ']) (by decide) (by decide) [' '] b
  have hends : EndsNumber (' ' :: codeOf [' '] b) := endsNumber_cons.2 (by decide)
  rw [lineWords, codeOf_append hopen hend, hcode, codeWords_append hends (Or.inl ha),
    codeWords_of_not_alpha (by decide)]
  rfl

theorem openLetter?_eq_some {cs : List Char} {l : Char} (h : openLetter? cs = some l) :
    l.isAlpha = true ∧ ∃ a g, cs = a ++ l :: g ∧ ∀ c ∈ g, Text.isBlank c = true := by
  induction cs with
  | nil => cases h
  | cons c cs ih =>
    rw [openLetter?] at h
    split at h
    · next hall =>
      split at h
      · next hc =>
        obtain rfl := Option.some.inj h
        exact ⟨hc, [], cs, rfl, List.all_eq_true.1 hall⟩
      · cases h
    · obtain ⟨hl, a, g, rfl, hg⟩ := ih h
      exact ⟨hl, c :: a, g, rfl, hg⟩

/-- The words of a line are the words on both sides of its first parenthesis, and one more if the
last letter in front has its number behind. -/
theorem exists_lineWords_eq {cs : List Char} (hend : ';' ∉ frontOf cs) :
    ∃ o : List (AddressWord α), lineWords cs = frontWords cs ++ (o ++ backWords cs) := by
  have hends := endsNumber_codeOf (head?_backOf cs)
  have hback : (backWords cs : List (AddressWord α)) = codeWords (codeOf [' '] (backOf cs)) := rfl
  rw [lineWords_of_not_ended hend, frontWords_of_not_ended hend, hback]
  cases hopen : openLetter? (frontOf cs) with
  | none => exact ⟨[], by rw [codeWords_append hends (Or.inl hopen)]; rfl⟩
  | some l =>
    cases hnumber : numberPart (codeOf [' '] (backOf cs)) with
    | none => exact ⟨[], by rw [codeWords_append hends (Or.inr hnumber)]; rfl⟩
    | some r =>
      obtain ⟨gap, n⟩ := r
      obtain ⟨hl, a, g, hfront, hg⟩ := openLetter?_eq_some hopen
      obtain ⟨rest, hrest, hnumeric, -, -⟩ := numberPart_prefix hnumber
      have hspan : numberPart (g ++ gap ++ n ++ rest) = some (g ++ gap, n) := by
        have h := numberPart_blanks_append hg (codeOf [' '] (backOf cs))
        rw [hnumber, hrest] at h
        simpa using h
      have hfrontWords : (codeWords (l :: g) : List (AddressWord α)) = [] := by
        rw [codeWords, pieces_of_none (numberPart_of_blank hg)]
        exact codeWords_of_no_letter fun c hc => isAlpha_of_isBlank (hg c hc)
      have hbackWords : (codeWords (gap ++ n ++ rest) : List (AddressWord α)) = codeWords rest :=
        codeWords_append_of_no_letter (fun c hc => isAlpha_of_isNumeric (hnumeric c hc)) rest
      have hboth : frontOf cs ++ codeOf [' '] (backOf cs) = a ++ l :: (g ++ gap ++ n ++ rest) := by
        rw [hfront, hrest]
        simp
      refine ⟨(wordOf l n).toList, ?_⟩
      rw [hboth, codeWords_append_letter a hl, codeWords_letter hl hspan, hfront,
        codeWords_append_letter a hl, hfrontWords, hrest, hbackWords, List.append_nil]

end

/-! ## Blanks at the end -/

/-- Blanks after a line belong to what stands behind its parenthesis, if it has one. -/
theorem cut_append_blanks {g : List Char} (hg : ∀ c ∈ g, Text.isBlank c = true) (cs : List Char) :
    (frontOf (cs ++ g) = frontOf cs ∧ backOf (cs ++ g) = backOf cs ++ g) ∨
      (frontOf (cs ++ g) = frontOf cs ++ g ∧ backOf (cs ++ g) = backOf cs) := by
  have hparen : '(' ∉ g := fun m => absurd (hg _ m) (by decide)
  have hsplit : cs ++ g = frontOf cs ++ (backOf cs ++ g) := by
    rw [← List.append_assoc, frontOf_append_backOf]
  rw [hsplit, frontOf_append (paren_not_mem_frontOf cs), backOf_append (paren_not_mem_frontOf cs)]
  cases hback : backOf cs with
  | nil =>
    have hfront := frontOf_append hparen []
    have hnone := backOf_append hparen []
    rw [List.append_nil] at hfront hnone
    right
    rw [List.nil_append, hfront, hnone]
    exact ⟨by simp [frontOf, Edit.splitComment], rfl⟩
  | cons c rest =>
    have hhead : ∀ d ∈ (c :: rest ++ g).head?, d = '(' := by
      have hc := head?_backOf cs c (by rw [hback]; rfl)
      rintro d ⟨⟩
      exact hc
    left
    rw [frontOf_of_head hhead, backOf_of_head hhead, List.append_nil]
    exact ⟨rfl, rfl⟩

theorem semicolon_mem_frontOf_append_blanks {g : List Char}
    (hg : ∀ c ∈ g, Text.isBlank c = true) (cs : List Char) :
    ';' ∈ frontOf (cs ++ g) ↔ ';' ∈ frontOf cs := by
  have hend : ';' ∉ g := fun m => absurd (hg _ m) (by decide)
  rcases cut_append_blanks hg cs with ⟨h, -⟩ | ⟨h, -⟩ <;> simp [h, hend]

section

variable {α : Type} [Scalar α]

theorem frontWords_append_blanks {g : List Char} (hg : ∀ c ∈ g, Text.isBlank c = true)
    (cs : List Char) : (frontWords (cs ++ g) : List (AddressWord α)) = frontWords cs := by
  rcases cut_append_blanks hg cs with ⟨h, -⟩ | ⟨h, -⟩
  · rw [frontWords, h]
    rfl
  · rw [frontWords, h, lineWords_append_blanks _ hg]
    rfl

theorem backWords_append_blanks {g : List Char} (hg : ∀ c ∈ g, Text.isBlank c = true)
    (cs : List Char) : (backWords (cs ++ g) : List (AddressWord α)) = backWords cs := by
  rcases cut_append_blanks hg cs with ⟨-, h⟩ | ⟨-, h⟩
  · rw [backWords, h, lineWords_append_blanks _ hg]
    rfl
  · rw [backWords, h]
    rfl

end

end SpacerTurning
