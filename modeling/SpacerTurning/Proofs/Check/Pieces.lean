import SpacerTurning.Check.Line
import SpacerTurning.Proofs.Number.Word

/-!
Parts of a line, taken apart and put together.

A line is cut into parts from the left, and a part never looks further ahead than to the end of its
number.  So the parts of two texts in a row are the parts of the one and the parts of the other,
unless the second goes on with a number of the first, or gives a number to a letter that the first
ends with.  `codeWords_append` says so for the words, and names the one word that may come out of
the seam.
-/

namespace SpacerTurning

open Number

/-! ## Numbers at the front of a text -/

/-- A text does not go on with a number that stands before it. -/
def EndsNumber (cs : List Char) : Prop := ∀ c ∈ cs.head?, Text.isDecimalDigit c = false ∧ c ≠ '.'

theorem endsNumber_nil : EndsNumber [] := by simp [EndsNumber]

theorem endsNumber_cons {c : Char} {cs : List Char} :
    EndsNumber (c :: cs) ↔ Text.isDecimalDigit c = false ∧ c ≠ '.' := by
  simp [EndsNumber]

theorem takeWhile_append_of_head {p : Char → Bool} (u : List Char) {b : List Char}
    (h : ∀ c ∈ b.head?, p c = false) : (u ++ b).takeWhile p = u.takeWhile p := by
  induction u with
  | nil => cases b <;> simp_all
  | cons c u ih => cases hc : p c <;> simp [hc, ih]

theorem unsignedPart_append (u : List Char) {b : List Char} (h : EndsNumber b) :
    unsignedPart (u ++ b) = unsignedPart u := by
  have hdigits (u : List Char) :
      (u ++ b).takeWhile Text.isDecimalDigit = u.takeWhile Text.isDecimalDigit :=
    takeWhile_append_of_head u fun c hc => (h c hc).1
  unfold unsignedPart
  rw [hdigits u]
  cases hds : u.takeWhile Text.isDecimalDigit with
  | nil =>
    match u with
    | [] =>
      match b, h with
      | [], _ => rfl
      | c :: b, h =>
        have hc := (endsNumber_cons.1 h).2
        simp [hc]
    | c :: u => by_cases hc : c = '.' <;> simp [hc, hdigits]
  | cons d ds =>
    have hlen : (d :: ds).length ≤ u.length := by
      rw [← hds]
      exact (List.takeWhile_prefix _).length_le
    simp only [List.drop_append_of_le_length hlen]
    cases u.drop (d :: ds).length with
    | nil =>
      match b, h with
      | [], _ => rfl
      | c :: b, h =>
        have hc := (endsNumber_cons.1 h).2
        simp [hc]
    | cons c rest => by_cases hc : c = '.' <;> simp [hc, hdigits]

theorem drop_length_takeWhile (p : Char → Bool) (cs : List Char) :
    cs.drop (cs.takeWhile p).length = cs.dropWhile p := by
  induction cs with
  | nil => rfl
  | cons c cs ih => by_cases hc : p c <;> simp [hc, ih]

/-- A number with its sign at the front of a text, if there is one. -/
def signedPart (cs : List Char) : Option (List Char) :=
  match unsignedPart (cs.drop (signPart cs).length) with
  | [] => none
  | number => some (signPart cs ++ number)

theorem numberPart_eq (cs : List Char) :
    numberPart cs =
      (signedPart (cs.dropWhile Text.isBlank)).map (cs.takeWhile Text.isBlank, ·) := by
  simp only [numberPart, signedPart, drop_length_takeWhile]
  cases unsignedPart ((cs.dropWhile Text.isBlank).drop
    (signPart (cs.dropWhile Text.isBlank)).length) <;> rfl

/-- Blanks in front of a number belong to its gap. -/
theorem numberPart_blanks_append {g : List Char} (hg : ∀ c ∈ g, Text.isBlank c = true)
    (b : List Char) : numberPart (g ++ b) = (numberPart b).map fun r => (g ++ r.1, r.2) := by
  simp only [numberPart_eq, List.takeWhile_append_of_pos hg, List.dropWhile_append_of_pos hg]
  cases signedPart (b.dropWhile Text.isBlank) <;> rfl

theorem numberPart_cons_of_not_blank {c : Char} (hc : Text.isBlank c = false) (cs : List Char) :
    numberPart (c :: cs) = (signedPart (c :: cs)).map ([], ·) := by
  simp [numberPart_eq, hc]

theorem signPart_length_le (cs : List Char) : (signPart cs).length ≤ cs.length := by
  cases cs with
  | nil => simp [signPart]
  | cons c cs => by_cases hc : c = '-' ∨ c = '+' <;> simp [signPart, hc]

theorem signedPart_cons_append (c : Char) (a : List Char) {b : List Char} (hb : EndsNumber b) :
    signedPart (c :: (a ++ b)) = signedPart (c :: a) := by
  have hsign : signPart (c :: (a ++ b)) = signPart (c :: a) := rfl
  have hdrop : ((c :: a) ++ b).drop (signPart (c :: a)).length
      = (c :: a).drop (signPart (c :: a)).length ++ b :=
    List.drop_append_of_le_length (signPart_length_le (c :: a))
  rw [List.cons_append] at hdrop
  unfold signedPart
  rw [hsign, hdrop, unsignedPart_append _ hb]

/-- A number is read no further than its own end. -/
theorem numberPart_append {a b : List Char} (ha : ∃ c ∈ a, Text.isBlank c = false)
    (hb : EndsNumber b) : numberPart (a ++ b) = numberPart a := by
  induction a with
  | nil => simp at ha
  | cons c a ih =>
    by_cases hc : Text.isBlank c
    · have hgap : ∀ d ∈ [c], Text.isBlank d = true := by simpa using hc
      have ha : ∃ c ∈ a, Text.isBlank c = false := by simpa [hc] using ha
      have hboth := numberPart_blanks_append hgap (a ++ b)
      have hfirst := numberPart_blanks_append hgap a
      rw [ih ha] at hboth
      exact hboth.trans hfirst.symm
    · have hc : Text.isBlank c = false := by simpa using hc
      rw [List.cons_append, numberPart_cons_of_not_blank hc, numberPart_cons_of_not_blank hc,
        signedPart_cons_append c a hb]

theorem numberPart_of_blank {g : List Char} (hg : ∀ c ∈ g, Text.isBlank c = true) :
    numberPart g = none := by
  have h := numberPart_blanks_append hg []
  rw [List.append_nil] at h
  exact h

theorem numberPart_of_head {b : List Char}
    (h : ∀ c ∈ b.head?, Text.isBlank c = false ∧ Text.isDecimalDigit c = false ∧ c ≠ '.' ∧
      c ≠ '-' ∧ c ≠ '+') : numberPart b = none := by
  cases b with
  | nil => rfl
  | cons c b =>
    obtain ⟨hblank, hdigit, hpoint, hminus, hplus⟩ := h c rfl
    have hsign : signPart (c :: b) = [] := by simp [signPart, hminus, hplus]
    simp [numberPart_cons_of_not_blank hblank, signedPart, hsign, unsignedPart, hdigit, hpoint]

/-! ## What a number is made of -/

/-- A character that can stand in a number, or in front of it. -/
def isNumeric (c : Char) : Bool :=
  Text.isBlank c || Text.isDecimalDigit c || c == '.' || c == '-' || c == '+'

theorem isNumeric_of_isAlpha_ascii :
    ∀ n < 128, (Char.ofNat n).isAlpha = true → isNumeric (Char.ofNat n) = false := by
  decide +kernel

theorem isNumeric_of_isAlpha {c : Char} (h : c.isAlpha = true) : isNumeric c = false := by
  have hsmall : c.toNat < 128 := by
    simp only [Char.isAlpha, Char.isUpper, Char.isLower, Bool.or_eq_true, Bool.and_eq_true,
      decide_eq_true_eq] at h
    have hz : c.val ≤ 122 := by
      rcases h with h | h
      · exact UInt32.le_trans h.2 (by decide)
      · exact h.2
    have : c.val.toNat ≤ 122 := hz
    show c.val.toNat < 128
    omega
  have hascii := isNumeric_of_isAlpha_ascii c.toNat hsmall
  rw [Char.ofNat_toNat] at hascii
  exact hascii h

theorem isAlpha_of_isNumeric {c : Char} (h : isNumeric c = true) : c.isAlpha = false := by
  cases hc : c.isAlpha with
  | false => rfl
  | true => rw [isNumeric_of_isAlpha hc] at h; cases h

theorem mem_takeWhile_digit {cs : List Char} {c : Char}
    (h : c ∈ cs.takeWhile Text.isDecimalDigit) : Text.isDecimalDigit c = true :=
  List.all_eq_true.1 List.all_takeWhile c h

theorem head?_dropWhile_digit (cs : List Char) :
    ∀ c ∈ (cs.dropWhile Text.isDecimalDigit).head?, Text.isDecimalDigit c = false := by
  intro c hc
  have h := List.head?_dropWhile_not Text.isDecimalDigit cs
  rw [hc] at h
  simpa using h

/-- A number takes all the digits that it can. -/
theorem unsignedPart_prefix (cs : List Char) :
    ∃ rest, cs = unsignedPart cs ++ rest ∧
      (∀ c ∈ unsignedPart cs, Text.isDecimalDigit c = true ∨ c = '.') ∧
      (unsignedPart cs ≠ [] → ∀ c ∈ rest.head?, Text.isDecimalDigit c = false) := by
  unfold unsignedPart
  split
  · split
    · next rest _ =>
      split
      · exact ⟨_, rfl, by simp, by simp⟩
      · refine ⟨rest.dropWhile Text.isDecimalDigit, by simp, ?_,
          fun _ => head?_dropWhile_digit rest⟩
        intro c hc
        rcases List.mem_cons.1 hc with rfl | hc
        · exact Or.inr rfl
        · exact Or.inl (mem_takeWhile_digit hc)
    · exact ⟨_, rfl, by simp, by simp⟩
  · have hsplit : cs = cs.takeWhile Text.isDecimalDigit
        ++ cs.drop (cs.takeWhile Text.isDecimalDigit).length := by
      rw [drop_length_takeWhile, List.takeWhile_append_dropWhile]
    split
    · next rest hrest =>
      refine ⟨rest.dropWhile Text.isDecimalDigit, ?_, ?_, fun _ => head?_dropWhile_digit rest⟩
      · rw [hrest] at hsplit
        simpa using hsplit
      · intro c hc
        rcases List.mem_append.1 hc with hc | hc
        · exact Or.inl (mem_takeWhile_digit hc)
        · rcases List.mem_cons.1 hc with rfl | hc
          · exact Or.inr rfl
          · exact Or.inl (mem_takeWhile_digit hc)
    · refine ⟨_, hsplit, fun c hc => Or.inl (mem_takeWhile_digit hc), fun _ => ?_⟩
      rw [drop_length_takeWhile]
      exact head?_dropWhile_digit cs

theorem unsignedPart_ne_nil {cs n : List Char} (h : signedPart cs = some n) :
    unsignedPart (cs.drop (signPart cs).length) ≠ [] ∧
      n = signPart cs ++ unsignedPart (cs.drop (signPart cs).length) := by
  unfold signedPart at h
  split at h
  · cases h
  · next hne => exact ⟨hne, (Option.some.inj h).symm⟩

theorem signPart_prefix (cs : List Char) : cs = signPart cs ++ cs.drop (signPart cs).length := by
  cases cs with
  | nil => rfl
  | cons c cs => by_cases hc : c = '-' ∨ c = '+' <;> simp [signPart, hc]

theorem mem_signPart {cs : List Char} {c : Char} (h : c ∈ signPart cs) : c = '-' ∨ c = '+' := by
  cases cs with
  | nil => simp [signPart] at h
  | cons d cs =>
    by_cases hd : d = '-' ∨ d = '+'
    · simp only [signPart, hd, if_true, List.mem_singleton] at h
      rwa [h]
    · simp [signPart, hd] at h

theorem isBlank_of_numeral {c : Char} (h : Text.isDecimalDigit c = true ∨ c = '.') :
    Text.isBlank c = false := by
  rcases h with h | rfl
  · exact Text.isBlank_of_isDecimalDigit h
  · decide

/-- The blanks and the number that a text starts with are a part of it, hold no letter, and stand
in front of no digit. -/
theorem numberPart_prefix {cs g n : List Char} (h : numberPart cs = some (g, n)) :
    ∃ rest, cs = g ++ n ++ rest ∧ (∀ c ∈ g ++ n, isNumeric c = true) ∧
      (∃ last ∈ n.getLast?, Text.isBlank last = false) ∧
      ∀ c ∈ rest.head?, Text.isDecimalDigit c = false := by
  rw [numberPart_eq, Option.map_eq_some_iff] at h
  obtain ⟨n', hn', heq⟩ := h
  obtain ⟨rfl, rfl⟩ := Prod.mk.inj heq
  obtain ⟨hne, hnum⟩ := unsignedPart_ne_nil hn'
  have hsign := signPart_prefix (cs.dropWhile Text.isBlank)
  obtain ⟨rest, hrest, hdigits, hhead⟩ := unsignedPart_prefix
    ((cs.dropWhile Text.isBlank).drop (signPart (cs.dropWhile Text.isBlank)).length)
  refine ⟨rest, ?_, ?_, ?_, hhead hne⟩
  · rw [hnum, List.append_assoc, List.append_assoc, ← hrest, ← hsign,
      List.takeWhile_append_dropWhile]
  · intro c hc
    rw [hnum, List.mem_append, List.mem_append] at hc
    rcases hc with hc | hc | hc
    · have : Text.isBlank c = true := List.all_eq_true.1 List.all_takeWhile c hc
      simp [isNumeric, this]
    · rcases mem_signPart hc with rfl | rfl <;> decide
    · rcases hdigits c hc with hc | rfl
      · simp [isNumeric, hc]
      · decide
  · have hlast := List.getLast?_eq_some_getLast hne
    rw [hnum, List.getLast?_append, hlast]
    exact ⟨_, rfl, isBlank_of_numeral (hdigits _ (List.getLast_mem hne))⟩

/-! ## Numbers that are written -/

theorem takeWhile_digits {ds : List Char} (hds : AllDigits ds) {rest : List Char}
    (h : ∀ c ∈ rest.head?, Text.isDecimalDigit c = false) :
    (ds ++ rest).takeWhile Text.isDecimalDigit = ds := by
  rw [takeWhile_append_of_head ds h]
  have hall : ∀ c ∈ ds, Text.isDecimalDigit c = true := fun c hc =>
    Text.isDecimalDigit_of_isDigit (hds c hc)
  exact List.takeWhile_eq_self_iff.2 hall

theorem signPart_of_digit {ds : List Char} (hds : AllDigits ds) (hne : ds ≠ [])
    (rest : List Char) : signPart (ds ++ rest) = [] := by
  obtain ⟨d, ds, rfl⟩ := List.exists_cons_of_ne_nil hne
  obtain ⟨-, hminus, hplus, -, -⟩ := Text.digit_ne (hds d List.mem_cons_self)
  simp [signPart, hminus, hplus]

theorem unsignedPart_digits {ds : List Char} (hds : AllDigits ds) (hne : ds ≠ [])
    {rest : List Char} (h : EndsNumber rest) : unsignedPart (ds ++ rest) = ds := by
  obtain ⟨d, ds', rfl⟩ := List.exists_cons_of_ne_nil hne
  unfold unsignedPart
  rw [takeWhile_digits hds fun c hc => (h c hc).1]
  simp only [List.drop_left]
  cases rest with
  | nil => rfl
  | cons c rest =>
    have hc := (endsNumber_cons.1 h).2
    simp [hc]

theorem unsignedPart_pointed {whole fraction : List Char} (hwhole : AllDigits whole)
    (hne : whole ≠ []) (hfraction : AllDigits fraction) {rest : List Char}
    (h : ∀ c ∈ rest.head?, Text.isDecimalDigit c = false) :
    unsignedPart (whole ++ '.' :: fraction ++ rest) = whole ++ '.' :: fraction := by
  obtain ⟨d, ds, rfl⟩ := List.exists_cons_of_ne_nil hne
  have hpoint : ∀ c ∈ ('.' :: (fraction ++ rest)).head?, Text.isDecimalDigit c = false := by
    rintro c ⟨⟩
    decide
  unfold unsignedPart
  rw [show d :: ds ++ '.' :: fraction ++ rest = d :: ds ++ '.' :: (fraction ++ rest) by simp,
    takeWhile_digits hwhole hpoint]
  simp only [List.drop_left]
  simp [takeWhile_digits hfraction h]

theorem numberPart_eq_some {sign n rest : List Char} (hsign : signPart (sign ++ (n ++ rest)) = sign)
    (hn : unsignedPart (n ++ rest) = n) (hne : n ≠ [])
    (hblank : ∀ c ∈ (sign ++ n).head?, Text.isBlank c = false) :
    numberPart (sign ++ n ++ rest) = some ([], sign ++ n) := by
  have hsigned : signedPart (sign ++ (n ++ rest)) = some (sign ++ n) := by
    rw [signedPart, hsign, List.drop_left, hn]
    cases n with
    | nil => exact absurd rfl hne
    | cons d n => rfl
  rw [List.append_assoc]
  cases hall : sign ++ (n ++ rest) with
  | nil => simp [hne] at hall
  | cons c cs =>
    have hc : Text.isBlank c = false := by
      refine hblank c ?_
      rw [← List.append_assoc] at hall
      cases hboth : sign ++ n with
      | nil => simp [hne] at hboth
      | cons d ds =>
        rw [hboth, List.cons_append] at hall
        rw [(List.cons.inj hall).1]
        rfl
    rw [numberPart_cons_of_not_blank hc, ← hall, hsigned]
    rfl

theorem numberPart_digits {ds : List Char} (hds : AllDigits ds) (hne : ds ≠ []) {rest : List Char}
    (h : EndsNumber rest) : numberPart (ds ++ rest) = some ([], ds) := by
  have hsign : signPart ([] ++ (ds ++ rest)) = [] := signPart_of_digit hds hne rest
  refine numberPart_eq_some hsign (unsignedPart_digits hds hne h) hne fun c hc => ?_
  exact (Text.digit_ne (hds c (List.mem_of_mem_head? hc))).1

/-- The number of a program word is read as a whole in front of anything but a digit. -/
theorem numberPart_text (w : WordNumber) {rest : List Char}
    (h : ∀ c ∈ rest.head?, Text.isDecimalDigit c = false) :
    numberPart (w.text ++ rest) = some ([], w.text) := by
  have hunsigned := unsignedPart_pointed w.whole_digits w.whole_ne_nil w.fraction_digits h
  refine numberPart_eq_some ?_ hunsigned (by simp) fun c hc =>
    w.isBlank_of_mem_text (List.mem_of_mem_head? hc)
  cases w.negative with
  | true => rfl
  | false =>
    have hplain := signPart_of_digit w.whole_digits w.whole_ne_nil ('.' :: w.fraction ++ rest)
    simpa using hplain

/-! ## Words of a text -/

theorem pieces_eq_drop (n : Nat) (cs : List Char) : pieces n cs = pieces 0 (cs.drop n) := by
  induction n generalizing cs with
  | zero => rfl
  | succ n ih =>
    cases cs with
    | nil => rfl
    | cons c cs => exact ih cs

theorem pieces_of_not_alpha {c : Char} (hc : c.isAlpha = false) (cs : List Char) :
    pieces 0 (c :: cs) = .other c :: pieces 0 cs := by
  simp [pieces, hc]

theorem pieces_of_none {c : Char} {cs : List Char} (h : numberPart cs = none) :
    pieces 0 (c :: cs) = .other c :: pieces 0 cs := by
  simp [pieces, h]

theorem pieces_of_some {c : Char} (hc : c.isAlpha = true) {cs g n : List Char}
    (h : numberPart cs = some (g, n)) :
    pieces 0 (c :: cs) = .word c g n :: pieces 0 (cs.drop (g.length + n.length)) := by
  simp [pieces, hc, h, pieces_eq_drop (g.length + n.length)]

/-- The parts of a text make the text again. -/
theorem flatMap_text_pieces (cs : List Char) : (pieces 0 cs).flatMap Piece.text = cs := by
  match cs with
  | [] => rfl
  | c :: cs =>
    cases hc : c.isAlpha with
    | false => rw [pieces_of_not_alpha hc, List.flatMap_cons, flatMap_text_pieces cs]; rfl
    | true =>
      cases hnumber : numberPart cs with
      | none => rw [pieces_of_none hnumber, List.flatMap_cons, flatMap_text_pieces cs]; rfl
      | some r =>
        obtain ⟨g, n⟩ := r
        obtain ⟨rest, rfl, -, -, -⟩ := numberPart_prefix hnumber
        have hdrop : (g ++ n ++ rest).drop (g.length + n.length) = rest := by
          rw [← List.length_append, List.drop_left]
        rw [pieces_of_some hc hnumber, hdrop, List.flatMap_cons, flatMap_text_pieces rest]
        rfl
termination_by cs.length

/-- A letter at the end of a text, blanks after it allowed, that a number could follow. -/
def openLetter? : List Char → Option Char
  | [] => none
  | c :: cs =>
    if cs.all Text.isBlank then (if c.isAlpha then some c else none) else openLetter? cs

theorem openLetter?_of_blank {cs : List Char} (h : ∀ c ∈ cs, Text.isBlank c = true) :
    openLetter? cs = none := by
  cases cs with
  | nil => rfl
  | cons c cs =>
    have hblank : Text.isBlank c = true := h c List.mem_cons_self
    have hc : c.isAlpha = false := isAlpha_of_isNumeric (by simp [isNumeric, hblank])
    have hall : cs.all Text.isBlank = true :=
      List.all_eq_true.2 fun d hd => h d (List.mem_cons_of_mem _ hd)
    simp [openLetter?, hall, hc]

theorem openLetter?_append (u v : List Char) :
    openLetter? (u ++ v) = if v.all Text.isBlank then openLetter? u else openLetter? v := by
  induction u with
  | nil =>
    split
    · next hv => exact openLetter?_of_blank (List.all_eq_true.1 hv)
    · rfl
  | cons c u ih =>
    rw [List.cons_append, openLetter?, List.all_append, ih, openLetter?]
    cases v.all Text.isBlank <;> simp

theorem openLetter?_concat {c : Char} (u : List Char) (hblank : Text.isBlank c = false)
    (hc : c.isAlpha = false) : openLetter? (u ++ [c]) = none := by
  simp [openLetter?_append, openLetter?, hblank, hc]

/-- Parts of two texts in a row are those of the one and of the other, if no number goes on over the
seam and no letter before it finds a number behind it. -/
theorem pieces_append {a b : List Char} (hb : EndsNumber b)
    (h : openLetter? a = none ∨ numberPart b = none) :
    pieces 0 (a ++ b) = pieces 0 a ++ pieces 0 b := by
  match a with
  | [] => rfl
  | c :: a =>
    by_cases hall : a.all Text.isBlank = true
    · have hblank := List.all_eq_true.1 hall
      have hopen : openLetter? a = none := openLetter?_of_blank hblank
      have ih := pieces_append (a := a) hb (Or.inl hopen)
      cases hc : c.isAlpha with
      | false => rw [List.cons_append, pieces_of_not_alpha hc, pieces_of_not_alpha hc, ih]; rfl
      | true =>
        -- The letter is open, so that nothing behind the seam may be its number.
        have hnone : numberPart b = none := by simpa [openLetter?, hall, hc] using h
        have hboth : numberPart (a ++ b) = none := by
          rw [numberPart_blanks_append hblank, hnone]
          rfl
        rw [List.cons_append, pieces_of_none hboth, pieces_of_none (numberPart_of_blank hblank),
          ih]
        rfl
    · have hopen : openLetter? (c :: a) = openLetter? a := by simp [openLetter?, hall]
      have hsome : ∃ d ∈ a, Text.isBlank d = false := by simpa using hall
      rw [hopen] at h
      cases hc : c.isAlpha with
      | false =>
        rw [List.cons_append, pieces_of_not_alpha hc, pieces_of_not_alpha hc,
          pieces_append hb h]
        rfl
      | true =>
        have hpart := numberPart_append hsome hb
        cases hnumber : numberPart a with
        | none =>
          rw [hnumber] at hpart
          rw [List.cons_append, pieces_of_none hpart, pieces_of_none hnumber, pieces_append hb h]
          rfl
        | some r =>
          obtain ⟨g, n⟩ := r
          obtain ⟨rest, hrest, -, -, -⟩ := numberPart_prefix hnumber
          have hdrop (t : List Char) : (g ++ n ++ t).drop (g.length + n.length) = t := by
            rw [← List.length_append, List.drop_left]
          have hrestOpen : openLetter? rest = none ∨ numberPart b = none := by
            refine h.imp_left fun h => ?_
            rw [hrest, openLetter?_append] at h
            split at h
            · next hall => exact openLetter?_of_blank (List.all_eq_true.1 hall)
            · exact h
          have hshorter : rest.length < a.length + 1 := by
            rw [hrest]
            simp
            omega
          rw [hnumber] at hpart
          rw [List.cons_append, pieces_of_some hc hpart, pieces_of_some hc hnumber, hrest,
            List.append_assoc (g ++ n), hdrop, hdrop, pieces_append hb hrestOpen]
          rfl
termination_by a.length

end SpacerTurning
