import SpacerTurning.Document.Toml.Scalar
import SpacerTurning.Document.Toml.Write
import SpacerTurning.Proofs.Number.Spelling

/-!
Numbers in TOML, read again.

A number stands at the end of its line.  It is no date and no time, since those have marks among their
digits that no number has, and from the marks that it has itself the reader tells which kind of number it
is.
-/

namespace SpacerTurning
namespace Toml

open Number Binary64

section

variable {ds whole places more : List Char} {negative : Bool} {x : Float}

/-! ## Digits -/

/-- What can follow the digits of a number. -/
def EndsDigits (rest : List Char) : Prop := ∀ c ∈ rest.head?, c.isDigit = false ∧ c ≠ '_'

theorem endsDigits_point (rest : List Char) : EndsDigits ('.' :: rest) := by simp [EndsDigits]

theorem endsDigits_feed (rest : List Char) : EndsDigits ('\n' :: rest) := by simp [EndsDigits]

theorem moreDigits_append {rest : List Char} (hds : AllDigits ds) (hrest : EndsDigits rest) :
    moreDigits Char.isDigit (ds ++ rest) = (ds, rest) := by
  induction ds with
  | nil =>
    cases rest with
    | nil => rfl
    | cons c cs =>
      obtain ⟨hdigit, hmark⟩ := hrest c rfl
      rw [List.nil_append, moreDigits, hdigit]
      · rfl
      · rintro d ds rfl
        exact absurd rfl hmark
  | cons d ds ih =>
    have hd := hds d List.mem_cons_self
    have hnext := ih fun c hc => hds c (List.mem_cons_of_mem d hc)
    rw [List.cons_append, moreDigits, if_pos hd, hnext]
    rintro e es rfl
    exact absurd hd (by decide)

theorem digits_append {rest : List Char} (hds : AllDigits ds) (hne : ds ≠ []) (hrest : EndsDigits rest) :
    digits Char.isDigit (ds ++ rest) = some (ds, rest) := by
  obtain ⟨d, ds, rfl⟩ := List.exists_cons_of_ne_nil hne
  rw [List.cons_append, digits, if_pos (hds d List.mem_cons_self),
    moreDigits_append (fun c hc => hds c (List.mem_cons_of_mem d hc)) hrest]

theorem wholeDigits_append {rest : List Char} (hwhole : IsWholePart whole) (hrest : EndsDigits rest) :
    wholeDigits (whole ++ rest) = some (whole, rest) := by
  obtain ⟨d, ds, rfl⟩ := List.exists_cons_of_ne_nil hwhole.ne_nil
  by_cases hd : d = '0'
  · subst hd
    rw [hwhole.zero ds rfl]
    rfl
  · rw [List.cons_append, wholeDigits]
    · exact digits_append hwhole.digits hwhole.ne_nil hrest
    · intro rest heq
      exact hd (List.cons.inj heq).1

/-- A sign is only taken for one where a number starts with it. -/
theorem takeSign_append (negative : Bool) (hwhole : IsWholePart whole) (rest : List Char) :
    takeSign (signChars negative ++ (whole ++ rest)) = (negative, whole ++ rest) := by
  cases negative with
  | true => rfl
  | false =>
    obtain ⟨d, ds, rfl⟩ := List.exists_cons_of_ne_nil hwhole.ne_nil
    obtain ⟨-, hminus, hplus, -, -⟩ := Text.digit_ne (hwhole.digits d List.mem_cons_self)
    simp [signChars, takeSign, hminus, hplus]

/-! ## Kinds of numbers -/

theorem namedNumber_append (negative : Bool) (hwhole : IsWholePart whole) (rest : List Char) :
    namedNumber (signChars negative ++ (whole ++ rest)) = none := by
  obtain ⟨d, ds, hds⟩ := List.exists_cons_of_ne_nil hwhole.ne_nil
  have hd := hwhole.digits d (hds ▸ List.mem_cons_self)
  rw [namedNumber, takeSign_append negative hwhole, hds]
  split
  · next heq => exact absurd (List.cons.inj (Prod.mk.inj heq).2).1 (Text.ne_of_kind hd rfl)
  · next heq => exact absurd (List.cons.inj (Prod.mk.inj heq).2).1 (Text.ne_of_kind hd rfl)
  · rfl

theorem pointNumber_pointed (h : IsPointed negative whole places x) (hx : x.isFinite = true)
    (more : List Char) :
    pointNumber (signChars negative ++ (whole ++ '.' :: (places ++ '\n' :: more)))
      = some (.number x, '\n' :: more) := by
  have hfraction : fraction? ('.' :: (places ++ '\n' :: more)) = some (places, '\n' :: more) :=
    digits_append h.places_digits h.places_ne_nil (endsDigits_feed more)
  have hread := h.read
  simp only [pointed, zero_sub] at hread
  simp [pointNumber, takeSign_append negative h.whole_isWholePart,
    wholeDigits_append h.whole_isWholePart (endsDigits_point _), exponent?, hfraction, hread, hx]

theorem pointNumber_whole (negative : Bool) (hwhole : IsWholePart whole) (more : List Char) :
    pointNumber (signChars negative ++ (whole ++ '\n' :: more)) = none := by
  simp [pointNumber, takeSign_append negative hwhole, wholeDigits_append hwhole (endsDigits_feed more),
    exponent?, fraction?]

/-- A zero at the front is all of the number, so no other base is taken for it. -/
theorem not_based (negative : Bool) (hwhole : IsWholePart whole) (more : List Char) {k : Char}
    (hk : k ≠ '\n') (rest : List Char) :
    signChars negative ++ (whole ++ '\n' :: more) ≠ '0' :: k :: rest := by
  intro h
  cases negative with
  | true => exact absurd (List.cons.inj h).1 (by decide)
  | false =>
    obtain ⟨d, ds, rfl⟩ := List.exists_cons_of_ne_nil hwhole.ne_nil
    obtain ⟨hd, hds⟩ := List.cons.inj (show d :: (ds ++ '\n' :: more) = _ from h)
    rw [hwhole.zero ds (by rw [hd])] at hds
    exact hk (List.cons.inj hds).1.symm

theorem wholeNumber_integer {n : Int} (hlow : -(2 ^ (63 : Nat)) ≤ n) (hhigh : n < 2 ^ (63 : Nat))
    (more : List Char) :
    wholeNumber (signChars (decide (n < 0)) ++ (Nat.toDigits 10 n.natAbs ++ '\n' :: more))
      = some (.integer n, '\n' :: more) := by
  have hwhole := isWholePart_toDigits n.natAbs
  have hwords : inWords (decide (n < 0)) n.natAbs = some (.integer n) := by
    have hword : (2 : Nat) ^ (63 : Nat) = 9223372036854775808 := by decide
    unfold inWords
    split
    · next hneg =>
      have hneg := of_decide_eq_true hneg
      have hsize : (-(n.natAbs : Int)) = n := by omega
      rw [if_pos (by omega), hsize]
    · next hneg =>
      have hneg : ¬ n < 0 := by simpa using hneg
      have hsize : (n.natAbs : Int) = n := by omega
      rw [if_pos (by omega), hsize]
  unfold wholeNumber
  split
  · next heq => exact absurd heq (not_based _ hwhole more (by decide) _)
  · next heq => exact absurd heq (not_based _ hwhole more (by decide) _)
  · next heq => exact absurd heq (not_based _ hwhole more (by decide) _)
  · simp [takeSign_append _ hwhole, wholeDigits_append hwhole (endsDigits_feed more), ofDigits_toDigits,
      hwords]

/-! ## No date and no time -/

/-- Digits of a fixed number are digits of the line. -/
theorem exists_of_fixedNumber {text rest : List Char} {places low high v : Nat}
    (h : fixedNumber places low high (text ++ '\n' :: more) = some (v, rest)) :
    ∃ behind, text = text.take places ++ behind ∧ rest = behind ++ '\n' :: more := by
  simp only [fixedNumber] at h
  split at h
  · next hfound =>
    obtain ⟨hlen, hdigits, -⟩ := hfound
    have hplaces : places ≤ text.length := by
      by_contra hshort
      have hmem : '\n' ∈ (text ++ '\n' :: more).take places := by
        rw [List.take_append, List.mem_append]
        obtain ⟨k, hk⟩ : ∃ k, places - text.length = k + 1 := ⟨places - text.length - 1, by omega⟩
        rw [hk, List.take_succ_cons]
        exact Or.inr List.mem_cons_self
      have := List.all_eq_true.1 hdigits '\n' hmem
      revert this
      decide
    refine ⟨text.drop places, (List.take_append_drop places text).symm, ?_⟩
    rw [← (Prod.mk.inj (Option.some.inj h)).2, List.drop_append_of_le_length hplaces]
  · cases h

theorem fixedNumber_of_head {c : Char} (hc : c.isDigit = false) (places low high : Nat) (cs : List Char) :
    fixedNumber (places + 1) low high (c :: cs) = none := by
  simp [fixedNumber, hc]

theorem mark_eq_none {k : Char} {text : List Char} (hk : k ∉ text) (hfeed : k ≠ '\n') (more : List Char) :
    mark k (text ++ '\n' :: more) = none := by
  cases text with
  | nil => exact if_neg (Ne.symm hfeed)
  | cons c cs =>
    refine if_neg ?_
    rintro rfl
    exact hk List.mem_cons_self

/-- Where a mark has to stand behind a fixed number, nothing is found in a text without it. -/
theorem bind_fixedNumber_eq_none {β : Type} {text : List Char} {k : Char} (hk : k ∉ text)
    (hfeed : k ≠ '\n') {next : Nat × List Char → Option β}
    (hnext : ∀ v rest, mark k rest = none → next (v, rest) = none) (places low high : Nat)
    (more : List Char) :
    (fixedNumber places low high (text ++ '\n' :: more)).bind next = none := by
  cases hfound : fixedNumber places low high (text ++ '\n' :: more) with
  | none => rfl
  | some found =>
    obtain ⟨behind, htext, hrest⟩ := exists_of_fixedNumber hfound
    refine hnext found.1 found.2 ?_
    rw [hrest]
    exact mark_eq_none (fun hmem => hk (htext ▸ List.mem_append_right _ hmem)) hfeed more

theorem date?_eq_none {text : List Char} (h : '-' ∉ text) (more : List Char) :
    date? (text ++ '\n' :: more) = none :=
  bind_fixedNumber_eq_none h (by decide) (fun _ _ hmark => by simp [hmark]) 4 0 9999 more

theorem time?_eq_none {text : List Char} (h : ':' ∉ text) (more : List Char) :
    time? (text ++ '\n' :: more) = none :=
  bind_fixedNumber_eq_none h (by decide) (fun _ _ hmark => by simp [hmark]) 2 0 23 more

theorem moment?_of_head {c : Char} (hc : c.isDigit = false) (cs : List Char) :
    moment? (c :: cs) = none := by
  simp [moment?, date?, time?, fixedNumber_of_head hc]

/-- A number has a minus sign at its front only, and no colon. -/
theorem moment?_append (negative : Bool) {body : List Char}
    (hbody : ∀ c ∈ body, c.isDigit = true ∨ c = '.') (more : List Char) :
    moment? (signChars negative ++ (body ++ '\n' :: more)) = none := by
  cases negative with
  | true => exact moment?_of_head rfl _
  | false =>
    have hnotMem {k : Char} (hdigit : k.isDigit = false) (hpoint : k ≠ '.') : k ∉ body := fun hk => by
      rcases hbody k hk with h | h
      · rw [hdigit] at h
        cases h
      · exact hpoint h
    change moment? (body ++ '\n' :: more) = none
    rw [moment?, date?_eq_none (hnotMem rfl (by decide))]
    exact time?_eq_none (hnotMem rfl (by decide)) more

/-! ## The text of a number -/

theorem numeric_eq {cs : List Char} {found : Document × List Char} (hmoment : moment? cs = none)
    (hnamed : namedNumber cs = none) (hpoint : pointNumber cs = some found) :
    numeric cs = some found := by
  rw [numeric, hmoment, hnamed, hpoint]

theorem numeric_pointed (h : IsPointed negative whole places x) (hx : x.isFinite = true)
    (more : List Char) :
    numeric (signChars negative ++ (whole ++ '.' :: places) ++ '\n' :: more)
      = some (.number x, '\n' :: more) := by
  have hbody : ∀ c ∈ whole ++ '.' :: places, c.isDigit = true ∨ c = '.' := fun c hc => by
    rcases List.mem_append.1 hc with hc | hc
    · exact Or.inl (h.whole_isWholePart.digits c hc)
    · rcases List.mem_cons.1 hc with hc | hc
      · exact Or.inr hc
      · exact Or.inl (h.places_digits c hc)
  have hmoment := moment?_append negative hbody more
  rw [List.append_assoc, List.cons_append] at hmoment
  rw [List.append_assoc, List.append_assoc, List.cons_append]
  exact numeric_eq hmoment (namedNumber_append negative h.whole_isWholePart _)
    (pointNumber_pointed h hx more)

theorem decode_infinity (negative : Bool) :
    decode (if negative then -(1.0 / 0.0) else 1.0 / 0.0) = .infinity negative := by
  cases negative <;> decide +kernel

theorem decode_nan : decode (0.0 / 0.0) = .nan := by decide +kernel

theorem numberText_cases (x : Float) :
    (∃ negative whole places, (numberText x).toList = signChars negative ++ (whole ++ '.' :: places) ∧
      IsPointed negative whole places x ∧ x.isFinite = true) ∨
    (∃ negative, (numberText x).toList = signChars negative ++ ['i', 'n', 'f'] ∧
      x = if negative then -(1.0 / 0.0) else 1.0 / 0.0) ∨
    ((numberText x).toList = ['n', 'a', 'n'] ∧ x = 0.0 / 0.0) := by
  by_cases hx : x.isFinite = true
  · rcases exists_spelling hx numberNotation rfl "inf" "nan" with
      ⟨negative, whole, places, htext, h⟩ | ⟨hpositional, -⟩
    · exact Or.inl ⟨negative, whole, places, htext, h, hx⟩
    · exact absurd rfl hpositional
  · have hu := decode_eq x
    refine Or.inr ?_
    rw [numberText, text]
    cases hmodel : x.toModel.unpack with
    | notANumber =>
      rw [hmodel] at hu
      refine Or.inr ⟨?_, eq_of_decode (by rw [hu, decode_nan]; rfl)⟩
      rw [hu]
      rfl
    | infinity s =>
      rw [hmodel] at hu
      refine Or.inl ⟨isNegative s, ?_, eq_of_decode (by rw [hu, decode_infinity]; rfl)⟩
      rw [hu]
      cases s <;> simp [ofUnpacked, isNegative, signChars]
    | zero s => exact absurd (show x.toModel.unpack.isFinite = true by rw [hmodel]; rfl) hx
    | finite s m e hm => exact absurd (show x.toModel.unpack.isFinite = true by rw [hmodel]; rfl) hx

/-- A number is read back from its text, also an infinity and what is no number. -/
theorem numeric_number (x : Float) (more : List Char) :
    numeric ((numberText x).toList ++ '\n' :: more) = some (.number x, '\n' :: more) := by
  rcases numberText_cases x with ⟨negative, whole, places, htext, h, hx⟩ | ⟨negative, htext, hx⟩ |
    ⟨htext, hx⟩
  · rw [htext]
    exact numeric_pointed h hx more
  · rw [htext, hx]
    cases negative <;> simp [signChars, numeric, moment?_of_head, namedNumber, takeSign]
  · rw [htext, hx]
    simp [numeric, moment?_of_head, namedNumber, takeSign]

theorem numeric_integer {n : Int} (hlow : -(2 ^ (63 : Nat)) ≤ n) (hhigh : n < 2 ^ (63 : Nat))
    (more : List Char) :
    numeric ((toString n).toList ++ '\n' :: more) = some (.integer n, '\n' :: more) := by
  have hwhole := isWholePart_toDigits n.natAbs
  rw [toList_integer, List.append_assoc, numeric,
    moment?_append _ (fun c hc => Or.inl (hwhole.digits c hc)), namedNumber_append _ hwhole,
    pointNumber_whole _ hwhole]
  exact wholeNumber_integer hlow hhigh more

end

end Toml
end SpacerTurning
