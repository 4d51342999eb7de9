import SpacerTurning.Document.Json
import SpacerTurning.Proofs.Number.Spelling

/-!
A document in JSON, read again.

Everything comes back that the notation has: what is no finite number is null from then on, and a whole
number of more than 64 bits is rounded.  Reader and writer go through the document in the same way, with
the fuel counting the characters that are left.
-/

namespace SpacerTurning
namespace Json

open Number Binary64

/-! ## Texts -/

theorem hex?_control : ∀ n < 32, hex? ['0', '0', hexDigit (n / 16), hexDigit (n % 16)] = some n := by
  decide

theorem quoted_plain {c : Char} (hquote : c ≠ '"') (hslash : c ≠ '\\') (hcontrol : ¬ c.toNat < 32)
    (rest : List Char) (codes : List Nat) :
    quoted (c :: rest) codes = quoted rest (c.toNat :: codes) := by
  rw [quoted.eq_def]
  split <;> simp_all

/-- Characters that are written as an escape of one letter. -/
def lettered : List Char := ['"', '\\', '\x08', '\x0c', '\n', '\r', '\t']

theorem quoted_escaped_of_lettered {c : Char} (h : c ∈ lettered) (rest : List Char)
    (codes : List Nat) : quoted (escaped c ++ rest) codes = quoted rest (c.toNat :: codes) := by
  simp only [lettered, List.mem_cons, List.not_mem_nil, or_false] at h
  rcases h with rfl | rfl | rfl | rfl | rfl | rfl | rfl <;> simp [escaped, quoted, escape?]

/-- A character is read back from what is written for it. -/
theorem quoted_escaped (c : Char) (rest : List Char) (codes : List Nat) :
    quoted (escaped c ++ rest) codes = quoted rest (c.toNat :: codes) := by
  by_cases hlettered : c ∈ lettered
  · exact quoted_escaped_of_lettered hlettered rest codes
  · simp only [lettered, List.mem_cons, List.not_mem_nil, or_false, not_or] at hlettered
    obtain ⟨hquote, hslash, hback, hfeed, hline, hreturn, htab⟩ := hlettered
    have hescaped : escaped c = if c.toNat < 32 then
        ['\\', 'u', '0', '0', hexDigit (c.toNat / 16), hexDigit (c.toNat % 16)] else [c] := by
      rw [escaped, if_neg hquote, if_neg hslash, if_neg hback, if_neg hfeed, if_neg hline,
        if_neg hreturn, if_neg htab]
    rw [hescaped]
    split
    · next hcontrol => simp [quoted, hex?_control c.toNat hcontrol]
    · next hcontrol => exact quoted_plain hquote hslash hcontrol rest codes

theorem quoted_flatMap (cs rest : List Char) (codes : List Nat) :
    quoted (cs.flatMap escaped ++ '"' :: rest) codes
      = some (codes.reverse ++ cs.map Char.toNat, rest) := by
  induction cs generalizing codes with
  | nil => simp [quoted]
  | cons c cs ih =>
    rw [List.flatMap_cons, List.append_assoc, quoted_escaped, ih]
    simp

theorem not_half (c : Char) : isHighHalf c.toNat = false ∧ isLowHalf c.toNat = false := by
  have hvalid := c.valid
  simp only [UInt32.isValidChar, Nat.isValidChar] at hvalid
  change _ < 55296 ∨ _ at hvalid
  have hnat : c.val.toNat = c.toNat := rfl
  simp only [isHighHalf, isLowHalf, Bool.and_eq_false_iff, decide_eq_false_iff_not]
  omega

theorem ofCodes?_map (cs before : List Char) :
    ofCodes? (cs.map Char.toNat) before = some (String.ofList (before.reverse ++ cs)) := by
  induction cs generalizing before with
  | nil => simp [ofCodes?]
  | cons c cs ih =>
    obtain ⟨hhigh, hlow⟩ := not_half c
    cases cs with
    | nil => simp [ofCodes?, hhigh, hlow]
    | cons d cs => simpa [ofCodes?, hhigh, hlow] using ih (c :: before)

theorem toList_quote (s : String) : (quote s).toList = '"' :: (s.toList.flatMap escaped ++ ['"']) := by
  simp [quote]

/-! ## Numbers -/

/-- What can follow a number: no character of one. -/
def EndsNumber (rest : List Char) : Prop :=
  ∀ c ∈ rest.head?, c.isDigit = false ∧ c ≠ '.' ∧ c ≠ 'e' ∧ c ≠ 'E'

section

variable {whole places ds rest : List Char}

theorem takeDigits_append (hds : AllDigits ds) (hrest : ∀ c ∈ rest.head?, c.isDigit = false) :
    takeDigits (ds ++ rest) = (ds, rest) := by
  rw [takeDigits, Text.takeWhile_append_stop hds hrest, Text.dropWhile_append_stop hds hrest]

theorem takeWhole_append (hwhole : IsWholePart whole) (hrest : ∀ c ∈ rest.head?, c.isDigit = false) :
    takeWhole (whole ++ rest) = some (whole, rest) := by
  rw [takeWhole, takeDigits_append hwhole.digits hrest]
  split
  · next h => exact absurd (Prod.mk.inj h).1 hwhole.ne_nil
  · next h => exact absurd (hwhole.zero _ (Prod.mk.inj h).1) (List.cons_ne_nil _ _)
  · next h => exact congrArg some h.symm

theorem takeFraction_point (hplaces : AllDigits places) (hne : places ≠ [])
    (hrest : ∀ c ∈ rest.head?, c.isDigit = false) :
    takeFraction ('.' :: (places ++ rest)) = some (some places, rest) := by
  rw [takeFraction, takeDigits_append hplaces hrest]
  split
  · next h => exact absurd (Prod.mk.inj h).1 hne
  · next h =>
    obtain ⟨rfl, rfl⟩ := Prod.mk.inj h
    rfl

theorem takeFraction_none (h : ∀ c ∈ rest.head?, c ≠ '.') :
    takeFraction rest = some (none, rest) := by
  unfold takeFraction
  split
  · exact absurd rfl (h _ rfl)
  · rfl

theorem takeExponent_none (h : ∀ c ∈ rest.head?, c ≠ 'e' ∧ c ≠ 'E') :
    takeExponent rest = some (none, rest) := by
  cases rest with
  | nil => rfl
  | cons c cs => rw [takeExponent, if_neg (not_or.2 (h c rfl))]

theorem takeExponent_mark (e : Int) (hrest : ∀ c ∈ rest.head?, c.isDigit = false) :
    takeExponent ('e' :: exponentSign e :: (Nat.toDigits 10 e.natAbs ++ rest)) = some (some e, rest) := by
  have hsign : takeSign (exponentSign e :: (Nat.toDigits 10 e.natAbs ++ rest))
      = (decide (e < 0), Nat.toDigits 10 e.natAbs ++ rest) := by
    unfold exponentSign
    split <;> simp_all [takeSign]
  have hvalue : (if decide (e < 0) = true then -(e.natAbs : Int) else e.natAbs) = e := by
    simp only [decide_eq_true_eq]
    omega
  rw [takeExponent, if_pos (Or.inl rfl), hsign]
  dsimp only
  rw [takeDigits_append (allDigits_toDigits _) hrest]
  split
  · next h => exact absurd (Prod.mk.inj h).1 Nat.toDigits_ne_nil
  · next h =>
    obtain ⟨rfl, rfl⟩ := Prod.mk.inj h
    rw [ofDigits_toDigits, hvalue]

/-- A number is read by its sign and its parts. -/
theorem number_eq {fraction : Option (List Char)} {exponent : Option Int} {body tail behind : List Char}
    (negative : Bool) (hwhole : IsWholePart whole) (hbody : body = whole ++ tail)
    (htail : ∀ c ∈ tail.head?, c.isDigit = false)
    (hfraction : takeFraction tail = some (fraction, behind))
    (hexponent : takeExponent behind = some (exponent, rest)) :
    number (signChars negative ++ body)
      = some (numberDocument negative whole fraction exponent, rest) := by
  have hsplit := takeWhole_append hwhole htail
  cases negative with
  | true =>
    change number ('-' :: body) = _
    simp only [number, hbody, hsplit, hfraction, hexponent, Option.bind_eq_bind, Option.bind_some]
    rfl
  | false =>
    obtain ⟨d, ds, hds⟩ := List.exists_cons_of_ne_nil hwhole.ne_nil
    have hd : d ≠ '-' := (Text.digit_ne (hwhole.digits d (hds ▸ List.mem_cons_self))).2.1
    change number body = _
    unfold number
    split
    next h =>
      split at h
      · rw [hds] at hbody
        exact absurd (List.cons.inj hbody).1.symm hd
      · obtain ⟨rfl, rfl⟩ := Prod.mk.inj h
        simp only [hbody, hsplit, hfraction, hexponent, Option.bind_eq_bind, Option.bind_some]
        rfl

variable {negative : Bool} {x : Float}

theorem number_pointed (h : IsPointed negative whole places x) (hx : x.isFinite = true)
    (hrest : EndsNumber rest) :
    number (signChars negative ++ (whole ++ '.' :: places) ++ rest) = some (.number x, rest) := by
  rw [List.append_assoc, number_eq negative h.whole_isWholePart (List.append_assoc _ _ _) (by simp)
    (takeFraction_point h.places_digits h.places_ne_nil fun c hc => (hrest c hc).1)
    (takeExponent_none fun c hc => (hrest c hc).2.2)]
  have hread := h.read
  simp only [pointed] at hread
  simp only [numberDocument, Option.getD_some, Option.getD_none, hread, inRange, hx, if_pos]

theorem number_scaled {d : Char} {e : Int} (h : IsScaled negative d ds e x) (hx : x.isFinite = true)
    (hrest : EndsNumber rest) :
    number (signChars negative ++ d :: ((if ds = [] then [] else '.' :: ds)
      ++ 'e' :: exponentSign e :: Nat.toDigits 10 e.natAbs) ++ rest) = some (.number x, rest) := by
  have hexponent := takeExponent_mark e fun c hc => (hrest c hc).1
  have hread := h.read
  simp only [pointed] at hread
  rw [List.append_assoc]
  by_cases hds : ds = []
  · subst hds
    rw [number_eq negative (isWholePart_digit h.digit) (by simp) (by simp)
      (takeFraction_none (by simp)) hexponent]
    simp only [List.append_nil, List.length_nil, Nat.cast_zero, sub_zero] at hread
    simp [numberDocument, hread, inRange, hx]
  · rw [if_neg hds, number_eq negative (isWholePart_digit h.digit) (by simp)
      (by simp) (takeFraction_point h.digits hds (by simp)) hexponent]
    simp only [numberDocument, Option.getD_some, hread, inRange, hx, if_pos]

end

/-- What is read for a whole number: the number, as far as 64 bits hold it. -/
def carriedInteger (n : Int) : Document :=
  if -(2 ^ (63 : Nat)) ≤ n ∧ n < 2 ^ (64 : Nat) then .integer n
  else inRange (ofDecimal { negative := decide (n < 0), digits := n.natAbs, exponent := 0 })

theorem number_integer (n : Int) {rest : List Char} (hrest : EndsNumber rest) :
    number ((toString n).toList ++ rest) = some (carriedInteger n, rest) := by
  rw [toList_integer, List.append_assoc, number_eq _ (isWholePart_toDigits n.natAbs) rfl
    (fun c hc => (hrest c hc).1) (takeFraction_none fun c hc => (hrest c hc).2.1)
    (takeExponent_none fun c hc => (hrest c hc).2.2)]
  congr 2
  have hwords : (2 : Nat) ^ (63 : Nat) = 9223372036854775808 ∧
      (2 : Nat) ^ (64 : Nat) = 18446744073709551616 := by decide
  simp only [numberDocument, carriedInteger, ofDigits_toDigits, decide_eq_true_eq]
  split
  · next hneg =>
    have hsize : (-(n.natAbs : Int)) = n := by omega
    rw [if_neg (by omega), hsize]
    split
    · next hle => rw [if_pos (by omega)]
    · next hgt => rw [if_neg (by omega)]
  · next hneg =>
    have hsize : (n.natAbs : Int) = n := by omega
    rw [hsize]
    split
    · next hlt => rw [if_pos (by omega)]
    · next hge => rw [if_neg (by omega)]

/-- A text that is a number as a whole. -/
structure IsNumberText (cs : List Char) (d : Document) : Prop where
  starts : ∃ c tail, cs = c :: tail ∧ (c.isDigit = true ∨ c = '-')
  reads : ∀ rest, EndsNumber rest → number (cs ++ rest) = some (d, rest)

theorem ne_of_start {c k : Char} (hc : c.isDigit = true ∨ c = '-') (hdigit : k.isDigit = false)
    (hminus : k ≠ '-') : c ≠ k := by
  rcases hc with hc | rfl
  · exact Text.ne_of_kind hc hdigit
  · exact hminus.symm

theorem not_blank_of_start {c : Char} (hc : c.isDigit = true ∨ c = '-') : isBlank c = false := by
  have hne {k : Char} (hdigit : k.isDigit = false) (hminus : k ≠ '-') := ne_of_start hc hdigit hminus
  simp [isBlank, hne (k := ' ') rfl, hne (k := '\n') rfl, hne (k := '\t') rfl, hne (k := '\r') rfl]

theorem exists_signChars_cons (negative : Bool) {d : Char} (hd : d.isDigit = true) (ds : List Char) :
    ∃ c tail, signChars negative ++ d :: ds = c :: tail ∧ (c.isDigit = true ∨ c = '-') := by
  cases negative with
  | true => exact ⟨'-', d :: ds, rfl, Or.inr rfl⟩
  | false => exact ⟨d, ds, rfl, Or.inl hd⟩

theorem isNumberText_integer (n : Int) : IsNumberText (toString n).toList (carriedInteger n) where
  starts := by
    obtain ⟨d, ds, hds⟩ := List.exists_cons_of_ne_nil (Nat.toDigits_ne_nil (b := 10) (n := n.natAbs))
    rw [toList_integer, hds]
    exact exists_signChars_cons _ (allDigits_toDigits _ d (hds ▸ List.mem_cons_self)) ds
  reads _ hrest := number_integer n hrest

theorem isNumberText_number {x : Float} (hx : x.isFinite = true) :
    IsNumberText (numberText x).toList (.number x) := by
  rw [numberText, if_pos hx]
  rcases exists_spelling hx numberNotation rfl "null" "null" with
    ⟨negative, whole, places, htext, h⟩ | ⟨-, negative, d, ds, e, htext, h⟩
  · rw [htext]
    refine ⟨?_, fun rest hrest => number_pointed h hx hrest⟩
    obtain ⟨d, ds, hds⟩ := List.exists_cons_of_ne_nil h.whole_isWholePart.ne_nil
    rw [hds]
    exact exists_signChars_cons _ (h.whole_isWholePart.digits d (hds ▸ List.mem_cons_self)) _
  · rw [htext]
    exact ⟨exists_signChars_cons _ h.digit _, fun rest hrest => number_scaled h hx hrest⟩

theorem value_number {cs rest : List Char} {d : Document} (h : IsNumberText cs d)
    (hrest : EndsNumber rest) (fuel : Nat) : value (fuel + 1) (cs ++ rest) = some (d, rest) := by
  have hreads := h.reads rest hrest
  obtain ⟨c, tail, rfl, hc⟩ := h.starts
  simp only [value, List.cons_append, List.dropWhile_cons, not_blank_of_start hc, Bool.false_eq_true,
    if_false]
  split
  all_goals first
    | next heq => exact absurd (List.cons.inj heq).1 (ne_of_start hc (by decide) (by decide))
    | exact hreads

/-! ## Documents -/

mutual

/-- What is read of a document that was written. -/
def carried : Document → Document
  | .integer n => carriedInteger n
  | .number x => if x.isFinite then .number x else .null
  | .list items => .list (carriedItems items)
  | .table entries => .table (carriedEntries entries)
  | .beyond => .null
  | .null => .null
  | .bool b => .bool b
  | .text s => .text s

def carriedItems : List Document → List Document
  | [] => []
  | d :: rest => carried d :: carriedItems rest

def carriedEntries : List (String × Document) → List (String × Document)
  | [] => []
  | (name, d) :: rest => (name, carried d) :: carriedEntries rest

end

theorem dropWhile_newLine (depth : Nat) (cs : List Char) :
    ((newLine depth).toList ++ cs).dropWhile isBlank = cs.dropWhile isBlank := by
  have hblank : ∀ c ∈ (newLine depth).toList, isBlank c = true := by
    simp +contextual [newLine, isBlank, or_imp, List.mem_replicate]
  exact List.dropWhile_append_of_pos hblank

theorem value_eq_of_dropWhile {a b : List Char} (h : a.dropWhile isBlank = b.dropWhile isBlank)
    (fuel : Nat) : value fuel a = value fuel b := by
  cases fuel with
  | zero => simp only [value]
  | succ fuel => simp only [value, h]

theorem items_eq_of_dropWhile {a b : List Char} (h : a.dropWhile isBlank = b.dropWhile isBlank)
    (fuel : Nat) (before : List Document) : items fuel a before = items fuel b before := by
  cases fuel with
  | zero => simp only [items]
  | succ fuel => simp only [items, value_eq_of_dropWhile h]

theorem entries_eq_of_dropWhile {a b : List Char} (h : a.dropWhile isBlank = b.dropWhile isBlank)
    (fuel : Nat) (before : Entries) : entries fuel a before = entries fuel b before := by
  cases fuel with
  | zero => simp only [entries]
  | succ fuel => simp only [entries, key, h]

theorem key_quote (name : String) (rest : List Char) :
    key ((quote name).toList ++ ':' :: rest) = some (some name, rest) := by
  rw [toList_quote, List.cons_append, key]
  simp [isBlank, quoted_flatMap, ofCodes?_map]

theorem exists_textAt_cons (depth : Nat) (d : Document) :
    ∃ c cs, (textAt depth d).toList = c :: cs ∧ isBlank c = false ∧ c ≠ ']' := by
  have hnumber {cs : List Char} {d : Document} (h : IsNumberText cs d) :
      ∃ c tail, cs = c :: tail ∧ isBlank c = false ∧ c ≠ ']' := by
    obtain ⟨c, tail, rfl, hc⟩ := h.starts
    exact ⟨c, tail, rfl, not_blank_of_start hc, ne_of_start hc (by decide) (by decide)⟩
  cases d with
  | null => exact ⟨'n', ['u', 'l', 'l'], by simp [textAt], rfl, by decide⟩
  | bool b =>
    cases b with
    | true => exact ⟨'t', ['r', 'u', 'e'], by simp [textAt], rfl, by decide⟩
    | false => exact ⟨'f', ['a', 'l', 's', 'e'], by simp [textAt], rfl, by decide⟩
  | integer n => exact hnumber (isNumberText_integer n)
  | number x =>
    by_cases hx : x.isFinite = true
    · exact hnumber (isNumberText_number hx)
    · simp only [textAt, numberText, if_neg hx]
      exact ⟨'n', _, rfl, rfl, by decide⟩
  | text s => exact ⟨'"', _, toList_quote s, rfl, by decide⟩
  | list items => cases items <;> exact ⟨'[', _, by simp [textAt]; rfl, rfl, by decide⟩
  | table entries => cases entries <;> exact ⟨'\x7b', _, by simp [textAt]; rfl, rfl, by decide⟩
  | beyond => exact ⟨'n', ['u', 'l', 'l'], by simp [textAt], rfl, by decide⟩

theorem endsNumber_newLine (depth : Nat) (rest : List Char) :
    EndsNumber ((newLine depth).toList ++ rest) := by
  simp [newLine, EndsNumber]

theorem endsNumber_itemsText (depth below : Nat) (ds : List Document) (rest : List Char) :
    EndsNumber ((itemsText depth ds).toList ++ ((newLine below).toList ++ rest)) := by
  cases ds with
  | nil => simpa [itemsText] using endsNumber_newLine below rest
  | cons d ds => simp [itemsText, EndsNumber]

theorem endsNumber_entriesText (depth below : Nat) (es : List (String × Document)) (rest : List Char) :
    EndsNumber ((entriesText depth es).toList ++ ((newLine below).toList ++ rest)) := by
  cases es with
  | nil => simpa [entriesText] using endsNumber_newLine below rest
  | cons e es => simp [entriesText, EndsNumber]

theorem textAt_pos (depth : Nat) (d : Document) : 0 < (textAt depth d).toList.length := by
  obtain ⟨c, cs, hcs, -⟩ := exists_textAt_cons depth d
  simp [hcs]

section

variable {fuel : Nat} {cs : List Char} {c : Char} {tail : List Char}

theorem value_bracket (h : cs.dropWhile isBlank = c :: tail) (hclose : c ≠ ']') :
    value (fuel + 1) ('[' :: cs) = items fuel (c :: tail) [] := by
  have hblank : isBlank '[' = false := rfl
  simp only [value, List.dropWhile_cons, hblank, Bool.false_eq_true, if_false, h]
  split
  · next heq => exact absurd (List.cons.inj heq).1 hclose
  · rfl

theorem value_brace (h : cs.dropWhile isBlank = c :: tail) (hclose : c ≠ '\x7d') :
    value (fuel + 1) ('\x7b' :: cs) = entries fuel (c :: tail) (some []) := by
  have hblank : isBlank '\x7b' = false := rfl
  simp only [value, List.dropWhile_cons, hblank, Bool.false_eq_true, if_false, h]
  split
  · next heq => exact absurd (List.cons.inj heq).1 hclose
  · rfl

end

/-- With this fuel every document is read back whose text has as many characters at most. -/
def ReadsValues (fuel : Nat) : Prop :=
  ∀ (depth : Nat) (d : Document) (rest : List Char), (textAt depth d).toList.length ≤ fuel →
    EndsNumber rest → value fuel ((textAt depth d).toList ++ rest) = some (carried d, rest)

def ReadsItems (fuel : Nat) : Prop :=
  ∀ (depth below : Nat) (d : Document) (ds before : List Document) (rest : List Char),
    (textAt depth d).toList.length + (itemsText depth ds).toList.length < fuel →
    items fuel ((textAt depth d).toList ++ ((itemsText depth ds).toList
        ++ ((newLine below).toList ++ ']' :: rest))) before
      = some (.list (before.reverse ++ carried d :: carriedItems ds), rest)

def ReadsEntries (fuel : Nat) : Prop :=
  ∀ (depth below : Nat) (name : String) (d : Document) (es before : List (String × Document))
    (rest : List Char),
    (textAt depth d).toList.length + (entriesText depth es).toList.length < fuel →
    entries fuel ((quote name).toList ++ ':' :: ' ' :: ((textAt depth d).toList
        ++ ((entriesText depth es).toList ++ ((newLine below).toList ++ '\x7d' :: rest)))) (some before)
      = some (.table (before.reverse ++ (name, carried d) :: carriedEntries es), rest)

theorem ReadsItems.readsValues {fuel : Nat} (hitems : ReadsItems fuel) (hentries : ReadsEntries fuel) :
    ReadsValues (fuel + 1) := by
  intro depth d rest h hrest
  cases d with
  | null => simp [textAt, value, word, carried, isBlank]
  | bool b => cases b <;> simp [textAt, value, word, carried, isBlank]
  | beyond => simp [textAt, value, word, carried, isBlank]
  | integer n =>
    simp only [textAt, carried]
    exact value_number (isNumberText_integer n) hrest fuel
  | number x =>
    by_cases hx : x.isFinite = true
    · simp only [textAt, carried, if_pos hx]
      exact value_number (isNumberText_number hx) hrest fuel
    · simp [textAt, numberText, hx, value, word, carried, isBlank]
  | text s => simp [textAt, toList_quote, value, quoted_flatMap, ofCodes?_map, carried, isBlank]
  | list items =>
    cases items with
    | nil => simp [textAt, value, carried, carriedItems, isBlank]
    | cons d ds =>
      obtain ⟨c, cs, hcs, hblank, hclose⟩ := exists_textAt_cons (depth + 1) d
      have hread := hitems (depth + 1) depth d ds [] rest (by
        simp [textAt] at h
        omega)
      rw [hcs] at hread
      have htext : (textAt depth (.list (d :: ds))).toList ++ rest
          = '[' :: ((newLine (depth + 1)).toList ++ ((c :: cs) ++ ((itemsText (depth + 1) ds).toList
            ++ ((newLine depth).toList ++ ']' :: rest)))) := by
        simp [textAt, hcs]
      have hblanks := dropWhile_newLine (depth + 1) ((c :: cs) ++ ((itemsText (depth + 1) ds).toList
        ++ ((newLine depth).toList ++ ']' :: rest)))
      rw [List.cons_append, List.dropWhile_cons_of_neg (by simp [hblank])] at hblanks
      rw [htext, List.cons_append, value_bracket hblanks hclose]
      exact hread
  | table entries =>
    cases entries with
    | nil => simp [textAt, value, carried, carriedEntries, isBlank]
    | cons e es =>
      obtain ⟨name, d⟩ := e
      have hread := hentries (depth + 1) depth name d es [] rest (by
        simp [textAt] at h
        omega)
      have htext : (textAt depth (.table ((name, d) :: es))).toList ++ rest
          = '\x7b' :: ((newLine (depth + 1)).toList ++ ((quote name).toList ++ ':' :: ' '
            :: ((textAt (depth + 1) d).toList ++ ((entriesText (depth + 1) es).toList
              ++ ((newLine depth).toList ++ '\x7d' :: rest))))) := by
        simp [textAt]
      have hblanks := dropWhile_newLine (depth + 1) ((quote name).toList ++ ':' :: ' '
            :: ((textAt (depth + 1) d).toList ++ ((entriesText (depth + 1) es).toList
              ++ ((newLine depth).toList ++ '\x7d' :: rest))))
      rw [toList_quote, List.cons_append] at hread htext hblanks
      rw [List.dropWhile_cons_of_neg (by decide)] at hblanks
      rw [htext, value_brace hblanks (by decide)]
      exact hread

theorem ReadsValues.readsItems {fuel : Nat} (hvalues : ReadsValues fuel) (hitems : ReadsItems fuel) :
    ReadsItems (fuel + 1) := by
  intro depth below d ds before rest h
  have hvalue := hvalues depth d _ (by omega) (endsNumber_itemsText depth below ds (']' :: rest))
  cases ds with
  | nil =>
    rw [items, hvalue]
    dsimp only
    rw [itemsText, String.toList_empty, List.nil_append, dropWhile_newLine,
      List.dropWhile_cons_of_neg (by decide)]
    simp [carriedItems]
  | cons d' ds =>
    have htext (behind : List Char) : (itemsText depth (d' :: ds)).toList ++ behind
        = ',' :: ((newLine depth).toList ++ ((textAt depth d').toList
          ++ ((itemsText depth ds).toList ++ behind))) := by
      simp [itemsText]
    have hread := hitems depth below d' ds (carried d :: before) rest (by
      simp [itemsText] at h
      omega)
    rw [items, hvalue]
    dsimp only
    rw [htext, List.dropWhile_cons_of_neg (by decide)]
    change items fuel _ (carried d :: before) = _
    rw [items_eq_of_dropWhile (dropWhile_newLine depth _), hread]
    simp [carriedItems]

theorem ReadsValues.readsEntries {fuel : Nat} (hvalues : ReadsValues fuel) (hentries : ReadsEntries fuel) :
    ReadsEntries (fuel + 1) := by
  intro depth below name d es before rest h
  have hvalue := hvalues depth d _ (by omega) (endsNumber_entriesText depth below es ('\x7d' :: rest))
  have hblank (behind : List Char) : value fuel (' ' :: behind) = value fuel behind :=
    value_eq_of_dropWhile (List.dropWhile_cons_of_pos (by decide)) fuel
  cases es with
  | nil =>
    rw [entries, key_quote]
    dsimp only
    rw [hblank, hvalue]
    dsimp only
    rw [entriesText, String.toList_empty, List.nil_append, dropWhile_newLine,
      List.dropWhile_cons_of_neg (by decide)]
    simp [carriedEntries, Entries.add, Entries.table]
  | cons e es =>
    obtain ⟨name', d'⟩ := e
    have htext (behind : List Char) : (entriesText depth ((name', d') :: es)).toList ++ behind
        = ',' :: ((newLine depth).toList ++ ((quote name').toList ++ ':' :: ' '
          :: ((textAt depth d').toList ++ ((entriesText depth es).toList ++ behind)))) := by
      simp [entriesText]
    have hread := hentries depth below name' d' es ((name, carried d) :: before) rest (by
      simp [entriesText] at h
      omega)
    rw [entries, key_quote]
    dsimp only
    rw [hblank, hvalue]
    dsimp only
    rw [htext, List.dropWhile_cons_of_neg (by decide)]
    change entries fuel _ (some ((name, carried d) :: before)) = _
    rw [entries_eq_of_dropWhile (dropWhile_newLine depth _)]
    refine Eq.trans hread ?_
    simp [carriedEntries]

/-- A value with other values in it is read with less fuel than there is for the whole. -/
theorem reads (fuel : Nat) : ReadsValues fuel ∧ ReadsItems fuel ∧ ReadsEntries fuel := by
  induction fuel with
  | zero =>
    exact ⟨fun depth d _ h _ => absurd h (not_le.2 (textAt_pos depth d)),
      fun _ _ _ _ _ _ h => absurd h (Nat.not_lt_zero _),
      fun _ _ _ _ _ _ _ h => absurd h (Nat.not_lt_zero _)⟩
  | succ fuel ih =>
    obtain ⟨hvalues, hitems, hentries⟩ := ih
    exact ⟨hitems.readsValues hentries, hvalues.readsItems hitems, hvalues.readsEntries hentries⟩

/-- What has been written is read again, as far as the notation has it. -/
theorem read_write (d : Document) : read (write d) = some (carried d) := by
  have h := (reads ((write d).toList.length + 1)).1 0 d [] (Nat.le_succ _) (by simp [EndsNumber])
  rw [List.append_nil] at h
  unfold read
  dsimp only
  rw [show value ((write d).toList.length + 1) (write d).toList = _ from h]
  rfl

end Json
end SpacerTurning
