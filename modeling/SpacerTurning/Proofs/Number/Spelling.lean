import SpacerTurning.Proofs.Number.Machine
import SpacerTurning.Proofs.Number.Shortest

/-!
Written forms of machine numbers.

A written form has its digits around a point, and perhaps an exponent behind them.  Both forms stand for
the value of the digits they are made of, so a reader that puts the digits together again gets the number
back.
-/

namespace SpacerTurning
namespace Number

/-- Digits before a point: a zero alone, or some that start with another one. -/
structure IsWholePart (ds : List Char) : Prop where
  digits : AllDigits ds
  ne_nil : ds ≠ []
  zero : ∀ rest, ds = '0' :: rest → rest = []

theorem isWholePart_zero : IsWholePart ['0'] where
  digits := by simp [AllDigits]
  ne_nil := List.cons_ne_nil _ _
  zero := by simp

theorem isWholePart_digit {d : Char} (hd : d.isDigit = true) : IsWholePart [d] where
  digits := by simpa [AllDigits] using hd
  ne_nil := List.cons_ne_nil _ _
  zero := by simp

theorem head_toDigits {n : Nat} (hpos : 0 < n) (rest : List Char) : Nat.toDigits 10 n ≠ '0' :: rest := by
  induction n using Nat.strongRecOn generalizing rest with
  | ind n ih =>
    by_cases hsmall : n < 10
    · rw [Nat.toDigits_of_lt_base hsmall]
      intro h
      have := Nat.digitChar_eq_zero.1 (List.cons.inj h).1
      omega
    · rw [Nat.toDigits_of_base_le (by decide) (by omega)]
      obtain ⟨d, ds, hds⟩ := List.exists_cons_of_ne_nil (Nat.toDigits_ne_nil (b := 10) (n := n / 10))
      intro h
      rw [hds, List.cons_append] at h
      exact ih (n / 10) (by omega) (by omega) ds (by rw [hds, (List.cons.inj h).1])

theorem isWholePart_append {n : Nat} (hpos : 0 < n) {ds : List Char} (hds : AllDigits ds) :
    IsWholePart (Nat.toDigits 10 n ++ ds) where
  digits := (allDigits_toDigits n).append hds
  ne_nil := List.append_ne_nil_of_left_ne_nil Nat.toDigits_ne_nil ds
  zero rest h := by
    obtain ⟨c, cs, hcs⟩ := List.exists_cons_of_ne_nil (Nat.toDigits_ne_nil (b := 10) (n := n))
    rw [hcs, List.cons_append] at h
    exact absurd (hcs.trans (by rw [(List.cons.inj h).1])) (head_toDigits hpos cs)

theorem isWholePart_toDigits (n : Nat) : IsWholePart (Nat.toDigits 10 n) := by
  rcases Nat.eq_zero_or_pos n with rfl | hpos
  · exact isWholePart_zero
  · have hnil : AllDigits [] := by simp [AllDigits]
    simpa using isWholePart_append hpos hnil

theorem allDigits_replicate (n : Nat) : AllDigits (List.replicate n '0') := fun c hc => by
  rw [List.eq_of_mem_replicate hc]
  decide

/-- The decimal that digits around a point, scaled by a power of ten, stand for. -/
def pointed (negative : Bool) (whole places : List Char) (e : Int) : Decimal :=
  { negative, digits := ofDigits (whole ++ places), exponent := e - places.length }

namespace Binary64

/-! ## Digits around a point -/

/-- Digits with a point among them that stand for a value. -/
structure IsSpelling (whole places : List Char) (v : Rat) : Prop where
  whole_isWholePart : IsWholePart whole
  places_digits : AllDigits places
  places_ne_nil : places ≠ []
  value (negative : Bool) : valueOf (pointed negative whole places 0) = v

section

variable {n p : Nat}

/-- Zeros stand between the digits and the point. -/
theorem isSpelling_zeros (hpos : 0 < n) (j : Nat) :
    IsSpelling (Nat.toDigits 10 n ++ List.replicate j '0') ['0'] (n * 10 ^ (j : Int)) where
  whole_isWholePart := isWholePart_append hpos (allDigits_replicate j)
  places_digits := by simp [AllDigits]
  places_ne_nil := List.cons_ne_nil _ _
  value _ := by
    have hall : ofDigits (Nat.toDigits 10 n ++ List.replicate j '0' ++ ['0']) = n * 10 ^ (j + 1) := by
      rw [List.append_assoc, ← List.replicate_succ', ofDigits_append, ofDigits_replicate_zero,
        List.length_replicate, ofDigits_toDigits, Nat.add_zero]
    have hten : (10 : Rat) ^ (0 - (['0'].length : Int)) = 10⁻¹ := by norm_num
    simp only [valueOf, pointed, hall, hten, zpow_natCast]
    push_cast
    rw [pow_succ, mul_assoc, mul_assoc, mul_inv_cancel₀ (by norm_num), mul_one]

theorem isWholePart_take (hpos : 0 < n) (hp : 0 < p) : IsWholePart ((Nat.toDigits 10 n).take p) where
  digits c hc := allDigits_toDigits n c (List.mem_of_mem_take hc)
  ne_nil h := by
    rcases List.take_eq_nil_iff.1 h with hzero | hnil
    · exact hp.ne' hzero
    · exact Nat.toDigits_ne_nil hnil
  zero rest h := by
    refine absurd ?_ (head_toDigits hpos (rest ++ (Nat.toDigits 10 n).drop p))
    rw [← List.cons_append, ← h, List.take_append_drop]

/-- The point stands among the digits. -/
theorem isSpelling_split (hpos : 0 < n) (hp : 0 < p) (hlength : p < (Nat.toDigits 10 n).length) :
    IsSpelling ((Nat.toDigits 10 n).take p) ((Nat.toDigits 10 n).drop p)
      (n * 10 ^ (p - (Nat.toDigits 10 n).length : Int)) where
  whole_isWholePart := isWholePart_take hpos hp
  places_digits c hc := allDigits_toDigits n c (List.mem_of_mem_drop hc)
  places_ne_nil h := by
    rw [List.drop_eq_nil_iff] at h
    omega
  value _ := by
    have hexponent : (0 : Int) - ((Nat.toDigits 10 n).drop p).length
        = p - (Nat.toDigits 10 n).length := by
      rw [List.length_drop]
      omega
    rw [valueOf, pointed, List.take_append_drop, ofDigits_toDigits, hexponent]

/-- Zeros stand between the point and the digits. -/
theorem isSpelling_leading (n j : Nat) :
    IsSpelling ['0'] (List.replicate j '0' ++ Nat.toDigits 10 n)
      (n * 10 ^ (-(j + (Nat.toDigits 10 n).length) : Int)) where
  whole_isWholePart := isWholePart_zero
  places_digits := (allDigits_replicate j).append (allDigits_toDigits n)
  places_ne_nil := List.append_ne_nil_of_right_ne_nil _ Nat.toDigits_ne_nil
  value _ := by
    have hall : ofDigits ('0' :: (List.replicate j '0' ++ Nat.toDigits 10 n)) = n := by
      rw [← List.cons_append, ← List.replicate_succ, ofDigits_append, ofDigits_replicate_zero,
        ofDigits_toDigits, Nat.zero_mul, Nat.zero_add]
    have hexponent : (0 : Int) - (List.replicate j '0' ++ Nat.toDigits 10 n).length
        = -(j + (Nat.toDigits 10 n).length) := by
      rw [List.length_append, List.length_replicate]
      omega
    rw [valueOf, pointed, List.singleton_append, hall, hexponent]

theorem exists_positionalText (hpos : 0 < n) (k : Int) :
    ∃ whole places, positionalText ".0" n k = whole ++ '.' :: places ∧
      IsSpelling whole places (n * 10 ^ k) := by
  unfold positionalText
  dsimp only
  split
  · next hk =>
    obtain ⟨j, rfl⟩ := Int.eq_ofNat_of_zero_le hk
    exact ⟨_, _, rfl, isSpelling_zeros hpos j⟩
  · next hk =>
    split
    · next hpoint =>
      obtain ⟨p, hp⟩ := Int.eq_ofNat_of_zero_le hpoint.le
      have hk' : k = p - (Nat.toDigits 10 n).length := by omega
      rw [hp, Int.toNat_natCast, hk']
      exact ⟨_, _, rfl, isSpelling_split hpos (by omega) (by omega)⟩
    · next hpoint =>
      obtain ⟨j, hj⟩ : ∃ j : Nat, -((Nat.toDigits 10 n).length + k) = j :=
        ⟨(-((Nat.toDigits 10 n).length + k)).toNat, by omega⟩
      have hk' : k = -(j + (Nat.toDigits 10 n).length) := by omega
      rw [hj, Int.toNat_natCast, hk']
      exact ⟨['0'], _, rfl, isSpelling_leading n j⟩

end

/-- The sign of an exponent, which is always written. -/
def exponentSign (e : Int) : Char := if e < 0 then '-' else '+'

theorem exists_exponentText (n : Nat) (k : Int) :
    ∃ d ds e, exponentText n k = d :: ((if ds = [] then [] else '.' :: ds)
        ++ 'e' :: exponentSign e :: Nat.toDigits 10 e.natAbs) ∧ d.isDigit = true ∧ AllDigits ds ∧
      ∀ negative, valueOf (pointed negative [d] ds e) = n * 10 ^ k := by
  obtain ⟨d, ds, hds⟩ := List.exists_cons_of_ne_nil (Nat.toDigits_ne_nil (b := 10) (n := n))
  have hdigits : AllDigits (d :: ds) := hds ▸ allDigits_toDigits n
  refine ⟨d, ds, k + ds.length, ?_, hdigits d List.mem_cons_self,
    fun c hc => hdigits c (List.mem_cons_of_mem d hc), fun _ => ?_⟩
  · simp only [exponentText, hds]
    rfl
  · have hall : ofDigits (d :: ds) = n := hds ▸ ofDigits_toDigits n
    simp only [valueOf, pointed, List.singleton_append, hall, add_sub_cancel_right]

/-! ## The number that is read -/

/-- A minus sign, if there is one. -/
def signChars (negative : Bool) : List Char := if negative then ['-'] else []

theorem toList_integer (n : Int) :
    (toString n).toList = signChars (decide (n < 0)) ++ Nat.toDigits 10 n.natAbs := by
  rw [Int.toString_eq_repr, Int.repr_eq_if]
  split
  · next h =>
    have hsize : n.toNat = n.natAbs := by omega
    rw [decide_eq_false (by omega), Nat.toList_repr, hsize]
    rfl
  · next h =>
    have hsize : (-n).toNat = n.natAbs := by omega
    rw [decide_eq_true (by omega), String.toList_append, Nat.toList_repr, hsize]
    rfl

/-- Digits with a point among them that are read as a machine number. -/
structure IsPointed (negative : Bool) (whole places : List Char) (x : Float) : Prop where
  whole_isWholePart : IsWholePart whole
  places_digits : AllDigits places
  places_ne_nil : places ≠ []
  read : ofDecimal (pointed negative whole places 0) = x

/-- Digits with a point behind the first one and an exponent that are read as a machine number. -/
structure IsScaled (negative : Bool) (d : Char) (ds : List Char) (e : Int) (x : Float) : Prop where
  digit : d.isDigit = true
  digits : AllDigits ds
  read : ofDecimal (pointed negative [d] ds e) = x

theorem ofUnpacked_injective : Function.Injective ofUnpacked := by
  intro u v h
  rcases u with s | _ | s | ⟨s, m, e, hm⟩ <;> rcases v with t | _ | t | ⟨t, m', e', hm'⟩ <;>
    simp only [ofUnpacked, Binary64.infinity.injEq, Binary64.finite.injEq, reduceCtorEq] at h
  · cases s <;> cases t <;> first | rfl | cases h
  · rfl
  · cases s <;> cases t <;> first | rfl | cases h.1
  · omega
  · omega
  · obtain ⟨hs, rfl, rfl⟩ := h
    cases s <;> cases t <;> first | rfl | cases hs

/-- Machine numbers that stand for the same are the same. -/
theorem eq_of_decode {x y : Float} (h : decode x = decode y) : x = y := by
  rw [decode_eq, decode_eq] at h
  exact eq_of_toModel (by rw [toModel_eq_pack x, toModel_eq_pack y, ofUnpacked_injective h])

theorem read_zero (negative : Bool) :
    decode (ofDecimal (pointed negative ['0'] ['0'] 0)) = .finite negative 0 leastExponent := by
  cases negative <;> decide +kernel

theorem read_digits {x : Float} {negative : Bool} {m : Nat} {e k : Int} {whole places : List Char}
    (hm : 0 < m) (hx : decode x = .finite negative m e) (tie : Tie)
    (h : valueOf (pointed negative whole places k)
      = (shortestDigits tie m e (isNarrow m e)).1
        * 10 ^ (shortestDigits tie m e (isNarrow m e)).2) :
    ofDecimal (pointed negative whole places k) = x := by
  obtain ⟨s, -, hu⟩ := exists_unpack_of_decode hm hx
  exact ofDecimal_of_roundsTo hm hx (h ▸ roundsTo_shortestDigits (canonical_of_unpack hu) tie)

theorem digits_pos {m : Nat} {e : Int} (hm : Canonical m e) (tie : Tie) :
    0 < (shortestDigits tie m e (isNarrow m e)).1 := by
  have hpos := (roundsTo_shortestDigits hm tie).pos hm
  by_contra hzero
  rw [Nat.eq_zero_of_not_pos hzero, Nat.cast_zero, zero_mul] at hpos
  exact lt_irrefl _ hpos

theorem text_cases (form : Notation) (n : Nat) (k : Int) :
    form.text n k = positionalText form.wholeMark n k ∨
      (form.positional ≠ none ∧ form.text n k = exponentText n k) := by
  cases hpositional : form.positional with
  | none => exact Or.inl (by rw [Notation.text, hpositional, if_pos rfl])
  | some range =>
    simp only [Notation.text, hpositional]
    split
    · exact Or.inl rfl
    · exact Or.inr ⟨Option.some_ne_none range, rfl⟩

section

variable {x : Float} {negative : Bool} {m : Nat} {e : Int}

theorem toList_signed (negative : Bool) (body : List Char) :
    (String.ofList (if negative then '-' :: body else body)).toList = signChars negative ++ body := by
  cases negative with
  | true => rw [if_pos rfl, String.toList_ofList, signChars, if_pos rfl, List.singleton_append]
  | false => rw [if_neg (by decide), String.toList_ofList, signChars, if_neg (by decide), List.nil_append]

theorem toList_text_zero (hx : decode x = .finite negative 0 e) (form : Notation)
    (infinityName nanName : String) : (text form infinityName nanName x).toList
      = signChars negative ++ '0' :: form.wholeMark.toList := by
  simp only [text, hx, if_true]
  exact toList_signed _ _

theorem toList_text (hx : decode x = .finite negative m e) (hm : 0 < m) (form : Notation)
    (infinityName nanName : String) : (text form infinityName nanName x).toList
      = signChars negative ++ form.text (shortestDigits form.tie m e (isNarrow m e)).1
        (shortestDigits form.tie m e (isNarrow m e)).2 := by
  simp only [text, hx, if_neg hm.ne']
  exact toList_signed _ _

theorem exponent_of_zero (hx : decode x = .finite negative 0 e) : e = leastExponent := by
  rw [decode_eq] at hx
  generalize x.toModel.unpack = u at hx
  rcases u with _ | _ | _ | ⟨_, m, _, hm⟩
  · cases hx
  · cases hx
  · exact (Binary64.finite.inj hx).2.2.symm
  · exact absurd (Binary64.finite.inj hx).2.1 hm.ne'

theorem isPointed_zero (hx : decode x = .finite negative 0 e) : IsPointed negative ['0'] ['0'] x where
  whole_isWholePart := isWholePart_zero
  places_digits := by simp [AllDigits]
  places_ne_nil := List.cons_ne_nil _ _
  read := eq_of_decode (by rw [hx, read_zero, exponent_of_zero hx])

/-- A finite number is written around a point, or with an exponent if the notation has any. -/
theorem exists_spelling (hx : x.isFinite = true) (form : Notation)
    (hmark : form.wholeMark = ".0") (infinityName nanName : String) :
    (∃ negative whole places, (text form infinityName nanName x).toList
        = signChars negative ++ (whole ++ '.' :: places) ∧ IsPointed negative whole places x) ∨
    (form.positional ≠ none ∧ ∃ negative d ds e, (text form infinityName nanName x).toList
        = signChars negative ++ d :: ((if ds = [] then [] else '.' :: ds)
          ++ 'e' :: exponentSign e :: Nat.toDigits 10 e.natAbs) ∧ IsScaled negative d ds e x) := by
  obtain ⟨s, m, e, hdecode⟩ := exists_decode_of_isFinite hx
  generalize isNegative s = negative at hdecode
  rcases Nat.eq_zero_or_pos m with rfl | hm
  · refine Or.inl ⟨negative, ['0'], ['0'], ?_, isPointed_zero hdecode⟩
    rw [toList_text_zero hdecode, hmark]
    rfl
  · obtain ⟨s, -, hu⟩ := exists_unpack_of_decode hm hdecode
    have hpos := digits_pos (canonical_of_unpack hu) form.tie
    have hread {whole places : List Char} {k : Int}
        (h : valueOf (pointed negative whole places k)
          = (shortestDigits form.tie m e (isNarrow m e)).1
            * 10 ^ (shortestDigits form.tie m e (isNarrow m e)).2) :
        ofDecimal (pointed negative whole places k) = x := read_digits hm hdecode form.tie h
    rw [toList_text hdecode hm]
    generalize (shortestDigits form.tie m e (isNarrow m e)).1 = n at hpos hread ⊢
    generalize (shortestDigits form.tie m e (isNarrow m e)).2 = k at hread ⊢
    rcases text_cases form n k with hform | ⟨hpositional, hform⟩
    · obtain ⟨whole, places, htext, h⟩ := exists_positionalText hpos k
      refine Or.inl ⟨negative, whole, places, ?_, h.whole_isWholePart, h.places_digits, h.places_ne_nil,
        hread (h.value negative)⟩
      rw [hform, hmark, htext]
    · obtain ⟨d, ds, e', htext, hd, hds, hvalue⟩ := exists_exponentText n k
      refine Or.inr ⟨hpositional, negative, d, ds, e', ?_, hd, hds, hread (hvalue negative)⟩
      rw [hform, htext]

end

end Binary64
end Number
end SpacerTurning
