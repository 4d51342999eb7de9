import SpacerTurning.Document.Toml.Scalar
import SpacerTurning.Document.Toml.Write
import SpacerTurning.Proofs.Text.Digits

/-!
Texts in TOML, read again.

Whichever quotes a text gets, it comes back.  Between double quotes a character stands for itself or
behind a backslash.  In a text of several lines the quotes at its end stand directly before those that
close it; there are two of them at most, so the closing ones are the last three.
-/

namespace SpacerTurning
namespace Toml

theorem isPrintable_iff {c : Char} :
    isPrintable c = true ↔ c = '\t' ∨ (32 ≤ c.toNat ∧ c.toNat ≠ 127) := by
  simp [isPrintable]

/-! ## Double quotes -/

/-- How a character stands between double quotes, and how many quotes stand in a row behind it. -/
inductive Stands (allowed : Nat) (long : Bool) (run : Nat) : Char → List Char → Nat → Prop where
  | quote (h : run < allowed) : Stands allowed long run '"' ['"'] (run + 1)
  | feed (h : long = true) : Stands allowed long run '\n' ['\n'] 0
  | plain {c : Char} (h : isPrintable c = true) (hquote : c ≠ '"') (hslash : c ≠ '\\') :
    Stands allowed long run c [c] 0
  | escaped {c e : Char} {es : List Char} (h : ∀ rest, escaped (e :: (es ++ rest)) = some (c, rest))
    (he : isPrintable e = true ∧ isBlank e = false) : Stands allowed long run c ('\\' :: e :: es) 0

theorem hex?_control : ∀ n < 128, (n < 32 ∨ n = 127) →
    (Json.hex? ['0', '0', hexDigit (n / 16), hexDigit (n % 16)]).bind charOf? = some (Char.ofNat n) := by
  decide +kernel

theorem exists_stands (allowed : Nat) (long : Bool) (run : Nat) (c : Char) :
    ∃ text next, Stands allowed long run c text next ∧
      ∀ cs, basicBody allowed long run (c :: cs) = text ++ basicBody allowed long next cs := by
  -- The marks of a character that is written as one letter behind a backslash.
  have hletter {e : Char} (he : isPrintable e = true ∧ isBlank e = false)
      (h : ∀ rest, escaped (e :: rest) = some (c, rest))
      (hbody : ∀ cs, basicBody allowed long run (c :: cs) = '\\' :: e :: basicBody allowed long 0 cs) :
      ∃ text next, Stands allowed long run c text next ∧
        ∀ cs, basicBody allowed long run (c :: cs) = text ++ basicBody allowed long next cs :=
    have hstands : Stands allowed long run c ['\\', e] 0 := .escaped h he
    ⟨_, _, hstands, hbody⟩
  by_cases hquote : c = '"'
  · subst hquote
    by_cases hrun : run < allowed
    · exact ⟨_, _, .quote hrun, fun cs => by simp [basicBody, hrun]⟩
    · exact hletter (e := '"') ⟨rfl, rfl⟩ (fun _ => rfl) fun cs => by simp [basicBody, hrun]
  by_cases hslash : c = '\\'
  · subst hslash
    exact hletter (e := '\\') ⟨rfl, rfl⟩ (fun _ => rfl) fun cs => by simp [basicBody]
  by_cases hback : c = '\x08'
  · subst hback
    exact hletter (e := 'b') ⟨rfl, rfl⟩ (fun _ => rfl) fun cs => by simp [basicBody]
  by_cases htab : c = '\t'
  · subst htab
    exact hletter (e := 't') ⟨rfl, rfl⟩ (fun _ => rfl) fun cs => by simp [basicBody]
  by_cases hfeed : c = '\n'
  · subst hfeed
    cases long with
    | true => exact ⟨_, _, .feed rfl, fun cs => by simp [basicBody]⟩
    | false => exact hletter (e := 'n') ⟨rfl, rfl⟩ (fun _ => rfl) fun cs => by simp [basicBody]
  by_cases hform : c = '\x0c'
  · subst hform
    exact hletter (e := 'f') ⟨rfl, rfl⟩ (fun _ => rfl) fun cs => by simp [basicBody]
  by_cases hreturn : c = '\r'
  · subst hreturn
    exact hletter (e := 'r') ⟨rfl, rfl⟩ (fun _ => rfl) fun cs => by simp [basicBody]
  by_cases hcontrol : c.toNat < 32 ∨ c.toNat = 127
  · refine ⟨['\\', 'u', '0', '0', hexDigit (c.toNat / 16), hexDigit (c.toNat % 16)], _,
      .escaped (fun rest => ?_) ⟨rfl, rfl⟩, fun cs => ?_⟩
    · have hcode := hex?_control c.toNat (by omega) hcontrol
      rw [Char.ofNat_toNat] at hcode
      simp [escaped, hcode]
    · simp [basicBody, hquote, hslash, hback, htab, hfeed, hform, hreturn, hcontrol]
  · refine ⟨_, _, .plain (isPrintable_iff.2 (Or.inr (by omega))) hquote hslash, fun cs => ?_⟩
    simp [basicBody, hquote, hslash, hback, htab, hfeed, hform, hreturn, hcontrol]

theorem Stands.length_pos {allowed : Nat} {long : Bool} {run next : Nat} {c : Char} {text : List Char}
    (h : Stands allowed long run c text next) : 0 < text.length := by
  cases h <;> exact Nat.succ_pos _

theorem length_le_basicBody (allowed : Nat) (long : Bool) (run : Nat) (cs : List Char) :
    cs.length ≤ (basicBody allowed long run cs).length := by
  induction cs generalizing run with
  | nil => exact Nat.zero_le _
  | cons c cs ih =>
    obtain ⟨text, next, hstands, htext⟩ := exists_stands allowed long run c
    have := hstands.length_pos
    have := ih next
    rw [htext, List.length_append, List.length_cons]
    omega

theorem basicText_plain {c : Char} (h : isPrintable c = true) (hquote : c ≠ '"') (hslash : c ≠ '\\')
    (fuel : Nat) (rest before : List Char) :
    basicText (fuel + 1) (c :: rest) before = basicText fuel rest (c :: before) := by
  rw [basicText, if_pos h]
  · exact hquote
  · exact hslash

/-- A text of one line comes back, whatever follows its closing quote. -/
theorem basicText_body (cs rest before : List Char) (run : Nat) {fuel : Nat} (h : cs.length < fuel) :
    basicText fuel (basicBody 0 false run cs ++ '"' :: rest) before
      = some (String.ofList (before.reverse ++ cs), rest) := by
  induction cs generalizing run fuel before with
  | nil =>
    obtain ⟨fuel, rfl⟩ := Nat.exists_eq_add_one.2 h
    simp [basicBody, basicText]
  | cons c cs ih =>
    obtain ⟨fuel, rfl⟩ := Nat.exists_eq_add_one.2 (Nat.zero_lt_of_lt h)
    obtain ⟨text, next, hstands, htext⟩ := exists_stands 0 false run c
    have hlength : cs.length < fuel := by simpa using h
    have hnext := ih (c :: before) next hlength
    rw [List.reverse_cons, List.append_assoc, List.singleton_append] at hnext
    rw [htext, List.append_assoc]
    cases hstands with
    | quote hrun => exact absurd hrun (Nat.not_lt_zero _)
    | feed hlong => cases hlong
    | plain hprintable hquote hslash =>
      rw [List.singleton_append, basicText_plain hprintable hquote hslash, hnext]
    | escaped hescaped =>
      rw [← hnext, List.cons_append, List.cons_append, basicText]
      simp only [hescaped]

/-! ## Several lines -/

theorem closing?_of_short {quote : Char} {cs : List Char} (h : (cs.takeWhile (· == quote)).length ≤ 2) :
    closing? quote cs = none := by
  rw [closing?, if_neg (by omega)]

/-- Two more quotes before the closing ones belong to the text. -/
theorem closing?_replicate {quote : Char} {j : Nat} (hj : j ≤ 2) {rest : List Char}
    (hrest : ∀ c ∈ rest.head?, c ≠ quote) :
    closing? quote (List.replicate j quote ++ quote :: quote :: quote :: rest)
      = some (List.replicate j quote, rest) := by
  have hall : List.replicate j quote ++ quote :: quote :: quote :: rest
      = List.replicate (j + 3) quote ++ rest := by
    rw [List.replicate_add, List.append_assoc]
    rfl
  have hrun : ((List.replicate (j + 3) quote ++ rest).takeWhile (· == quote)).length = j + 3 := by
    rw [Text.takeWhile_append_stop (by simp) (by simpa using hrest), List.length_replicate]
  have hinside : min (j + 3) 5 - 3 = j := by omega
  rw [closing?, hall, hrun, if_pos (by omega), hinside]
  dsimp only
  rw [List.drop_left' List.length_replicate]

/-- The quotes at the front of a body are few, or they are all of it. -/
theorem basicBody_cases (cs rest : List Char) {run : Nat} (hrun : run ≤ 2) :
    (∃ j, j + run ≤ 2 ∧ cs = List.replicate j '"' ∧ basicBody 2 true run cs = List.replicate j '"') ∨
    ((basicBody 2 true run cs ++ rest).takeWhile (· == '"')).length + run ≤ 2 := by
  induction cs generalizing run with
  | nil => exact Or.inl ⟨0, by omega, rfl, rfl⟩
  | cons c cs ih =>
    obtain ⟨text, next, hstands, htext⟩ := exists_stands 2 true run c
    rw [htext, List.append_assoc]
    cases hstands with
    | quote hless =>
      have hnext : run + 1 ≤ 2 := hless
      rcases ih hnext with ⟨j, hj, hcs, hbody⟩ | hshort
      · refine Or.inl ⟨j + 1, by omega, ?_, ?_⟩
        · rw [hcs, List.replicate_succ]
        · rw [hbody, List.replicate_succ, List.singleton_append]
      · refine Or.inr ?_
        rw [List.singleton_append, List.takeWhile_cons_of_pos (by simp), List.length_cons]
        omega
    | feed => exact Or.inr (by simpa using hrun)
    | plain _ hquote _ =>
      refine Or.inr ?_
      rw [List.singleton_append, List.takeWhile_cons_of_neg (by simpa using hquote)]
      simpa using hrun
    | escaped => exact Or.inr (by simpa using hrun)

theorem lineEnd?_of_isPrintable {c : Char} (h : isPrintable c = true) (rest : List Char) :
    lineEnd? (c :: rest) = none := by
  unfold lineEnd?
  split
  · next heq => exact absurd (List.cons.inj heq).1 (Text.ne_of_kind h rfl)
  · next heq => exact absurd (List.cons.inj heq).1 (Text.ne_of_kind h rfl)
  · rfl

theorem longBasicText_closing {cs inside rest : List Char} (h : closing? '"' cs = some (inside, rest))
    (fuel : Nat) (before : List Char) :
    longBasicText (fuel + 1) cs before = some (String.ofList (before.reverse ++ inside), rest) := by
  rw [longBasicText.eq_def]
  simp only [h]

theorem longBasicText_plain {c : Char} {rest : List Char} (hclosing : closing? '"' (c :: rest) = none)
    (h : isPrintable c = true) (hslash : c ≠ '\\') (fuel : Nat) (before : List Char) :
    longBasicText (fuel + 1) (c :: rest) before = longBasicText fuel rest (c :: before) := by
  rw [longBasicText, hclosing, lineEnd?_of_isPrintable h]
  · exact if_pos h
  · exact hslash

theorem longBasicText_body (cs : List Char) {rest : List Char} (hrest : ∀ c ∈ rest.head?, c ≠ '"')
    (before : List Char) {run fuel : Nat} (hrun : run ≤ 2) (h : cs.length < fuel) :
    longBasicText fuel (basicBody 2 true run cs ++ '"' :: '"' :: '"' :: rest) before
      = some (String.ofList (before.reverse ++ cs), rest) := by
  obtain ⟨fuel, rfl⟩ := Nat.exists_eq_add_one.2 (Nat.zero_lt_of_lt h)
  induction cs generalizing run fuel before with
  | nil =>
    exact longBasicText_closing (closing?_replicate (Nat.zero_le 2) hrest) fuel before
  | cons c cs ih =>
    rcases basicBody_cases (c :: cs) ('"' :: '"' :: '"' :: rest) hrun with
      ⟨j, hj, hcs, hbody⟩ | hshort
    · rw [hbody, longBasicText_closing (closing?_replicate (by omega) hrest), hcs]
    · have hfew := Nat.le_of_add_right_le hshort
      have hclosing := closing?_of_short hfew
      obtain ⟨text, next, hstands, htext⟩ := exists_stands 2 true run c
      obtain ⟨fuel, rfl⟩ := Nat.exists_eq_add_one.2 (Nat.zero_lt_of_lt (Nat.lt_of_succ_lt_succ h))
      have hnext (hle : next ≤ 2) := ih (c :: before) hle fuel (by simpa using h)
      rw [List.reverse_cons, List.append_assoc, List.singleton_append] at hnext
      rw [htext, List.append_assoc] at hclosing ⊢
      cases hstands with
      | quote hless =>
        rw [List.singleton_append] at hclosing ⊢
        rw [longBasicText_plain hclosing rfl (by decide), hnext hless]
      | feed =>
        rw [List.singleton_append] at hclosing ⊢
        rw [longBasicText, hclosing]
        · exact hnext (Nat.zero_le 2)
        · decide
      | plain hprintable _ hslash =>
        rw [List.singleton_append] at hclosing ⊢
        rw [longBasicText_plain hclosing hprintable hslash, hnext (Nat.zero_le 2)]
      | escaped hescaped he =>
        rw [List.cons_append, List.cons_append] at hclosing ⊢
        rw [longBasicText, hclosing, lineEnd?_of_isPrintable rfl]
        dsimp only
        rw [joined?, List.dropWhile_cons_of_neg (by simp [he.2]), lineEnd?_of_isPrintable he.1]
        simp only [Option.map_none, hescaped]
        exact hnext (Nat.zero_le 2)

/-! ## Single quotes -/

theorem le_longestRun (c : Char) (run : Nat) (cs : List Char) : run ≤ longestRun c run cs := by
  induction cs generalizing run with
  | nil => exact le_rfl
  | cons d cs ih =>
    unfold longestRun
    split
    · exact (Nat.le_succ run).trans (ih (run + 1))
    · exact le_max_left _ _

theorem notMem_of_longestRun {c : Char} {run : Nat} {cs : List Char} (h : longestRun c run cs = 0) :
    c ∉ cs := by
  induction cs generalizing run with
  | nil => exact List.not_mem_nil
  | cons d cs ih =>
    unfold longestRun at h
    split at h
    · have := le_longestRun c (run + 1) cs
      omega
    · next hne =>
      have hrest : longestRun c 0 cs = 0 := by omega
      exact List.not_mem_cons_of_ne_of_not_mem (Ne.symm hne) (ih hrest)

/-- The quotes at the front of a text without long runs of them are few, or they are all of it. -/
theorem longestRun_cases {c : Char} {cs : List Char} {run : Nat} (h : longestRun c run cs ≤ 2)
    (rest : List Char) :
    (∃ j, j + run ≤ 2 ∧ cs = List.replicate j c) ∨
      ((cs ++ rest).takeWhile (· == c)).length + run ≤ 2 := by
  have hrun := (le_longestRun c run cs).trans h
  induction cs generalizing run with
  | nil => exact Or.inl ⟨0, by omega, rfl⟩
  | cons d cs ih =>
    unfold longestRun at h
    split at h
    · next heq =>
      subst heq
      rcases ih h ((le_longestRun d (run + 1) cs).trans h) with ⟨j, hj, hcs⟩ | hshort
      · exact Or.inl ⟨j + 1, by omega, by rw [hcs, List.replicate_succ]⟩
      · refine Or.inr ?_
        rw [List.cons_append, List.takeWhile_cons_of_pos (by simp), List.length_cons]
        omega
    · next hne =>
      refine Or.inr ?_
      rw [List.cons_append, List.takeWhile_cons_of_neg (by simpa using hne)]
      simpa using hrun

theorem literalText_append {cs rest : List Char}
    (hcs : ∀ c ∈ cs, isPrintable c = true ∧ c ≠ '\'') :
    literalText (cs ++ '\'' :: rest) = some (String.ofList cs, rest) := by
  have hall : ∀ c ∈ cs, (isPrintable c && c != '\'') = true := fun c hc => by
    simpa using hcs c hc
  rw [literalText, Text.dropWhile_append_stop hall (by simp), Text.takeWhile_append_stop hall (by simp)]
  rfl

theorem longLiteralText_closing {cs inside rest : List Char}
    (h : closing? '\'' cs = some (inside, rest)) (fuel : Nat) (before : List Char) :
    longLiteralText (fuel + 1) cs before = some (String.ofList (before.reverse ++ inside), rest) := by
  rw [longLiteralText.eq_def]
  simp only [h]

theorem longLiteralText_cons {c : Char} {rest : List Char} (hclosing : closing? '\'' (c :: rest) = none)
    (h : isPrintable c = true ∨ c = '\n') (fuel : Nat) (before : List Char) :
    longLiteralText (fuel + 1) (c :: rest) before = longLiteralText fuel rest (c :: before) := by
  rcases h with h | rfl
  · rw [longLiteralText, hclosing, lineEnd?_of_isPrintable h]
    exact if_pos h
  · rw [longLiteralText, hclosing]
    rfl

theorem longLiteralText_append {cs rest : List Char} (hrest : ∀ c ∈ rest.head?, c ≠ '\'')
    (hcs : ∀ c ∈ cs, isPrintable c = true ∨ c = '\n') (before : List Char) {run fuel : Nat}
    (hrun : longestRun '\'' run cs ≤ 2) (h : cs.length < fuel) :
    longLiteralText fuel (cs ++ '\'' :: '\'' :: '\'' :: rest) before
      = some (String.ofList (before.reverse ++ cs), rest) := by
  obtain ⟨fuel, rfl⟩ := Nat.exists_eq_add_one.2 (Nat.zero_lt_of_lt h)
  induction cs generalizing run fuel before with
  | nil => exact longLiteralText_closing (closing?_replicate (Nat.zero_le 2) hrest) fuel before
  | cons c cs ih =>
    rcases longestRun_cases hrun ('\'' :: '\'' :: '\'' :: rest) with ⟨j, hj, heq⟩ | hshort
    · rw [heq, longLiteralText_closing (closing?_replicate (by omega) hrest)]
    · have hfew := Nat.le_of_add_right_le hshort
      have hclosing := closing?_of_short hfew
      obtain ⟨fuel, rfl⟩ := Nat.exists_eq_add_one.2 (Nat.zero_lt_of_lt (Nat.lt_of_succ_lt_succ h))
      obtain ⟨next, hnext⟩ : ∃ next, longestRun '\'' next cs ≤ 2 := by
        unfold longestRun at hrun
        split at hrun
        · exact ⟨run + 1, hrun⟩
        · exact ⟨0, (le_max_right _ _).trans hrun⟩
      rw [List.cons_append] at hclosing ⊢
      rw [longLiteralText_cons hclosing (hcs c List.mem_cons_self),
        ih (fun d hd => hcs d (List.mem_cons_of_mem c hd)) _ hnext fuel (by simpa using h)]
      simp

/-! ## The choice of quotes -/

theorem isPrintable_of_control {cs : List Char} (h : (marks cs).control = false) :
    ∀ c ∈ cs, isPrintable c = true ∨ c = '\n' := by
  intro c hc
  have hcontrol := List.any_eq_false.1 h c hc
  simp only [isControl, Bool.or_eq_true, Bool.and_eq_true, decide_eq_true_eq, bne_iff_ne, not_or,
    not_and, not_not, ne_eq] at hcontrol
  rw [isPrintable_iff]
  by_cases hsmall : c.toNat < 32
  · by_cases htab : c = '\t'
    · exact Or.inl (Or.inl htab)
    · exact Or.inr (hcontrol.1 ⟨hsmall, htab⟩)
  · exact Or.inl (Or.inr ⟨not_lt.1 hsmall, hcontrol.2⟩)

theorem of_choose_literal {m : Marks} (h : Quotes.choose m = .literal) :
    m.control = false ∧ m.singles = 0 ∧ m.lineFeed = false := by
  unfold Quotes.choose at h
  split at h
  · cases h
  · split at h
    · simp_all
    · split at h
      · cases h
      · split at h
        · cases h
        · split at h <;> cases h

theorem of_choose_longLiteral {m : Marks} (h : Quotes.choose m = .longLiteral) :
    m.control = false ∧ m.singles ≤ 2 := by
  unfold Quotes.choose at h
  split at h
  · cases h
  · split at h
    · cases h
    · split at h
      · cases h
      · split at h
        · simp_all
        · split at h <;> cases h

/-- The line feed behind the opening quotes is the only one that is left out. -/
theorem dropFirstLineEnd_start {cs body : List Char}
    (h : '\n' ∉ cs → lineEnd? body = none) :
    dropFirstLineEnd ((if (marks cs).lineFeed then "\n" else "").toList ++ body) = body := by
  by_cases hfeed : '\n' ∈ cs
  · rw [if_pos (by simpa [marks] using hfeed)]
    rfl
  · rw [if_neg (by simpa [marks] using hfeed)]
    change (lineEnd? body).getD body = body
    rw [h hfeed]
    rfl

theorem lineEnd?_basicBody {cs : List Char} (h : '\n' ∉ cs) (rest : List Char) :
    lineEnd? (basicBody 2 true 0 cs ++ '"' :: rest) = none := by
  cases cs with
  | nil => rfl
  | cons c cs =>
    obtain ⟨text, next, hstands, htext⟩ := exists_stands 2 true 0 c
    rw [htext]
    cases hstands with
    | quote => rfl
    | feed => exact absurd List.mem_cons_self h
    | plain hprintable => exact lineEnd?_of_isPrintable hprintable _
    | escaped => rfl

theorem lineEnd?_literal {cs : List Char} (hcs : ∀ c ∈ cs, isPrintable c = true ∨ c = '\n')
    (h : '\n' ∉ cs) (rest : List Char) : lineEnd? (cs ++ '\'' :: rest) = none := by
  cases cs with
  | nil => rfl
  | cons c cs =>
    refine lineEnd?_of_isPrintable ((hcs c List.mem_cons_self).resolve_right ?_) _
    rintro rfl
    exact h List.mem_cons_self

theorem anyText_basic {cs : List Char} (h : ∀ more, cs ≠ '"' :: '"' :: more) :
    anyText ('"' :: cs) = basicText (cs.length + 1) cs [] := by
  unfold anyText
  split
  · next heq => exact absurd (List.cons.inj heq).2 (h _)
  · next heq => rw [(List.cons.inj heq).2]
  · next heq => exact absurd (List.cons.inj heq).1 (by decide)
  · next heq => exact absurd (List.cons.inj heq).1 (by decide)
  · next hnone _ _ => exact absurd rfl (hnone cs)

theorem anyText_literal {cs : List Char} (h : ∀ more, cs ≠ '\'' :: '\'' :: more) :
    anyText ('\'' :: cs) = literalText cs := by
  unfold anyText
  split
  · next heq => exact absurd (List.cons.inj heq).1 (by decide)
  · next heq => exact absurd (List.cons.inj heq).1 (by decide)
  · next heq => exact absurd (List.cons.inj heq).2 (h _)
  · next heq => rw [(List.cons.inj heq).2]
  · next hnone => exact absurd rfl (hnone cs)

section

variable {s : String} {rest : List Char}

theorem anyText_basicBody (hrest : ∀ c ∈ rest.head?, c ≠ '"') :
    anyText ('"' :: (basicBody 0 false 0 s.toList ++ '"' :: rest)) = some (s, rest) := by
  have hlength := length_le_basicBody 0 false 0 s.toList
  rw [anyText_basic, basicText_body s.toList rest [] 0]
  · rw [List.reverse_nil, List.nil_append, String.ofList_toList]
  · rw [List.length_append]
    omega
  · -- Two more quotes at the front would be those of an empty text and one behind it.
    intro more heq
    cases hcs : s.toList with
    | nil =>
      rw [hcs] at heq
      exact hrest '"' (by rw [(List.cons.inj heq).2]; rfl) rfl
    | cons c cs =>
      obtain ⟨text, next, hstands, htext⟩ := exists_stands 0 false 0 c
      rw [hcs, htext] at heq
      cases hstands with
      | quote hless => exact Nat.not_lt_zero _ hless
      | feed hlong => cases hlong
      | plain _ hquote => exact hquote (List.cons.inj heq).1
      | escaped => exact absurd (List.cons.inj heq).1 (by decide)

theorem anyText_literalBody (hrest : ∀ c ∈ rest.head?, c ≠ '\'')
    (hs : ∀ c ∈ s.toList, isPrintable c = true ∧ c ≠ '\'') :
    anyText ('\'' :: (s.toList ++ '\'' :: rest)) = some (s, rest) := by
  rw [anyText_literal, literalText_append hs, String.ofList_toList]
  intro more heq
  cases hcs : s.toList with
  | nil =>
    rw [hcs] at heq
    exact hrest '\'' (by rw [(List.cons.inj heq).2]; rfl) rfl
  | cons c cs =>
    rw [hcs] at heq
    exact (hs c (hcs ▸ List.mem_cons_self)).2 (List.cons.inj heq).1

theorem anyText_longBasicBody (hrest : ∀ c ∈ rest.head?, c ≠ '"') :
    anyText ('"' :: '"' :: '"' :: ((if (marks s.toList).lineFeed then "\n" else "").toList
      ++ (basicBody 2 true 0 s.toList ++ '"' :: '"' :: '"' :: rest))) = some (s, rest) := by
  have hlength := length_le_basicBody 2 true 0 s.toList
  rw [anyText, dropFirstLineEnd_start fun h => lineEnd?_basicBody h _,
    longBasicText_body s.toList hrest [] (Nat.zero_le 2)]
  · rw [List.reverse_nil, List.nil_append, String.ofList_toList]
  · simp only [List.length_append]
    omega

theorem anyText_longLiteralBody (hrest : ∀ c ∈ rest.head?, c ≠ '\'')
    (hs : ∀ c ∈ s.toList, isPrintable c = true ∨ c = '\n') (hruns : longestRun '\'' 0 s.toList ≤ 2) :
    anyText ('\'' :: '\'' :: '\'' :: ((if (marks s.toList).lineFeed then "\n" else "").toList
      ++ (s.toList ++ '\'' :: '\'' :: '\'' :: rest))) = some (s, rest) := by
  rw [anyText, dropFirstLineEnd_start fun h => lineEnd?_literal hs h _,
    longLiteralText_append hrest hs [] hruns]
  · rw [List.reverse_nil, List.nil_append, String.ofList_toList]
  · simp only [List.length_append]
    omega

theorem of_quotes_literal (h : Quotes.choose (marks s.toList) = .literal) :
    ∀ c ∈ s.toList, isPrintable c = true ∧ c ≠ '\'' := by
  obtain ⟨hcontrol, hsingles, hfeed⟩ := of_choose_literal h
  intro c hc
  refine ⟨(isPrintable_of_control hcontrol c hc).resolve_right ?_, ?_⟩
  · rintro rfl
    have hmark : (marks s.toList).lineFeed = true := by simpa [marks] using hc
    rw [hfeed] at hmark
    cases hmark
  · rintro rfl
    exact notMem_of_longestRun hsingles hc

end

/-- A text is read back from between its quotes. -/
theorem anyText_quote (s : String) {rest : List Char}
    (hrest : ∀ c ∈ rest.head?, c ≠ '"' ∧ c ≠ '\'') :
    anyText ((quote s).toList ++ rest) = some (s, rest) := by
  have hdouble : ∀ c ∈ rest.head?, c ≠ '"' := fun c hc => (hrest c hc).1
  have hsingle : ∀ c ∈ rest.head?, c ≠ '\'' := fun c hc => (hrest c hc).2
  unfold quote
  dsimp only
  cases hchoice : Quotes.choose (marks s.toList) with
  | basic =>
    simp only [String.toList_append, String.toList_ofList, List.append_assoc]
    exact anyText_basicBody hdouble
  | literal =>
    simp only [String.toList_append, List.append_assoc]
    exact anyText_literalBody hsingle (of_quotes_literal hchoice)
  | longBasic =>
    simp only [String.toList_append, String.toList_ofList, List.append_assoc]
    exact anyText_longBasicBody hdouble
  | longLiteral =>
    obtain ⟨hcontrol, hsingles⟩ := of_choose_longLiteral hchoice
    simp only [String.toList_append, List.append_assoc]
    exact anyText_longLiteralBody hsingle (isPrintable_of_control hcontrol) hsingles

end Toml
end SpacerTurning
