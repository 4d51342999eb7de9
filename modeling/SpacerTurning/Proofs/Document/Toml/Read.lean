import SpacerTurning.Document.Toml.Read
import SpacerTurning.Proofs.Document.Toml.Numbers
import SpacerTurning.Proofs.Document.Toml.Texts

/-!
A document in TOML, read again.

A document of plain values and of tables of plain values comes back if no table has a name twice and
every name can stand without quotes.  Each line adds one entry at the end of the table whose header is in
force, so what has been read after some lines is what has been written in them.
-/

namespace SpacerTurning
namespace Toml

open Number

/-! ## Values -/

/-- A text that is a value as a whole, if its line ends behind it. -/
structure IsValueText (text : String) (d : Document) : Prop where
  starts : ∃ c tail, text.toList = c :: tail ∧ isBlank c = false
  reads : ∀ fuel depth more,
    value (fuel + 1) depth (text.toList ++ '\n' :: more) = some (d, '\n' :: more)

/-- What a number can start with. -/
def startsNumber (c : Char) : Bool := c.isDigit || c = '-' || c = 'i' || c = 'n'

theorem value_numeric {c : Char} (hc : startsNumber c = true) (tail : List Char) (fuel depth : Nat) :
    value (fuel + 1) depth (c :: tail) = numeric (c :: tail) := by
  have hne {k : Char} (hk : startsNumber k = false) := Text.ne_of_kind hc hk
  rw [value]
  · exact if_neg (not_or.2 ⟨hne rfl, hne rfl⟩)
  · exact hne rfl
  · exact hne rfl
  · exact fun _ heq => absurd heq (hne rfl)
  · exact fun _ heq => absurd heq (hne rfl)

theorem isValueText_number {cs : List Char} {text : String} {d : Document} (htext : text.toList = cs)
    (hstarts : ∃ c tail, cs = c :: tail ∧ startsNumber c = true)
    (hreads : ∀ more, numeric (cs ++ '\n' :: more) = some (d, '\n' :: more)) : IsValueText text d := by
  obtain ⟨c, tail, rfl, hc⟩ := hstarts
  have hblank : isBlank c = false := by
    simp [isBlank, Text.ne_of_kind hc (k := ' ') rfl, Text.ne_of_kind hc (k := '\t') rfl]
  refine ⟨⟨c, tail, htext, hblank⟩, fun fuel depth more => ?_⟩
  rw [htext, List.cons_append, value_numeric hc, ← List.cons_append, hreads]

theorem startsNumber_signChars (negative : Bool) {whole : List Char} (hwhole : IsWholePart whole)
    (rest : List Char) :
    ∃ c tail, Binary64.signChars negative ++ (whole ++ rest) = c :: tail ∧ startsNumber c = true := by
  cases negative with
  | true => exact ⟨'-', _, rfl, rfl⟩
  | false =>
    obtain ⟨d, ds, rfl⟩ := List.exists_cons_of_ne_nil hwhole.ne_nil
    refine ⟨d, ds ++ rest, rfl, ?_⟩
    simp [startsNumber, hwhole.digits d List.mem_cons_self]

theorem exists_quote_cons (s : String) :
    ∃ c tail, (quote s).toList = c :: tail ∧ (c = '"' ∨ c = '\'') := by
  unfold quote
  dsimp only
  cases Quotes.choose (marks s.toList) with
  | basic => exact ⟨'"', _, by simp; rfl, Or.inl rfl⟩
  | literal => exact ⟨'\'', _, by simp; rfl, Or.inr rfl⟩
  | longBasic => exact ⟨'"', _, by simp; rfl, Or.inl rfl⟩
  | longLiteral => exact ⟨'\'', _, by simp; rfl, Or.inr rfl⟩

theorem isValueText_text (s : String) : IsValueText (quote s) (.text s) := by
  obtain ⟨c, tail, hquote, hc⟩ := exists_quote_cons s
  refine ⟨⟨c, tail, hquote, by rcases hc with rfl | rfl <;> rfl⟩, fun fuel depth more => ?_⟩
  have hread : anyText ((quote s).toList ++ '\n' :: more) = some (s, '\n' :: more) :=
    anyText_quote s (by simp)
  rw [hquote, List.cons_append] at hread ⊢
  rcases hc with rfl | rfl
  · simp [value, hread]
  · simp [value, hread]

/-- A plain value is read back from its text. -/
theorem isValueText_plain {d : Document} {text : String} (h : plainText? d = some text) :
    IsValueText text d := by
  cases d with
  | bool b =>
    obtain rfl := Option.some.inj h
    cases b with
    | true => exact ⟨⟨'t', _, rfl, rfl⟩, fun fuel depth more => by simp [value]⟩
    | false => exact ⟨⟨'f', _, rfl, rfl⟩, fun fuel depth more => by simp [value]⟩
  | integer n =>
    simp only [plainText?] at h
    split at h
    · next hrange =>
      obtain rfl := Option.some.inj h
      refine isValueText_number (Binary64.toList_integer n) ?_ fun more => ?_
      · simpa using startsNumber_signChars _ (isWholePart_toDigits n.natAbs) []
      · rw [← Binary64.toList_integer]
        exact numeric_integer hrange.1 hrange.2 more
    · cases h
  | number x =>
    obtain rfl := Option.some.inj h
    refine isValueText_number rfl ?_ (numeric_number x)
    rcases numberText_cases x with ⟨negative, whole, places, htext, h, -⟩ | ⟨negative, htext, -⟩ |
      ⟨htext, -⟩
    · exact htext ▸ startsNumber_signChars negative h.whole_isWholePart _
    · cases negative
      · exact ⟨'i', _, htext, rfl⟩
      · exact ⟨'-', _, htext, rfl⟩
    · exact ⟨'n', _, htext, rfl⟩
  | text s =>
    obtain rfl := Option.some.inj h
    exact isValueText_text s
  | null => cases h
  | list items => cases h
  | table entries => cases h
  | beyond => cases h

/-! ## Names -/

/-- A name that stands without quotes. -/
structure IsBareName (n : String) : Prop where
  ne_nil : n.toList ≠ []
  bare : ∀ c ∈ n.toList, isBare c = true

theorem not_blank_of_isBare {c : Char} (hc : isBare c = true) : isBlank c = false := by
  simp [isBlank, Text.ne_of_kind hc (k := ' ') rfl, Text.ne_of_kind hc (k := '\t') rfl]

section

variable {n : String} {rest : List Char}

theorem name_append (hn : IsBareName n) (hrest : ∀ c ∈ rest.head?, isBare c = false) :
    name (n.toList ++ rest) = some (n, rest) := by
  have htake := Text.takeWhile_append_stop hn.bare hrest
  have hdrop := Text.dropWhile_append_stop hn.bare hrest
  obtain ⟨c, tail, hcs⟩ := List.exists_cons_of_ne_nil hn.ne_nil
  have hc := hn.bare c (hcs ▸ List.mem_cons_self)
  unfold name
  split
  · next heq =>
    rw [hcs] at heq
    exact absurd (List.cons.inj heq).1 (Text.ne_of_kind hc rfl)
  · next heq =>
    rw [hcs] at heq
    exact absurd (List.cons.inj heq).1 (Text.ne_of_kind hc rfl)
  · rw [htake, hdrop]
    split
    · next heq => exact absurd heq hn.ne_nil
    · rw [String.ofList_toList]

/-- A name alone is a key. -/
theorem key_append (hn : IsBareName n) (hrest : ∀ c ∈ rest.head?, isBare c = false)
    (hpoint : ∀ c ∈ (rest.dropWhile isBlank).head?, c ≠ '.') :
    key (n.toList ++ rest) = some ([n], rest.dropWhile isBlank) := by
  obtain ⟨c, tail, hcs⟩ := List.exists_cons_of_ne_nil hn.ne_nil
  have hfirst : (n.toList ++ rest).dropWhile isBlank = n.toList ++ rest := by
    rw [hcs, List.cons_append, List.dropWhile_cons_of_neg]
    simp [not_blank_of_isBare (hn.bare c (hcs ▸ List.mem_cons_self))]
  change names (78 + 1) _ = _
  rw [names, hfirst, name_append hn hrest]
  simp only [Option.bind_eq_bind, Option.bind_some]
  split
  · next heq => exact absurd rfl (hpoint '.' (by rw [heq]; rfl))
  · rfl

end

/-! ## Tables in the making -/

section

variable {n t : String} {before inner : Entries}

theorem update_append (hn : n ∉ before.map (·.1)) (f : Option Node → Option Node) (entries : Entries) :
    update n f (before ++ entries) = (update n f entries).map (before ++ ·) := by
  induction before with
  | nil => simp
  | cons e before ih =>
    obtain ⟨m, node⟩ := e
    simp only [List.map_cons, List.mem_cons, not_or] at hn
    rw [List.cons_append, update, if_neg (Ne.symm hn.1), ih hn.2]
    cases update n f entries <;> rfl

/-- A new name comes behind the others. -/
theorem update_new (hn : n ∉ before.map (·.1)) (f : Option Node → Option Node) :
    update n f before = (f none).map fun node => before ++ [(n, node)] := by
  have h := update_append hn f []
  rw [List.append_nil] at h
  rw [h, update]
  cases f none <;> rfl

theorem assign_new (hn : n ∉ before.map (·.1)) (d : Document) :
    assign [n] d before = some (before ++ [(n, .value d)]) := by
  rw [assign, update_new hn]
  rfl

theorem openTable_new (ht : t ∉ before.map (·.1)) :
    openTable [t] before = some (before ++ [(t, .table false false [])]) := by
  change update t _ before = _
  rw [update_new ht]
  rfl

theorem within_last (ht : t ∉ before.map (·.1)) (f : Entries → Option Entries) :
    within [t] f (before ++ [(t, .table false false inner)])
      = (f inner).map fun entries => before ++ [(t, .table false false entries)] := by
  rw [within, update_append ht]
  simp only [update, within, if_true]
  cases f inner <;> rfl

end

/-! ## Lines -/

theorem afterLine_feed (more : List Char) : afterLine ('\n' :: more) = some more := by
  simp [afterLine, isBlank, afterComment, lineEnd?]

theorem readLines_nil (fuel : Nat) (r : Reading) : readLines (fuel + 1) r [] = some r.entries := by
  simp [readLines, afterLine, afterComment]

/-- What a line says, and what is left of it behind that. -/
def line (r : Reading) (cs : List Char) : Option (Reading × List Char) :=
  match cs.dropWhile isBlank with
  | [] => some (r, [])
  | '#' :: rest => some (r, '#' :: rest)
  | '[' :: rest => header r rest
  | '\n' :: rest => some (r, '\n' :: rest)
  | '\r' :: rest => some (r, '\r' :: rest)
  | rest => pair r rest

/-- Behind a line the next one is read. -/
theorem readLines_of_line {r r' : Reading} {cs more : List Char} (fuel : Nat)
    (hline : line r cs = some (r', '\n' :: more)) :
    readLines (fuel + 2) r cs = readLines (fuel + 1) r' more := by
  rw [readLines]
  split
  · next heq => cases heq.symm.trans hline
  · next heq =>
    obtain ⟨rfl, rfl⟩ := Prod.mk.inj (Option.some.inj (heq.symm.trans hline))
    rw [afterLine_feed]
    cases more with
    | nil => rw [readLines_nil]
    | cons c cs => rfl

theorem line_blank (r : Reading) (more : List Char) : line r ('\n' :: more) = some (r, '\n' :: more) := rfl

section

variable {r : Reading} {entries : Entries} {n : String}

theorem line_header (hn : IsBareName n) (hopen : openTable [n] r.entries = some entries)
    (more : List Char) :
    line r ('[' :: (n.toList ++ ']' :: '\n' :: more)) = some ({ entries, header := [n] }, '\n' :: more) := by
  have hkey : key (n.toList ++ ']' :: '\n' :: more) = some ([n], ']' :: '\n' :: more) :=
    key_append hn (by simp [isBare]) (by simp [isBlank])
  change header r (n.toList ++ ']' :: '\n' :: more) = _
  unfold header
  split
  · next heq =>
    obtain ⟨c, tail, hcs⟩ := List.exists_cons_of_ne_nil hn.ne_nil
    rw [hcs] at heq
    exact absurd (List.cons.inj heq).1 (Text.ne_of_kind (hn.bare c (hcs ▸ List.mem_cons_self)) rfl)
  · rw [hkey]
    simp only [hopen, Option.map_some]

theorem line_of_isBare {c : Char} (hc : isBare c = true) (tail : List Char) :
    line r (c :: tail) = pair r (c :: tail) := by
  rw [line, List.dropWhile_cons_of_neg (by simp [not_blank_of_isBare hc])]
  split
  · next heq => cases heq
  · next heq => exact absurd (List.cons.inj heq).1 (Text.ne_of_kind hc rfl)
  · next heq => exact absurd (List.cons.inj heq).1 (Text.ne_of_kind hc rfl)
  · next heq => exact absurd (List.cons.inj heq).1 (Text.ne_of_kind hc rfl)
  · next heq => exact absurd (List.cons.inj heq).1 (Text.ne_of_kind hc rfl)
  · rfl

theorem line_pair {text : String} {d : Document} (hn : IsBareName n) (htext : IsValueText text d)
    (hassign : within r.header (assign [n] d) r.entries = some entries) (more : List Char) :
    line r (n.toList ++ ' ' :: '=' :: ' ' :: (text.toList ++ '\n' :: more))
      = some ({ r with entries }, '\n' :: more) := by
  have hkey : key (n.toList ++ ' ' :: '=' :: ' ' :: (text.toList ++ '\n' :: more))
      = some ([n], '=' :: ' ' :: (text.toList ++ '\n' :: more)) :=
    key_append hn (by simp [isBare]) (by simp [isBlank])
  have hblank : (' ' :: (text.toList ++ '\n' :: more)).dropWhile isBlank
      = text.toList ++ '\n' :: more := by
    obtain ⟨c, tail, hcs, hc⟩ := htext.starts
    rw [List.dropWhile_cons_of_pos rfl, hcs, List.cons_append,
      List.dropWhile_cons_of_neg (by simp [hc])]
  obtain ⟨c, tail, hcs⟩ := List.exists_cons_of_ne_nil hn.ne_nil
  have hline := line_of_isBare (r := r) (hn.bare c (hcs ▸ List.mem_cons_self))
    (tail ++ ' ' :: '=' :: ' ' :: (text.toList ++ '\n' :: more))
  rw [← List.cons_append, ← hcs] at hline
  rw [hline, pair, hkey]
  simp only [hblank, htext.reads, hassign, Option.bind_eq_bind, Option.bind_some]
  rfl

end

/-! ## Tables -/

/-- The text of lines. -/
def linesText (lines : List String) : List Char := lines.flatMap fun l => l.toList ++ ['\n']

theorem toList_join (lines : List String) :
    (String.join (lines.map (· ++ "\n"))).toList = linesText lines := by
  induction lines with
  | nil => rfl
  | cons l lines ih =>
    rw [List.map_cons, String.join_cons, String.toList_append, ih]
    simp [linesText]

/-- The names of entries stand without quotes, and none is there twice. -/
structure AreNamed (entries : List (String × Document)) : Prop where
  bare : ∀ e ∈ entries, IsBareName e.1
  once : (entries.map (·.1)).Nodup

theorem areNamed_of_names {entries : List (String × Document)} (names : List String)
    (hnames : entries.map (·.1) = names)
    (hbare : (names.all fun n => !n.toList.isEmpty && n.toList.all isBare) = true) (honce : names.Nodup) :
    AreNamed entries := by
  refine ⟨fun e he => ?_, hnames ▸ honce⟩
  have hn := List.all_eq_true.1 hbare e.1 (hnames ▸ List.mem_map_of_mem he)
  rw [Bool.and_eq_true, Bool.not_eq_true', List.isEmpty_eq_false_iff] at hn
  exact ⟨hn.1, fun c hc => List.all_eq_true.1 hn.2 c hc⟩

/-- What has been read of plain values. -/
def plainNodes (entries : List (String × Document)) : Entries := entries.map fun e => (e.1, .value e.2)

/-- Plain values are added to the table that takes them, one after the other. -/
theorem readLines_plainLines {header : List String} (place : Entries → Entries)
    (hplace : ∀ {n d before}, n ∉ before.map (·.1) →
      within header (assign [n] d) (place before) = some (place (before ++ [(n, .value d)])))
    (entries : List (String × Document)) {lines : List String} (h : plainLines entries = some lines)
    (before : Entries) (hbare : ∀ e ∈ entries, IsBareName e.1)
    (honce : (before.map (·.1) ++ entries.map (·.1)).Nodup) (fuel : Nat) (more : List Char) :
    readLines (fuel + lines.length + 1) { entries := place before, header } (linesText lines ++ more)
      = readLines (fuel + 1) { entries := place (before ++ plainNodes entries), header } more := by
  induction entries generalizing lines before with
  | nil =>
    obtain rfl := Option.some.inj h
    simp [linesText, plainNodes]
  | cons e entries ih =>
    obtain ⟨n, d⟩ := e
    simp only [plainLines, Option.bind_eq_bind, Option.bind_eq_some_iff] at h
    obtain ⟨text, htext, rest, hrest, hlines⟩ := h
    obtain rfl := Option.some.inj hlines
    have hn : n ∉ before.map (·.1) := fun hmem =>
      (List.nodup_append.1 honce).2.2 n hmem n List.mem_cons_self rfl
    have hline := line_pair (r := { entries := place before, header }) (hbare _ List.mem_cons_self)
      (isValueText_plain htext) (hplace hn) (linesText rest ++ more)
    have hread := ih hrest (before ++ [(n, .value d)])
      (fun e he => hbare e (List.mem_cons_of_mem _ he)) (by simpa using honce)
    have hcs : linesText ((n ++ " = " ++ text) :: rest) ++ more
        = n.toList ++ ' ' :: '=' :: ' ' :: (text.toList ++ '\n' :: (linesText rest ++ more)) := by
      simp [linesText]
    rw [hcs, List.length_cons, ← Nat.add_assoc, readLines_of_line _ hline, hread]
    simp [plainNodes]

/-- What has been read of tables of plain values. -/
def tableNodes (entries : List (String × Document)) : Entries :=
  entries.map fun e => (e.1, match e.2 with
    | .table inner => .table false false (plainNodes inner)
    | d => .value d)

theorem readLines_tableLines (entries : List (String × Document)) {lines : List String}
    (h : tableLines entries = some lines) (before : Entries) (header : List String)
    (hbare : ∀ e ∈ entries, IsBareName e.1)
    (hinner : ∀ n inner, (n, .table inner) ∈ entries → AreNamed inner)
    (honce : (before.map (·.1) ++ entries.map (·.1)).Nodup) (fuel : Nat) :
    readLines (fuel + lines.length + 1) { entries := before, header } (linesText lines)
      = some (before ++ tableNodes entries) := by
  induction entries generalizing lines before header fuel with
  | nil =>
    obtain rfl := Option.some.inj h
    simpa [linesText, tableNodes] using readLines_nil fuel { entries := before, header }
  | cons e entries ih =>
    obtain ⟨n, d⟩ := e
    cases d with
    | table inner =>
      simp only [tableLines, Option.bind_eq_bind, Option.bind_eq_some_iff] at h
      obtain ⟨plain, hplain, rest, hrest, hlines⟩ := h
      obtain rfl := Option.some.inj hlines
      have hn : n ∉ before.map (·.1) := fun hmem =>
        (List.nodup_append.1 honce).2.2 n hmem n List.mem_cons_self rfl
      obtain ⟨hinnerBare, hinnerOnce⟩ := hinner n inner List.mem_cons_self
      have hheader := line_header (r := { entries := before, header }) (hbare _ List.mem_cons_self)
        (openTable_new hn) (linesText plain ++ linesText rest)
      have hread := ih hrest (before ++ [(n, .table false false (plainNodes inner))])
        [n] (fun e he => hbare e (List.mem_cons_of_mem _ he))
        (fun m inner he => hinner m inner (List.mem_cons_of_mem _ he)) (by simpa using honce) fuel
      have hplace {m : String} {d : Document} {inside : Entries} (hm : m ∉ inside.map (·.1)) :
          within [n] (assign [m] d) (before ++ [(n, .table false false inside)])
            = some (before ++ [(n, .table false false (inside ++ [(m, .value d)]))]) := by
        rw [within_last hn, assign_new hm, Option.map_some]
      have hplainLines := readLines_plainLines
        (fun inside => before ++ [(n, .table false false inside)]) hplace inner hplain []
        hinnerBare (by simpa using hinnerOnce) (fuel + rest.length) (linesText rest)
      have hcs : linesText ("" :: ("[" ++ n ++ "]") :: plain ++ rest)
          = '\n' :: '[' :: (n.toList ++ ']' :: '\n' :: (linesText plain ++ linesText rest)) := by
        simp [linesText]
      have hfuel : fuel + ("" :: ("[" ++ n ++ "]") :: plain ++ rest).length + 1
          = fuel + rest.length + plain.length + 1 + 2 := by
        simp only [List.cons_append, List.length_cons, List.length_append]
        omega
      rw [hcs, hfuel, readLines_of_line _ (line_blank _ _), readLines_of_line _ hheader]
      refine hplainLines.trans ?_
      rw [List.nil_append, hread]
      simp [tableNodes]
    | _ => cases h

theorem entriesDocument_append (a b : Entries) :
    entriesDocument (a ++ b) = entriesDocument a ++ entriesDocument b := by
  induction a with
  | nil => rfl
  | cons e a ih => rw [List.cons_append, entriesDocument, entriesDocument, ih, List.cons_append]

theorem entriesDocument_plainNodes (entries : List (String × Document)) :
    entriesDocument (plainNodes entries) = entries := by
  induction entries with
  | nil => rfl
  | cons e entries ih =>
    rw [plainNodes, List.map_cons, entriesDocument, Node.document]
    exact congrArg (e :: ·) ih

/-- A table among the values of another one. -/
def isTable : String × Document → Bool
  | (_, .table _) => true
  | _ => false

theorem entriesDocument_tableNodes {entries : List (String × Document)}
    (h : ∀ e ∈ entries, isTable e = true) : entriesDocument (tableNodes entries) = entries := by
  induction entries with
  | nil => rfl
  | cons e entries ih =>
    have hrest := ih fun e he => h e (List.mem_cons_of_mem _ he)
    obtain ⟨n, d⟩ := e
    cases d with
    | table inner =>
      rw [tableNodes, List.map_cons, entriesDocument, Node.document, entriesDocument_plainNodes]
      exact congrArg ((n, .table inner) :: ·) hrest
    | _ => cases h _ List.mem_cons_self

theorem length_le_linesText (lines : List String) : lines.length ≤ (linesText lines).length := by
  induction lines with
  | nil => exact Nat.zero_le _
  | cons l lines ih =>
    have hcons : linesText (l :: lines) = l.toList ++ '\n' :: linesText lines := by simp [linesText]
    rw [hcons, List.length_append, List.length_cons, List.length_cons]
    omega

/-- Names in a document and in the tables in it. -/
structure IsNamed (entries : List (String × Document)) : Prop where
  outer : AreNamed entries
  inner : ∀ n inner, (n, .table inner) ∈ entries → AreNamed inner

/-- The lines of a document, from those of its plain values and those of its tables. -/
def joinedLines (top tables : List String) : List String :=
  if top = [] then tables.drop 1 else top ++ tables

theorem write_eq_some {entries : List (String × Document)} {text : String}
    (h : write (.table entries) = some text) :
    ∃ top tables, plainLines (entries.filter fun e => !isTable e) = some top ∧
      tableLines (entries.filter isTable) = some tables ∧
      text.toList = linesText (joinedLines top tables) := by
  simp only [write, Option.bind_eq_bind, Option.bind_eq_some_iff] at h
  obtain ⟨top, htop, tables, htables, htext⟩ := h
  refine ⟨top, tables, htop, htables, ?_⟩
  rw [← Option.some.inj htext, toList_join]
  rfl

section

variable {plain tabled : List (String × Document)} {top tables : List String}

theorem exists_of_tableLines (h : tableLines tabled = some tables) :
    tables = [] ∨ ∃ n rest, tables = "" :: ("[" ++ n ++ "]") :: rest := by
  cases tabled with
  | nil => exact Or.inl (Option.some.inj h).symm
  | cons e tabled =>
    obtain ⟨n, d⟩ := e
    cases d with
    | table inner =>
      simp only [tableLines, Option.bind_eq_bind, Option.bind_eq_some_iff] at h
      obtain ⟨lines, -, more, -, htables⟩ := h
      exact Or.inr ⟨n, lines ++ more, (Option.some.inj htables).symm⟩
    | _ => cases h

/-- No document starts with a mark of its encoding. -/
theorem dropMark_joinedLines (htop : plainLines plain = some top) (htables : tableLines tabled = some tables)
    (hbare : ∀ e ∈ plain, IsBareName e.1) :
    dropMark (linesText (joinedLines top tables)) = linesText (joinedLines top tables) := by
  have hhead {c : Char} (hc : c ≠ '\ufeff') (cs : List Char) : dropMark (c :: cs) = c :: cs := by
    unfold dropMark
    split
    · next heq => exact absurd (List.cons.inj heq).1 hc
    · rfl
  cases plain with
  | nil =>
    obtain rfl := Option.some.inj htop
    rcases exists_of_tableLines htables with rfl | ⟨n, rest, rfl⟩
    · rfl
    · have hcs : linesText (joinedLines [] ("" :: ("[" ++ n ++ "]") :: rest))
          = '[' :: (n.toList ++ ']' :: '\n' :: linesText rest) := by
        simp [joinedLines, linesText]
      rw [hcs]
      exact hhead (by decide) _
  | cons e plain =>
    obtain ⟨n, d⟩ := e
    simp only [plainLines, Option.bind_eq_bind, Option.bind_eq_some_iff] at htop
    obtain ⟨text, -, rest, -, htop⟩ := htop
    obtain rfl := Option.some.inj htop
    have hn := hbare _ List.mem_cons_self
    obtain ⟨c, tail, hcs⟩ := List.exists_cons_of_ne_nil hn.ne_nil
    have hcs' : linesText (joinedLines ((n ++ " = " ++ text) :: rest) tables)
        = c :: (tail ++ linesText ((" = " ++ text) :: (rest ++ tables))) := by
      simp [joinedLines, linesText, hcs]
    rw [hcs']
    exact hhead (Text.ne_of_kind (hn.bare c (hcs ▸ List.mem_cons_self)) (by decide)) _

theorem readLines_joinedLines (htop : plainLines plain = some top)
    (htables : tableLines tabled = some tables) (hnamed : AreNamed (plain ++ tabled))
    (hinner : ∀ n inner, (n, .table inner) ∈ tabled → AreNamed inner) (fuel : Nat) :
    readLines (fuel + (joinedLines top tables).length + 1) { entries := [], header := [] }
        (linesText (joinedLines top tables))
      = some (plainNodes plain ++ tableNodes tabled) := by
  have honce := hnamed.once
  rw [List.map_append] at honce
  have hplace {n : String} {d : Document} {before : Entries} (hn : n ∉ before.map (·.1)) :
      within [] (assign [n] d) before = some (before ++ [(n, .value d)]) := assign_new hn d
  have hplain := readLines_plainLines id hplace plain htop []
    (fun e he => hnamed.bare e (List.mem_append_left _ he)) (by simpa using (List.nodup_append.1 honce).1)
    (fuel + tables.length) (linesText tables)
  have htabled := readLines_tableLines tabled htables (plainNodes plain) []
    (fun e he => hnamed.bare e (List.mem_append_right _ he)) hinner
    (by simpa [plainNodes, Function.comp_def] using honce) fuel
  have hall : readLines (fuel + tables.length + top.length + 1) { entries := [], header := [] }
      (linesText top ++ linesText tables) = some (plainNodes plain ++ tableNodes tabled) :=
    hplain.trans htabled
  unfold joinedLines
  split
  · next hnil =>
    -- Without plain values the blank line before the first header is left out.
    subst hnil
    rcases exists_of_tableLines htables with rfl | ⟨n, rest, rfl⟩
    · exact hall
    · rw [← hall]
      exact (readLines_of_line _ (line_blank _ _)).symm
  · have htext : linesText (top ++ tables) = linesText top ++ linesText tables := by simp [linesText]
    have hfuel : fuel + (top ++ tables).length + 1 = fuel + tables.length + top.length + 1 := by
      rw [List.length_append]
      omega
    rw [htext, hfuel, hall]

end

/-- A document comes back, with its tables behind its other values. -/
theorem read_write {entries : List (String × Document)} (hentries : IsNamed entries) {text : String}
    (h : write (.table entries) = some text) :
    read text = some (.table ((entries.filter fun e => !isTable e) ++ entries.filter isTable)) := by
  obtain ⟨top, tables, htop, htables, htext⟩ := write_eq_some h
  have hperm : ((entries.filter fun e => !isTable e) ++ entries.filter isTable).Perm entries := by
    refine List.perm_append_comm.trans ?_
    exact List.filter_append_perm isTable entries
  have hnamed : AreNamed ((entries.filter fun e => !isTable e) ++ entries.filter isTable) :=
    ⟨fun e he => hentries.outer.bare e (hperm.mem_iff.1 he),
      (hperm.map (·.1)).nodup_iff.2 hentries.outer.once⟩
  obtain ⟨fuel, hfuel⟩ := Nat.exists_eq_add_of_le (length_le_linesText (joinedLines top tables))
  have hread := readLines_joinedLines htop htables hnamed
    (fun n inner he => hentries.inner n inner (List.mem_of_mem_filter he)) fuel
  have hdocument : entriesDocument (plainNodes (entries.filter fun e => !isTable e)
      ++ tableNodes (entries.filter isTable))
      = (entries.filter fun e => !isTable e) ++ entries.filter isTable := by
    rw [entriesDocument_append, entriesDocument_plainNodes,
      entriesDocument_tableNodes fun e he => (List.mem_filter.1 he).2]
  unfold read
  rw [htext, dropMark_joinedLines htop htables fun e he => hnamed.bare e (List.mem_append_left _ he)]
  dsimp only
  rw [hfuel, Nat.add_comm (joinedLines top tables).length fuel, hread, Option.map_some, hdocument]

end Toml
end SpacerTurning
