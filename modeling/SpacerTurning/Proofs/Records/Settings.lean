import Mathlib
import SpacerTurning.Records.Settings

/-!
Settings taken out of a document again.

A record that has every field under its name takes the value of each of them, whatever it held before.
One field that cannot be read is enough for no record to be taken at all.
-/

namespace SpacerTurning

open Number

namespace Document

/-- An entry is found under its name if no other one has that name. -/
theorem lookup_of_mem {record : Record} (honce : (record.map (·.1)).Nodup) {name : String} {d : Document}
    (h : (name, d) ∈ record) : record.lookup name = some d := by
  induction record with
  | nil => cases h
  | cons e record ih =>
    obtain ⟨m, d'⟩ := e
    rw [List.map_cons, List.nodup_cons] at honce
    rcases List.mem_cons.1 h with heq | hmem
    · obtain ⟨rfl, rfl⟩ := Prod.mk.inj heq
      exact List.lookup_cons_self
    · have hne : name ≠ m := by
        rintro rfl
        exact honce.1 (List.mem_map.2 ⟨_, hmem, rfl⟩)
      rw [List.lookup_cons, beq_false_of_ne hne]
      exact ih honce.2 hmem

theorem record?_table (dialect : Dialect) (names : List String) {entries : Record}
    (hnames : ∀ e ∈ entries, e.1 ∈ names) (honce : (entries.map (·.1)).Nodup) :
    record? dialect names (.table entries) = some entries := by
  have hall : entries.filter (fun e => names.contains e.1) = entries :=
    List.filter_eq_self.2 fun e he => List.contains_iff_mem.2 (hnames e he)
  rw [record?, hall, namedOnce, decide_eq_true honce]
  rfl

theorem Record.orElse_of_lookup {β : Type} {record : Record} {name : String} {d : Document}
    (h : record.lookup name = some d) (read : Document → Option β) (fallback : β) :
    record.orElse name read fallback = read d := by
  rw [Record.orElse, h]

end Document

open Document

namespace Field

variable {σ β : Type} {record : Record} {read : Document → Option β}

/-- Every field is read to the value that another record has. -/
theorem readAll_eq_some {fs : List (Field σ β)} {c : σ}
    (h : ∀ f ∈ fs, ∃ d, record.lookup f.name = some d ∧ read d = some (f.get c)) (s : σ) :
    readAll record read fs s = some (fs.foldl (fun s f => f.set (f.get c) s) s) := by
  induction fs generalizing s with
  | nil => rfl
  | cons f fs ih =>
    obtain ⟨d, hd, hread⟩ := h f List.mem_cons_self
    rw [readAll, Record.orElse_of_lookup hd, hread, List.foldl_cons]
    exact ih (fun f hf => h f (List.mem_cons_of_mem _ hf)) _

theorem readAll_eq_none {fs : List (Field σ β)} {f : Field σ β} (hf : f ∈ fs) {d : Document}
    (hd : record.lookup f.name = some d) (hread : read d = none) (s : σ) :
    readAll record read fs s = none := by
  induction fs generalizing s with
  | nil => cases hf
  | cons g fs ih =>
    rw [readAll]
    rcases List.mem_cons.1 hf with rfl | hf
    · rw [Record.orElse_of_lookup hd, hread]
      rfl
    · cases record.orElse g.name read (g.get s) with
      | none => rfl
      | some v => exact ih hf _

/-- What holds before holds behind all fields, if it stays when one of them takes a value that is read. -/
theorem readAll_keeps {P : σ → Prop} {fs : List (Field σ β)}
    (hread : ∀ f ∈ fs, ∀ d v s, read d = some v → P s → P (f.set v s))
    (hkeep : ∀ f ∈ fs, ∀ s, P s → P (f.set (f.get s) s)) {s s' : σ} (hs : P s)
    (h : readAll record read fs s = some s') : P s' := by
  induction fs generalizing s with
  | nil => exact Option.some.inj h ▸ hs
  | cons f fs ih =>
    simp only [readAll, Option.bind_eq_bind, Option.bind_eq_some_iff] at h
    obtain ⟨v, hv, h⟩ := h
    refine ih (fun f hf => hread f (List.mem_cons_of_mem _ hf))
      (fun f hf => hkeep f (List.mem_cons_of_mem _ hf)) ?_ h
    unfold Record.orElse at hv
    split at hv
    · exact hread f List.mem_cons_self _ v s hv hs
    · obtain rfl := Option.some.inj hv
      exact hkeep f List.mem_cons_self s hs

end Field

/-! ## Constants -/

/-- What a way through a notation does to a document: a number stays if it is one that the notation
keeps, and everything else stays where it is. -/
structure Carries (carry : Document → Document) (keeps : Float → Bool) : Prop where
  number : ∀ x, number? (carry (.number x)) = if keeps x then some x else none
  count : ∀ n : Nat, n ≤ lineCountLimit → natUpTo? lineCountLimit (carry (.integer n)) = some n
  text : ∀ s, carry (.text s) = .text s
  table : ∀ entries, carry (.table entries) = .table (entries.map fun e => (e.1, carry e.2))

section

variable {carry : Document → Document} {keeps : Float → Bool}

namespace Field

variable {σ β : Type}

/-- Numbers are read as they are, if the notation keeps every one of them. -/
theorem readAll_numbers (hcarry : Carries carry keeps) {record : Record}
    (honce : (record.map (·.1)).Nodup) {fs : List (Field σ Float)} {c : σ}
    (h : ∀ f ∈ fs, (f.name, carry (.number (f.get c))) ∈ record) (s : σ) :
    readAll record number? fs s = if fs.all (fun f => keeps (f.get c)) then
      some (fs.foldl (fun s f => f.set (f.get c) s) s) else none := by
  have hlookup {f : Field σ Float} (hf : f ∈ fs) := Document.lookup_of_mem honce (h f hf)
  split
  · next hall =>
    refine readAll_eq_some (fun f hf => ⟨_, hlookup hf, ?_⟩) s
    rw [hcarry.number, if_pos (List.all_eq_true.1 hall f hf)]
  · next hsome =>
    obtain ⟨f, hf, hkeeps⟩ : ∃ f ∈ fs, ¬ keeps (f.get c) = true := by
      simpa using hsome
    refine readAll_eq_none hf (hlookup hf) ?_ s
    rw [hcarry.number, if_neg hkeeps]

end Field

namespace CuttingConstants

theorem nodup_names : ((fields (α := Float)).map (·.name)).Nodup := by decide +kernel

/-- The constants that a notation keeps come back as they were. -/
theorem ofDocument?_carried (hcarry : Carries carry keeps) (dialect : Dialect)
    (c : CuttingConstants Float) :
    ofDocument? dialect (carry c.document)
      = if fields.all (fun f => keeps (f.get c)) then some c else none := by
  obtain ⟨entries, hentries⟩ : ∃ entries : Record,
      entries = fields.map fun f => (f.name, carry (.number (f.get c))) := ⟨_, rfl⟩
  have hcarried : carry c.document = .table entries := by
    rw [document, hcarry.table, List.map_map, hentries]
    rfl
  have hnames : entries.map (·.1) = (fields (α := Float)).map (·.name) := by
    rw [hentries, List.map_map]
    rfl
  have honce : (entries.map (·.1)).Nodup := hnames ▸ nodup_names
  have hrecord := record?_table dialect ((fields (α := Float)).map (·.name))
    (fun e he => hnames ▸ List.mem_map_of_mem he) honce
  have hmem : ∀ f ∈ fields, (f.name, carry (.number (f.get c))) ∈ entries := fun f hf =>
    hentries ▸ List.mem_map_of_mem (f := fun f => (f.name, carry (.number (f.get c)))) hf
  simp only [ofDocument?, hcarried, hrecord, Option.bind_eq_bind, Option.bind_some]
  exact Field.readAll_numbers hcarry honce hmem standard

end CuttingConstants

namespace CheckingConstants

theorem nodup_names :
    ((counts (α := Float)).map (·.name) ++ (fields (α := Float)).map (·.name)).Nodup := by
  decide +kernel

/-- The counts of lines are such as a file can hold. -/
structure Countable (c : CheckingConstants Float) : Prop where
  lookahead : c.lookaheadLines ≤ lineCountLimit
  context : c.contextLines ≤ lineCountLimit

theorem ofDocument?_carried (hcarry : Carries carry keeps) (dialect : Dialect)
    {c : CheckingConstants Float} (hcounts : c.Countable) :
    ofDocument? dialect (carry c.document)
      = if fields.all (fun f => keeps (f.get c)) then some c else none := by
  obtain ⟨entries, hentries⟩ : ∃ entries : Record,
      entries = (counts.map fun f => (f.name, carry (.integer (f.get c))))
        ++ fields.map fun f => (f.name, carry (.number (f.get c))) := ⟨_, rfl⟩
  have hcarried : carry c.document = .table entries := by
    rw [document, hcarry.table, List.map_append, List.map_map, List.map_map, hentries]
    rfl
  have hnames : entries.map (·.1)
      = (counts (α := Float)).map (·.name) ++ (fields (α := Float)).map (·.name) := by
    rw [hentries, List.map_append, List.map_map, List.map_map]
    rfl
  have honce : (entries.map (·.1)).Nodup := hnames ▸ nodup_names
  have hrecord := record?_table dialect
    ((counts (α := Float)).map (·.name) ++ (fields (α := Float)).map (·.name))
    (fun e he => hnames ▸ List.mem_map_of_mem he) honce
  have hmem : ∀ f ∈ fields, (f.name, carry (.number (f.get c))) ∈ entries := fun f hf =>
    hentries ▸ List.mem_append_right _
      (List.mem_map_of_mem (f := fun f => (f.name, carry (.number (f.get c)))) hf)
  have hcount : ∀ f ∈ counts, ∃ d, entries.lookup f.name = some d ∧
      natUpTo? lineCountLimit d = some (f.get c) := fun f hf => by
    refine ⟨_, Document.lookup_of_mem honce (hentries ▸ List.mem_append_left _
      (List.mem_map_of_mem (f := fun f => (f.name, carry (.integer (f.get c)))) hf)),
      hcarry.count _ ?_⟩
    simp only [counts, List.mem_cons, List.not_mem_nil, or_false] at hf
    rcases hf with rfl | rfl
    · exact hcounts.lookahead
    · exact hcounts.context
  simp only [ofDocument?, hcarried, hrecord, Option.bind_eq_bind, Option.bind_some,
    Field.readAll_eq_some hcount]
  exact Field.readAll_numbers hcarry honce hmem _

theorem countable_standard : (standard : CheckingConstants Float).Countable := ⟨by decide, by decide⟩

/-- No count that is read is too large. -/
theorem countable_of_ofDocument? {dialect : Dialect} {d : Document} {c : CheckingConstants Float}
    (h : ofDocument? dialect d = some c) : c.Countable := by
  simp only [ofDocument?, Option.bind_eq_bind, Option.bind_eq_some_iff] at h
  obtain ⟨record, -, s, hs, hc⟩ := h
  have hcount {n : Nat} {d : Document} (h : natUpTo? lineCountLimit d = some n) : n ≤ lineCountLimit := by
    unfold natUpTo? at h
    split at h
    · split at h
      · next hrange =>
        rw [← Option.some.inj h]
        omega
      · cases h
    · cases h
  have hcounts : s.Countable := by
    refine Field.readAll_keeps (fun f hf d v s hv hs => ?_) (fun f hf s hs => ?_)
      countable_standard hs
    all_goals
      simp only [counts, List.mem_cons, List.not_mem_nil, or_false] at hf
      rcases hf with rfl | rfl
    · exact ⟨hcount hv, hs.context⟩
    · exact ⟨hs.lookahead, hcount hv⟩
    · exact hs
    · exact hs
  refine Field.readAll_keeps (fun f hf d v s _ hs => ?_) (fun f hf s hs => ?_) hcounts hc
  all_goals
    simp only [fields, List.mem_cons, List.not_mem_nil, or_false] at hf
    rcases hf with rfl | rfl | rfl | rfl | rfl | rfl | rfl | rfl <;> exact ⟨hs.lookahead, hs.context⟩

end CheckingConstants

namespace Config

/-- The constants of both sets that are numbers. -/
def numbers (c : Config Float) : List Float :=
  CuttingConstants.fields.map (·.get c.generator) ++ CheckingConstants.fields.map (·.get c.verifier)

theorem all_numbers (c : Config Float) (keeps : Float → Bool) :
    c.numbers.all keeps = (CuttingConstants.fields.all (fun f => keeps (f.get c.generator)) &&
      CheckingConstants.fields.all fun f => keeps (f.get c.verifier)) := by
  rw [numbers, List.all_append, List.all_map, List.all_map]
  rfl

/-- Settings come back as they were if the notation keeps every number, and else not at all. -/
theorem ofDocument?_carried (hcarry : Carries carry keeps) (dialect : Dialect) {c : Config Float}
    (hcounts : c.verifier.Countable) :
    ofDocument? dialect (carry c.document) = if c.numbers.all keeps then some c else none := by
  obtain ⟨standardsPath, generator, verifier⟩ := c
  have hgenerator := CuttingConstants.ofDocument?_carried hcarry dialect generator
  have hverifier := CheckingConstants.ofDocument?_carried hcarry dialect (c := verifier) hcounts
  rw [all_numbers]
  generalize CuttingConstants.fields.all (fun f => keeps (f.get generator)) = first at hgenerator ⊢
  generalize CheckingConstants.fields.all (fun f => keeps (f.get verifier)) = second at hverifier ⊢
  have hread (record : Record) (hrecord : carry (document ⟨standardsPath, generator, verifier⟩) = .table record)
      (hnames : ∀ e ∈ record, e.1 ∈ ["standards_path", "generator", "verifier"])
      (honce : (record.map (·.1)).Nodup)
      (hpath : record.optional "standards_path" text? = some standardsPath)
      (hfirst : record.lookup "generator" = some (carry generator.document))
      (hsecond : record.lookup "verifier" = some (carry verifier.document)) :
      ofDocument? dialect (carry (document ⟨standardsPath, generator, verifier⟩))
        = if (first && second) = true then some ⟨standardsPath, generator, verifier⟩ else none := by
    simp only [ofDocument?, hrecord, record?_table dialect _ hnames honce, hpath,
      Record.orElse_of_lookup hfirst, Record.orElse_of_lookup hsecond, hgenerator, hverifier,
      Option.bind_eq_bind, Option.bind_some]
    cases first <;> cases second <;> rfl
  cases standardsPath with
  | none =>
    refine hread [("generator", carry generator.document), ("verifier", carry verifier.document)] ?_
      (by simp) (by simp) rfl rfl rfl
    rw [document, hcarry.table]
    rfl
  | some path =>
    refine hread [("standards_path", .text path), ("generator", carry generator.document),
      ("verifier", carry verifier.document)] ?_ (by simp) (by simp) rfl rfl rfl
    rw [document, hcarry.table, ← hcarry.text path]
    rfl

theorem countable_of_ofDocument? {dialect : Dialect} {d : Document} {c : Config Float}
    (h : ofDocument? dialect d = some c) : c.verifier.Countable := by
  simp only [ofDocument?, Option.bind_eq_bind, Option.bind_eq_some_iff] at h
  obtain ⟨record, -, path, -, generator, -, verifier, hverifier, hc⟩ := h
  rw [← Option.some.inj hc]
  unfold Record.orElse at hverifier
  split at hverifier
  · exact CheckingConstants.countable_of_ofDocument? hverifier
  · rw [← Option.some.inj hverifier]
    exact CheckingConstants.countable_standard

end Config

end

end SpacerTurning
