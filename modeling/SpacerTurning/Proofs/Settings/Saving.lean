import SpacerTurning.Settings.Load
import SpacerTurning.Proofs.Document.Json
import SpacerTurning.Proofs.Document.Toml.Read
import SpacerTurning.Proofs.Number.Lengths
import SpacerTurning.Proofs.Records.Settings

/-!
Settings that are written and loaded again.

Both notations have names, texts and counts as they are, and digits enough for every finite number.  They
differ in what is no finite number, which settings may hold without being rejected: one has a word for it,
and the other writes null, which is no number any more.
-/

namespace SpacerTurning

open Number

namespace SettingsFormat

/-- Numbers that are read again as they were written. -/
def keeps : SettingsFormat → Float → Bool
  | .toml, _ => true
  | .json, x => x.isFinite

/-- What is read of a document that was written. -/
def carried : SettingsFormat → Document → Document
  | .toml => id
  | .json => Json.carried

theorem carriedEntries_eq (entries : List (String × Document)) :
    Json.carriedEntries entries = entries.map fun e => (e.1, Json.carried e.2) := by
  induction entries with
  | nil => rfl
  | cons e entries ih => rw [Json.carriedEntries, ih, List.map_cons]

theorem natUpTo?_integer {n : Nat} (h : n ≤ lineCountLimit) :
    Document.natUpTo? lineCountLimit (.integer n) = some n := by
  rw [Document.natUpTo?, if_pos (by omega), Int.toNat_natCast]

theorem carries (format : SettingsFormat) : Carries format.carried format.keeps := by
  cases format with
  | toml =>
    refine ⟨fun _ => rfl, fun n hn => natUpTo?_integer hn, fun _ => rfl, fun entries => ?_⟩
    change Document.table entries = .table (entries.map id)
    rw [List.map_id]
  | json =>
    refine ⟨fun x => ?_, fun n hn => ?_, fun s => ?_, fun entries => ?_⟩
    · cases hx : x.isFinite <;> simp [carried, keeps, Json.carried, hx, Document.number?]
    · have hlimit : lineCountLimit = 18446744073709551615 := rfl
      have hword : Json.carriedInteger n = .integer n := if_pos (by omega)
      simp only [carried, Json.carried, hword, natUpTo?_integer hn]
    · simp only [carried, Json.carried]
    · simp only [carried, Json.carried, carriedEntries_eq]

end SettingsFormat

namespace Config

/-- The entries of settings. -/
def entries (c : Config Float) : List (String × Document) :=
  (c.standardsPath.map fun path => ("standards_path", Document.text path)).toList
    ++ [("generator", c.generator.document), ("verifier", c.verifier.document)]

/-- The names in every table of settings. -/
theorem bare_names : ∀ names ∈ [(CuttingConstants.fields (α := Float)).map (·.name),
    (CheckingConstants.counts (α := Float)).map (·.name)
      ++ (CheckingConstants.fields (α := Float)).map (·.name),
    ["generator", "verifier"], ["standards_path", "generator", "verifier"]],
    (names.all fun n => !n.toList.isEmpty && n.toList.all Toml.isBare) = true := by
  decide +kernel

theorem isNamed_generator (c : CuttingConstants Float) : Toml.AreNamed
    (CuttingConstants.fields.map fun f => (f.name, Document.number (f.get c))) :=
  Toml.areNamed_of_names ((CuttingConstants.fields (α := Float)).map (·.name))
    (by rw [List.map_map]; rfl) (bare_names _ (by simp)) CuttingConstants.nodup_names

theorem isNamed_verifier (c : CheckingConstants Float) : Toml.AreNamed
    ((CheckingConstants.counts.map fun f => (f.name, Document.integer (f.get c)))
      ++ CheckingConstants.fields.map fun f => (f.name, Document.number (f.get c))) :=
  Toml.areNamed_of_names ((CheckingConstants.counts (α := Float)).map (·.name)
      ++ (CheckingConstants.fields (α := Float)).map (·.name))
    (by rw [List.map_append, List.map_map, List.map_map]; rfl) (bare_names _ (by simp))
    CheckingConstants.nodup_names

/-- The names of settings need no quotes, and none is there twice in a table. -/
theorem isNamed_entries (c : Config Float) : Toml.IsNamed c.entries := by
  have hinner {n : String} {inner : List (String × Document)} (h : (n, .table inner) ∈
      [("generator", c.generator.document), ("verifier", c.verifier.document)]) :
      Toml.AreNamed inner := by
    rcases List.mem_pair.1 h with heq | heq
    · exact Document.table.inj (Prod.mk.inj heq).2 ▸ isNamed_generator c.generator
    · exact Document.table.inj (Prod.mk.inj heq).2 ▸ isNamed_verifier c.verifier
  unfold entries
  cases c.standardsPath with
  | none =>
    exact ⟨Toml.areNamed_of_names ["generator", "verifier"] rfl (bare_names _ (by simp))
      (by decide), fun n inner h => hinner h⟩
  | some path =>
    refine ⟨Toml.areNamed_of_names ["standards_path", "generator", "verifier"] rfl
      (bare_names _ (by simp)) (by decide), fun n inner h => ?_⟩
    rcases List.mem_cons.1 h with heq | h
    · cases (Prod.mk.inj heq).2
    · exact hinner h

theorem readBack {c : Config Float} {format : SettingsFormat} {text : String}
    (h : format.write c.document = some text) :
    format.read text = some (format.carried c.document) := by
  cases format with
  | json =>
    obtain rfl := Option.some.inj h
    exact Json.read_write c.document
  | toml =>
    have hread := Toml.read_write c.isNamed_entries h
    refine hread.trans ?_
    obtain ⟨standardsPath, generator, verifier⟩ := c
    cases standardsPath <;> rfl

/-! ## Loading -/

/-- What is loaded from a file in a session. -/
def loaded (s : Session) (p : Path) : Except FileFault (Config Float) :=
  ((load p : ExceptT FileFault (StateM Session) (Config Float)).run s).1

section

variable {s : Session} {p : Path} {c : Config Float}

/-- The settings in a text, if it holds any. -/
def ofText? (format : SettingsFormat) (text : String) : Option (Config Float) :=
  (format.read text).bind (ofDocument? format.dialect)

/-- A file is read in the format that its name tells, and then looked at. -/
theorem loaded_eq (s : Session) (p : Path) : loaded s p = match SettingsFormat.ofPath p with
    | .error fault => .error (.rejected fault)
    | .ok format => match s.files.readText s.here p with
      | .error fault => .error (.io fault)
      | .ok text => match ofText? format text with
        | none => .error (.malformed format)
        | some c => match c.fault? with
          | some fault => .error (.rejected fault)
          | none => .ok c := by
  unfold loaded load readSettings demandSound ofText?
  cases SettingsFormat.ofPath p with
  | error fault => rfl
  | ok format =>
    cases hread : s.files.readText s.here p with
    | error fault =>
      simp [ExceptT.run, ExceptT.mk, ExceptT.bind, ExceptT.bindCont, StateT.bind, StateT.pure, StateT.map,
        bind, pure, Functor.map, Except.mapError, Shell.readText, hread]
    | ok text =>
      cases hc : (format.read text).bind (ofDocument? format.dialect) with
      | none =>
        simp [ExceptT.run, ExceptT.mk, ExceptT.bind, ExceptT.bindCont, StateT.bind, StateT.pure,
          StateT.map, bind, pure, Functor.map, Except.mapError, Shell.readText, hread, hc, throw,
          throwThe, MonadExceptOf.throw]
      | some c =>
        cases hfault : c.fault? <;>
        simp [ExceptT.run, ExceptT.mk, ExceptT.bind, ExceptT.bindCont, ExceptT.pure, StateT.bind,
          StateT.pure, StateT.map, bind, pure, Functor.map, Except.mapError, Shell.readText, hread, hc,
          hfault, throw, throwThe, MonadExceptOf.throw]

theorem exists_of_loaded (h : loaded s p = .ok c) :
    c.verifier.Countable ∧ c.fault? = none := by
  rw [loaded_eq] at h
  split at h
  · cases h
  · next format _ =>
    split at h
    · cases h
    · next text _ =>
      split at h
      · cases h
      · next c' hc =>
        split at h
        · cases h
        · next hfault =>
          obtain rfl := Except.ok.inj h
          obtain ⟨d, -, hd⟩ := Option.bind_eq_some_iff.1 hc
          exact ⟨countable_of_ofDocument? hd, hfault⟩

/-- The text of settings holds these settings, if its format keeps their numbers, and else none. -/
theorem ofText?_text (hcounts : c.verifier.Countable) {format : SettingsFormat} {text : String}
    (h : c.text format = .ok text) :
    ofText? format text = if c.numbers.all format.keeps then some c else none := by
  have hwrite : format.write c.document = some text := by
    unfold Config.text at h
    split at h
    · cases h
    · split at h
      · next hwrite =>
        obtain rfl := Except.ok.inj h
        exact hwrite
      · cases h
  rw [ofText?, readBack hwrite, Option.bind_some]
  exact ofDocument?_carried format.carries format.dialect hcounts

end

/-! ## Equal settings -/

/-- Settings with equal fields.  What is no number is equal to nothing. -/
def equals (a b : Config Float) : Bool :=
  a.standardsPath == b.standardsPath &&
    CuttingConstants.fields.all (fun f => f.get a.generator == f.get b.generator) &&
    CheckingConstants.counts.all (fun f => f.get a.verifier == f.get b.verifier) &&
    CheckingConstants.fields.all fun f => f.get a.verifier == f.get b.verifier

theorem equals_self (c : Config Float) : c.equals c = c.numbers.all fun x => x == x := by
  have hcounts : CheckingConstants.counts.all (fun f => f.get c.verifier == f.get c.verifier) = true :=
    List.all_eq_true.2 fun _ _ => beq_self_eq_true _
  rw [all_numbers, equals, beq_self_eq_true, hcounts, Bool.true_and, Bool.and_true]

end Config

namespace SettingsFormat

/-- Numbers that are equal to what is read for them. -/
def returns : SettingsFormat → Float → Bool
  | .toml, x => !x.isNaN
  | .json, x => x.isFinite

theorem beq_self (x : Float) : (x == x) = !x.isNaN := by
  rw [Binary64.isNaN_eq, Bool.eq_iff_iff, Binary64.float_beq_iff, Bool.not_eq_true',
    Option.isNone_eq_false_iff, Option.isSome_iff_exists]
  simp

theorem returns_eq (format : SettingsFormat) (x : Float) :
    format.returns x = (format.keeps x && x == x) := by
  cases format with
  | toml => rw [beq_self]; rfl
  | json =>
    rw [beq_self]
    cases hx : x.isFinite with
    | true => simp only [returns, keeps, hx, Binary64.isNaN_of_isFinite hx, Bool.not_false, Bool.and_true]
    | false => simp only [returns, keeps, hx, Bool.false_and]

end SettingsFormat

/-! ## A file in a session -/

theorem fromUTF8?_toUTF8 (text : String) : String.fromUTF8? text.toUTF8 = some text := by
  rw [String.fromUTF8?, String.toUTF8_eq_toByteArray, dif_pos text.isValidUTF8]
  rfl

/-- A session with one file in the directory it works in. -/
def Session.ofFile (name text : String) : Session where
  files := { root := .file name text.toUTF8 .empty }
  here := []

/-- The file is found by its name, if that is no path to somewhere else. -/
theorem Session.readText_ofFile {name : String} (hstart : Files.start [] { text := name } = .ok [])
    (hsteps : Path.steps { text := name } = [name]) (hslash : Path.endsWithSlash { text := name } = false)
    (hname : name ≠ "." ∧ name ≠ ".." ∧ ¬ nameLimit < name.utf8ByteSize) (text : String) :
    (ofFile name text).files.readText (ofFile name text).here { text := name } = .ok text := by
  have hlocate : (ofFile name text).files.locate [] { text := name }
      = .ok [(name, some (.file text.toUTF8))] := by
    simp [Files.locate, hstart, hsteps, Files.follow, Files.enter, Files.reached, Files.trailTo, hname,
      Files.extend, Entry.get?, Directory.get?, ofFile]
  have hfound : (ofFile name text).files.find [] { text := name } = .ok (.file text.toUTF8) := by
    simp [Files.find, hlocate, Files.reached, hslash]
  change (ofFile name text).files.readText [] { text := name } = .ok text
  rw [Files.readText, Files.read, hfound]
  simp only [fromUTF8?_toUTF8]

section

variable {s t : Session} {p q : Path} {c : Config Float} {format : SettingsFormat} {text : String}

/-- Settings that were loaded are loaded again from their text, or not at all. -/
theorem Config.loaded_text (hload : loaded s p = .ok c) (htext : c.text format = .ok text)
    (hformat : SettingsFormat.ofPath q = .ok format) (hread : t.files.readText t.here q = .ok text) :
    loaded t q = if c.numbers.all format.keeps then .ok c else .error (.malformed format) := by
  obtain ⟨hcounts, hfault⟩ := exists_of_loaded hload
  rw [loaded_eq, hformat]
  simp only [hread, ofText?_text hcounts htext]
  by_cases hkeeps : c.numbers.all format.keeps = true
  · simp only [if_pos hkeeps, hfault]
  · simp only [if_neg hkeeps]

/-- Settings that were loaded survive being written and loaded again if and only if the format returns
every number in them. -/
theorem Config.survives_iff (hload : loaded s p = .ok c) (htext : c.text format = .ok text)
    (hformat : SettingsFormat.ofPath q = .ok format) (hread : t.files.readText t.here q = .ok text) :
    (∃ again, loaded t q = .ok again ∧ again.equals c = true) ↔
      ∀ x ∈ c.numbers, format.returns x = true := by
  have hall : (∀ x ∈ c.numbers, format.returns x = true) ↔
      c.numbers.all format.keeps = true ∧ c.equals c = true := by
    simp only [equals_self, List.all_eq_true, SettingsFormat.returns_eq, Bool.and_eq_true, forall_and]
  rw [hall, loaded_text hload htext hformat hread]
  constructor
  · rintro ⟨again, hok, hequals⟩
    split at hok
    · next hkeeps =>
      obtain rfl := Except.ok.inj hok
      exact ⟨hkeeps, hequals⟩
    · cases hok
  · rintro ⟨hkeeps, hequals⟩
    exact ⟨c, if_pos hkeeps, hequals⟩

end

/-- The names of files of settings are no paths to somewhere else, and tell the format. -/
theorem Config.plain_fileNames : ∀ file ∈ [("config.toml", SettingsFormat.toml), ("config.json", .json)],
    Path.steps { text := file.1 } = [file.1] ∧ Path.endsWithSlash { text := file.1 } = false ∧
      (file.1 ≠ "." ∧ file.1 ≠ ".." ∧ ¬ nameLimit < file.1.utf8ByteSize) ∧
      SettingsFormat.ofPath { text := file.1 } = .ok file.2 := by
  decide +kernel

theorem Config.readText_toml (text : String) : (Session.ofFile "config.toml" text).files.readText
    (Session.ofFile "config.toml" text).here { text := "config.toml" } = .ok text :=
  have ⟨hsteps, hslash, hname, _⟩ := plain_fileNames ("config.toml", .toml) (.head _)
  Session.readText_ofFile rfl hsteps hslash hname text

theorem Config.readText_json (text : String) : (Session.ofFile "config.json" text).files.readText
    (Session.ofFile "config.json" text).here { text := "config.json" } = .ok text :=
  have ⟨hsteps, hslash, hname, _⟩ := plain_fileNames ("config.json", .json) (.tail _ (.head _))
  Session.readText_ofFile rfl hsteps hslash hname text

/-- Settings that a text holds are loaded from a file with it, if they are accepted. -/
theorem Config.loaded_toml {text : String} {c : Config Float} (htext : ofText? .toml text = some c)
    (hfault : c.fault? = none) :
    loaded (Session.ofFile "config.toml" text) { text := "config.toml" } = .ok c := by
  have hformat : SettingsFormat.ofPath { text := "config.toml" } = .ok .toml :=
    (plain_fileNames ("config.toml", .toml) (.head _)).2.2.2
  rw [loaded_eq, hformat]
  simp only [readText_toml, htext, hfault]

/-- The settings of the shop come from an empty file, and survive. -/
theorem Config.survives_iff_standard :
    loaded (Session.ofFile "config.toml" "") { text := "config.toml" } = .ok standard ∧
      ∃ text, (standard : Config Float).text .toml = .ok text ∧
        (∀ x ∈ (standard : Config Float).numbers, SettingsFormat.toml.returns x = true) ∧
        ∃ again, loaded (Session.ofFile "config.toml" text) { text := "config.toml" } = .ok again ∧
          again.equals standard = true := by
  have hfault : (standard : Config Float).fault? = none := by decide +kernel
  have hformat : SettingsFormat.ofPath { text := "config.toml" } = .ok .toml := by decide +kernel
  have hload : loaded (Session.ofFile "config.toml" "") { text := "config.toml" } = .ok standard :=
    loaded_toml rfl hfault
  have hwritable : (Toml.write (standard : Config Float).document).isSome = true := by decide +kernel
  obtain ⟨text, hwrite⟩ := Option.isSome_iff_exists.1 hwritable
  have htext : (standard : Config Float).text .toml = .ok text := by
    rw [Config.text, hfault]
    simp only [SettingsFormat.write, hwrite]
  have hreturns : ∀ x ∈ (standard : Config Float).numbers, SettingsFormat.toml.returns x = true := by
    decide +kernel
  exact ⟨hload, text, htext, hreturns,
    (survives_iff hload htext hformat (readText_toml text)).2 hreturns⟩

/-- The settings of the shop with another depth of the surface. -/
def Config.ofSurfaceDepth (x : Float) : Config Float :=
  { standard with verifier := { CheckingConstants.standard with boreSurfaceDepth := x } }

/-- A text that sets one constant is what is written for that entry. -/
theorem Config.read_constant (text : String) {block name : String} {x : Float}
    (hblock : Toml.AreNamed [(block, .table [(name, .number x)])])
    (hname : Toml.AreNamed [(name, .number x)])
    (hwrite : Toml.write (.table [(block, .table [(name, .number x)])]) = some text) :
    Toml.read text = some (.table [(block, .table [(name, .number x)])]) := by
  refine Toml.read_write ⟨hblock, fun n inner h => ?_⟩ hwrite
  obtain rfl := Document.table.inj (Prod.mk.inj (List.mem_singleton.1 h)).2
  exact hname

theorem Config.ofText?_toml (text : String) :
    ofText? .toml text = (Toml.read text).bind (ofDocument? Toml.dialect) := rfl

theorem Config.ofDocument?_surfaceDepth (x : Float) : ofDocument? Toml.dialect
    (.table [("verifier", .table [("bore_surface_depth", .number x)])]) = some (ofSurfaceDepth x) := rfl

/-- Settings with an infinity are accepted, and what is written of them in the other format is not. -/
theorem Config.not_survives_of_infinity : ∃ c text,
    loaded (Session.ofFile "config.toml" "[verifier]\nbore_surface_depth = inf\n")
      { text := "config.toml" } = .ok c ∧ c.text .json = .ok text ∧
    ¬ ∃ again, loaded (Session.ofFile "config.json" text) { text := "config.json" } = .ok again ∧
      again.equals c = true := by
  obtain ⟨c, hc⟩ : ∃ c, c = ofSurfaceDepth (1.0 / 0.0) := ⟨_, rfl⟩
  have hfault : c.fault? = none := by
    rw [hc]
    decide +kernel
  have hnumbers : ¬ c.numbers.all SettingsFormat.json.keeps = true := by
    rw [hc]
    decide +kernel
  have hsettings : ofText? .toml "[verifier]\nbore_surface_depth = inf\n" = some c := by
    have hread := read_constant "[verifier]\nbore_surface_depth = inf\n" (x := 1.0 / 0.0)
      (Toml.areNamed_of_names ["verifier"] rfl (by decide +kernel) (by decide))
      (Toml.areNamed_of_names ["bore_surface_depth"] rfl (by decide +kernel) (by decide))
      (by decide +kernel)
    rw [ofText?_toml, hread, Option.bind_some, ofDocument?_surfaceDepth, hc]
  have hload : loaded (Session.ofFile "config.toml" "[verifier]\nbore_surface_depth = inf\n")
      { text := "config.toml" } = .ok c := loaded_toml hsettings hfault
  have htext : c.text .json = .ok (Json.write c.document) := by
    rw [Config.text, hfault]
    rfl
  have hformat : SettingsFormat.ofPath { text := "config.json" } = .ok .json := by decide +kernel
  refine ⟨c, _, hload, htext, ?_⟩
  rintro ⟨again, hagain, -⟩
  rw [loaded_text hload htext hformat (readText_json _), if_neg hnumbers] at hagain
  cases hagain

end SpacerTurning
