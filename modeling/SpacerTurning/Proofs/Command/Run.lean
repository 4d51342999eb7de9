import Mathlib.Data.List.Basic
import SpacerTurning.Command.Run
import SpacerTurning.Proofs.Storage.Shell

/-!
What commands leave of the files.

Commands read first and write last.  A program is checked and made before anything is written, and what is
written goes to one place.  Only for settings something is made on the way, the directories that the path
leads through, after it was looked at whether there is a file to be replaced.  That changes no file, but it
can change where a path with a step back leads.
-/

namespace SpacerTurning

open SpacerTurning.Action

/-! ## Reading -/

theorem keeps_readSettings {β : Type} (ofDocument? : Dialect → Document → Option β) (p : Path) :
    Keeps id (readSettings ofDocument? p : Action FileFault β) := by
  refine .bind (fun _ => rfl) fun format => .bind (fun _ => rfl) fun text => ?_
  split
  · exact .pure _ _
  · exact .throw _ _

theorem keeps_demandSound (fault? : Option (SettingsFault Float)) :
    Keeps id (demandSound fault? : Action FileFault Unit) := by
  cases fault? with
  | none => exact .pure _ _
  | some fault => exact .throw _ _

theorem Config.keeps_load (p : Path) : Keeps id (Config.load p : Action FileFault (Config Float)) :=
  .bind (keeps_readSettings _ p) fun c => .bind (keeps_demandSound c.fault?) fun _ => .pure _ _

theorem Config.keeps_loadOrStandard (p : Path) :
    Keeps id (Config.loadOrStandard p : Action FileFault (Config Float)) := by
  refine .bind (fun _ => rfl) fun there => ?_
  split
  · exact keeps_load p
  · exact .pure _ _

theorem Config.keeps_loadStandards (c : Config Float) :
    Keeps id (c.loadStandards : Action FileFault (Standards Float)) := by
  unfold loadStandards
  split
  · exact .pure _ _
  · exact .bind (keeps_readSettings _ _) fun s => .bind (keeps_demandSound s.fault?) fun _ => .pure _ _

theorem Report.fixedText_ofText (c : CheckingConstants Float) (standards : Standards Float)
    (text : String) (facts : Option (PartFacts Float)) :
    (ofText c standards text facts).fixedText = ((FixChain.standard c).run text).fixedText := by
  dsimp only [ofText, ofChain]

/-- Lines are compared before a text is made of them. -/
theorem FixChain.runLines_ne_of_fixedText {chain : FixChain Float} {text fixed : String}
    (h : (chain.run text).fixedText = some fixed) :
    (chain.runLines (Text.splitLines text)).1 ≠ Text.splitLines text := by
  unfold run at h
  dsimp only at h
  split at h
  · cases h
  · assumption

namespace Run

theorem keeps_loadConfig (usual named : Option Path) :
    Keeps id (loadConfig usual named : Action RunFault (Config Float)) := by
  unfold loadConfig
  split
  · exact (Config.keeps_load _).mapError _
  · exact (Config.keeps_loadOrStandard _).mapError _
  · exact .pure _ _

theorem keeps_loadStandards (c : Config Float) :
    Keeps id (loadStandards c : Action RunFault (Standards Float)) :=
  (Config.keeps_loadStandards c).mapError _

/-! ## Making a program -/

theorem keeps_tellFindings (c : CheckingConstants Float) (s : Standards Float) (p : Part Float)
    (text : String) : Keeps (·.files) (tellFindings c s p text : Action RunFault Outcome) :=
  .bind (fun _ => rfl) fun _ => .pure _ _

theorem failsClean_deliver (output : Option Path) (text : String) :
    FailsClean (deliver output text : Action RunFault Unit) := by
  unfold deliver
  split
  · next path =>
    intro s fault h
    show (s.keep (s.files.write s.here path text.toUTF8)).2.files = s.files
    have hresult : (s.keep (s.files.write s.here path text.toUTF8)).1.mapError (.writeFile path)
        = .error fault := h
    cases hwrite : s.files.write s.here path text.toUTF8 with
    | ok files =>
      rw [hwrite] at hresult
      cases hresult
    | error fault => rfl
  · exact Keeps.failsClean fun _ => rfl

/-- A program is delivered last, and all that comes before keeps the files. -/
theorem failsClean_generate (c : Config Float) (making : Making) :
    FailsClean (generate c making : Action RunFault Outcome) := by
  refine .bind (fun s => ?_) fun s => .bind (fun _ => rfl) fun order => .bind (fun _ => rfl) fun p =>
    .bind (fun _ => rfl) fun made => ?_
  · exact congrArg Session.files (keeps_loadStandards c s)
  · have hdeliver (outcome : Outcome) := (failsClean_deliver making.output made.text).bind_pure
      fun _ => outcome
    split
    · exact .bind (keeps_tellFindings _ s p _) hdeliver
    · exact .bind (.pure _ _) hdeliver

/-! ## Checking a program -/

theorem keeps_readProgram (file : Path) :
    Keeps (fun s => (s.files, s.here)) (readProgram file : Action RunFault String) := by
  unfold readProgram
  split
  · exact fun _ => rfl
  · exact fun _ => rfl

theorem exists_of_writeText_changed {path : Path} {text : String} {s : Session} {place : Place}
    (h : (s.keep (s.files.write s.here path text.toUTF8)).2.files.fileAt? place
      ≠ s.files.fileAt? place) :
    ∃ trail, s.files.writable s.here path = .ok trail ∧ place = trail.place := by
  cases hwrite : s.files.write s.here path text.toUTF8 with
  | error fault =>
    rw [hwrite] at h
    exact absurd rfl h
  | ok files =>
    rw [hwrite] at h
    obtain ⟨trail, htrail, honly⟩ := Files.fileAt?_write hwrite
    exact ⟨trail, htrail, honly place h⟩

/-- What is written is what the passes made of the program that was read, where they changed a line. -/
theorem exists_of_verify_changed {c : Config Float} {checking : Checking} {s : Session} {place : Place}
    (h : (after (verify c checking) s).files.fileAt? place ≠ s.files.fileAt? place) :
    ∃ path text trail, checking.fix = some path ∧
      result (readProgram checking.file) s = .ok text ∧
      ((FixChain.standard c.verifier).runLines (Text.splitLines text)).1 ≠ Text.splitLines text ∧
      s.files.writable s.here path = .ok trail ∧ place = trail.place := by
  let look := fun s : Session => s.files.fileAt? place
  have hsame : after (loadStandards c : Action RunFault _) s = s := keeps_loadStandards c s
  obtain ⟨standards, -, h⟩ := exists_of_changed look
    ((keeps_loadStandards c).told look) h
  rw [hsame] at h
  obtain ⟨text, htext, h⟩ := exists_of_changed look
    ((keeps_readProgram checking.file).told fun kept => kept.1.fileAt? place) h
  obtain ⟨hfiles, hhere⟩ := Prod.mk.inj (keeps_readProgram checking.file s)
  obtain ⟨-, -, h⟩ := exists_of_changed look (fun _ => rfl) h
  dsimp only at h
  split at h
  · next path fixed hfix hfixed =>
    rw [after_bind_pure] at h
    obtain ⟨trail, htrail, hplace⟩ := exists_of_writeText_changed h
    have hwritable : s.files.writable s.here path = .ok trail := by
      rw [← hfiles, ← hhere]
      exact htrail
    rw [Report.fixedText_ofText] at hfixed
    exact ⟨path, text, trail, hfix, htext, FixChain.runLines_ne_of_fixedText hfixed, hwritable, hplace⟩
  · exact absurd (Keeps.pure look _ _) h

end Run

/-! ## Writing settings down -/

theorem Session.after_makeParents (s : Session) (p : Path) :
    ((Shell.makeParents p : StateM Session (Except IoFault Unit)) s).2
      = { s with files := (s.files.makeParents s.here p).1 } := by
  simp only [Shell.makeParents]
  split
  · next hmade => rw [hmade]
  · next hmade => rw [hmade]

namespace Config

theorem exists_of_save_changed {c : Config Float} {p : Path} {s : Session} {place : Place}
    (h : (after (c.save p) s).files.fileAt? place ≠ s.files.fileAt? place) :
    ∃ trail, (s.files.makeParents s.here p).1.writable s.here p = .ok trail ∧ place = trail.place := by
  let look := fun s : Session => s.files.fileAt? place
  obtain ⟨format, -, h⟩ := exists_of_changed look (fun _ => rfl) h
  obtain ⟨text, -, h⟩ := exists_of_changed look (fun _ => rfl) h
  have hparents : Keeps look (ExceptT.mk (Except.mapError FileFault.io <$> Shell.makeParents p)) := by
    intro s
    show ((Shell.makeParents p : StateM Session (Except IoFault Unit)) s).2.files.fileAt? place = _
    rw [s.after_makeParents]
    exact Files.fileAt?_makeParents s.files s.here p place
  obtain ⟨-, -, h⟩ := exists_of_changed look hparents h
  have hmade : after (ExceptT.mk (Except.mapError FileFault.io <$> Shell.makeParents p)) s
      = { s with files := (s.files.makeParents s.here p).1 } := s.after_makeParents p
  change look (after _ (after _ s)) ≠ look (after _ s) at h
  rw [hmade] at h
  exact Run.exists_of_writeText_changed h

/-- What is asked of the files fails for a reason that they have. -/
theorem exists_io_of_error {β : Type} {x : StateM Session (Except IoFault β)} {s : Session}
    {fault : FileFault} (h : result (ExceptT.mk (Except.mapError FileFault.io <$> x)) s = .error fault) :
    ∃ io, fault = .io io := by
  have hx : (x s).1.mapError FileFault.io = .error fault := h
  cases hresult : (x s).1 with
  | ok b => rw [hresult] at hx; cases hx
  | error io => rw [hresult] at hx; exact ⟨io, (Except.error.inj hx).symm⟩

theorem save_of_ofPath {p : Path} {format : SettingsFormat} (h : SettingsFormat.ofPath p = .ok format)
    (c : Config Float) : c.save p = (do
      let text ← ExceptT.mk (pure (c.text format))
      ExceptT.mk (Except.mapError .io <$> Shell.makeParents p)
      ExceptT.mk (Except.mapError .io <$> Shell.writeText p text) : Action FileFault Unit) := by
  unfold save
  rw [h]
  rfl

/-- Settings that are not written for another reason than the files leave them alone. -/
theorem after_save {c : Config Float} {p : Path} {s : Session} {fault : FileFault}
    (h : result (c.save p) s = .error fault) (hio : ∀ io, fault ≠ .io io) : after (c.save p) s = s := by
  cases hformat : SettingsFormat.ofPath p with
  | error rejected =>
    unfold save
    rw [hformat]
    rfl
  | ok format =>
    rw [save_of_ofPath hformat] at h ⊢
    cases htext : c.text format with
    | error unwritten => rfl
    | ok text =>
      have hsave : result (ExceptT.mk (Except.mapError FileFault.io <$> Shell.makeParents p)
          >>= fun _ => ExceptT.mk (Except.mapError FileFault.io <$> Shell.writeText p text)) s
          = .error fault := by
        rw [htext] at h
        exact h
      have hfault : ∃ io, fault = .io io := by
        rw [result_bind] at hsave
        split at hsave
        · exact exists_io_of_error hsave
        · next hmade => exact exists_io_of_error (hmade.trans hsave)
      obtain ⟨io, hfault⟩ := hfault
      exact absurd hfault (hio io)

end Config

namespace Run

/-- Without leave to replace a file, settings replace one where a path with steps back led to nothing
until directories were made. -/
theorem exists_of_initConfig_changed {path : Option Path} {s : Session} {place : Place}
    {content : ByteArray} (hfile : s.files.fileAt? place = some content)
    (h : (after (initConfig path false) s).files.fileAt? place ≠ some content) :
    ∃ p trail, path = some p ∧ s.files.holds s.here p = false ∧ ".." ∈ p.steps ∧
      (s.files.makeParents s.here p).1.writable s.here p = .ok trail ∧ place = trail.place := by
  rw [← hfile] at h
  let look := fun s : Session => s.files.fileAt? place
  unfold initConfig at h
  cases path with
  | none => exact absurd (Keeps.throw look _ _) h
  | some p =>
    obtain ⟨there, hthere, h⟩ := exists_of_changed look (fun _ => rfl) h
    obtain rfl : s.files.holds s.here p = there := Except.ok.inj hthere
    dsimp only at h
    split at h
    · rw [after_bind] at h
      exact absurd rfl h
    · next hthere =>
      have hholds : s.files.holds s.here p = false := by simpa using hthere
      have hsave := changed_of_bind look (fun _ => .bind (fun _ => rfl) fun _ => .pure _ _) h
      obtain ⟨trail, htrail, hplace⟩ := Config.exists_of_save_changed (s := s) hsave
      have hback : ".." ∈ p.steps := by
        refine Decidable.byContradiction fun hforward => ?_
        rw [hplace] at hfile
        rw [Files.holds_of_writable (Files.fileAt?_makeParents s.files s.here p) hforward htrail hfile]
          at hholds
        cases hholds
      exact ⟨p, trail, rfl, hholds, hback, htrail, hplace⟩

end Run

namespace Request

/-- How a request ends. -/
def ends (usual : Option Path) (r : Request) (s : Session) : Except RunFault Outcome :=
  result (r.run usual) s

/-- The session that a request leaves. -/
def leaves (usual : Option Path) (r : Request) (s : Session) : Session :=
  after (r.run usual : Action RunFault Outcome) s

variable {usual : Option Path} {r : Request} {s : Session} {place : Place}

theorem files_of_generate {making : Making} {fault : RunFault} (hcommand : r.command = .generate making)
    (h : r.ends usual s = .error fault) : (r.leaves usual s).files = s.files := by
  have hrun : (r.run usual : Action RunFault Outcome)
      = Run.loadConfig usual r.config >>= fun c => Run.generate c making := by
    unfold run
    rw [hcommand]
  unfold ends at h
  unfold leaves
  rw [hrun] at h ⊢
  have hclean : FailsClean (Run.loadConfig usual r.config >>= fun c => Run.generate c making) :=
    .bind ((Run.keeps_loadConfig usual r.config).told _) fun c => Run.failsClean_generate c making
  exact hclean s fault h

theorem exists_of_verify {checking : Checking} (hcommand : r.command = .verify checking)
    (h : (r.leaves usual s).files.fileAt? place ≠ s.files.fileAt? place) :
    ∃ c text path trail, result (Run.loadConfig usual r.config) s = .ok c ∧
      result (Run.readProgram checking.file) s = .ok text ∧
      ((FixChain.standard c.verifier).runLines (Text.splitLines text)).1 ≠ Text.splitLines text ∧
      checking.fix = some path ∧ s.files.writable s.here path = .ok trail ∧ place = trail.place := by
  have hrun : (r.run usual : Action RunFault Outcome)
      = Run.loadConfig usual r.config >>= fun c => Run.verify c checking := by
    unfold run
    rw [hcommand]
  have hload : after (Run.loadConfig usual r.config : Action RunFault _) s = s :=
    Run.keeps_loadConfig usual r.config s
  let look := fun s : Session => s.files.fileAt? place
  unfold leaves at h
  rw [hrun] at h
  obtain ⟨c, hc, h⟩ := exists_of_changed look
    ((Run.keeps_loadConfig usual r.config).told look) h
  rw [hload] at h
  obtain ⟨path, text, trail, hfix, htext, hlines, htrail, hplace⟩ := Run.exists_of_verify_changed h
  exact ⟨c, text, path, trail, hc, htext, hlines, hfix, htrail, hplace⟩

theorem exists_of_initConfig {path : Option Path} {content : ByteArray}
    (hcommand : r.command = .initConfig path false) (hfile : s.files.fileAt? place = some content)
    (h : (r.leaves usual s).files.fileAt? place ≠ some content) :
    ∃ p trail, (path <|> r.config <|> usual) = some p ∧ s.files.holds s.here p = false ∧
      ".." ∈ p.steps ∧ (s.files.makeParents s.here p).1.writable s.here p = .ok trail ∧
      place = trail.place := by
  have hrun : (r.run usual : Action RunFault Outcome)
      = Run.initConfig (path <|> r.config <|> usual) false := by
    unfold run
    rw [hcommand]
  unfold leaves at h
  rw [hrun] at h
  exact Run.exists_of_initConfig_changed hfile h

/-- A program that could not be made leaves the files as they were.  Checking a program changes no file but
the one for what it should be, and that only where a line is another.  Settings that are written down
replace a file without leave only where the path has a step back, and led to nothing until directories were
made.  Settings that have a fault, or that no format takes, leave everything as it was. -/
theorem files_after (usual : Option Path) (r : Request) (s : Session) :
    (∀ making fault, r.command = .generate making → r.ends usual s = .error fault →
      (r.leaves usual s).files = s.files) ∧
    (∀ checking place, r.command = .verify checking →
      (r.leaves usual s).files.fileAt? place ≠ s.files.fileAt? place →
      ∃ c text path trail, result (Run.loadConfig usual r.config) s = .ok c ∧
        result (Run.readProgram checking.file) s = .ok text ∧
        ((FixChain.standard c.verifier).runLines (Text.splitLines text)).1 ≠ Text.splitLines text ∧
        checking.fix = some path ∧ s.files.writable s.here path = .ok trail ∧ place = trail.place) ∧
    (∀ path place content, r.command = .initConfig path false →
      s.files.fileAt? place = some content →
      (r.leaves usual s).files.fileAt? place ≠ some content →
      ∃ p trail, (path <|> r.config <|> usual) = some p ∧ s.files.holds s.here p = false ∧
        ".." ∈ p.steps ∧ (s.files.makeParents s.here p).1.writable s.here p = .ok trail ∧
        place = trail.place) ∧
    ∀ (c : Config Float) p fault, result (c.save p) s = .error fault → (∀ io, fault ≠ .io io) →
      after (c.save p : Action FileFault Unit) s = s :=
  ⟨fun _ _ => files_of_generate, fun _ _ => exists_of_verify, fun _ _ _ => exists_of_initConfig,
    fun _ _ _ => Config.after_save⟩

-- File contents are compared by the core instance, also where a richer library is in scope.
attribute [local instance (high)] ByteArray.instDecidableEq

/-- A program and an empty file of settings. -/
def shop : Session where
  files := { root := .file "a.nc" "G00 X3. Z0.2\nZ-0.5".toUTF8 (.file "b.toml" "".toUTF8 .empty) }
  here := []

/-- An order without a number, for the file that the program is in. -/
def nameless : Request where
  config := none
  command := .generate { order := {}, output := some { text := "a.nc" } }

def mending : Request where
  config := none
  command := .verify { file := { text := "a.nc" }, fix := some { text := "c.nc" } }

/-- The settings, by way of a directory that is not there. -/
def stepBack : Request where
  config := none
  command := .initConfig (some { text := "a/../b.toml" }) false

theorem replaces_stepBack : shop.files.fileAt? ["b.toml"] = some "".toUTF8 ∧
    (stepBack.leaves none shop).files.fileAt? ["b.toml"] ≠ some "".toUTF8 := by
  decide +kernel

/-- The first request fails, the second writes what the program should be, the third replaces the settings,
and a name that tells no format is not saved under. -/
theorem files_after_shop :
    (nameless.leaves none shop).files = shop.files ∧
      (∃ trail, shop.files.writable shop.here { text := "c.nc" } = .ok trail ∧ ["c.nc"] = trail.place) ∧
      (shop.files.holds shop.here { text := "a/../b.toml" } = false ∧
        ".." ∈ Path.steps { text := "a/../b.toml" }) ∧
      after (Config.save .standard { text := "d/c.txt" } : Action FileFault Unit) shop = shop := by
  have hfails : nameless.ends none shop = .error (.part (.invalid .programNumber .required)) := by
    decide +kernel
  have hmends : (mending.leaves none shop).files.fileAt? ["c.nc"] ≠ shop.files.fileAt? ["c.nc"] := by
    decide +kernel
  have hunsaved : result (Config.save .standard { text := "d/c.txt" }) shop
      = .error (.rejected (.unsupportedFormat (some "txt"))) := by
    decide +kernel
  obtain ⟨hfile, hreplaces⟩ := replaces_stepBack
  obtain ⟨c, text, path, trail, -, -, -, hfix, hwritable, hplace⟩ :=
    (files_after none mending shop).2.1 _ _ rfl hmends
  obtain rfl := Option.some.inj hfix
  obtain ⟨p, -, hp, hholds, hback, -⟩ := (files_after none stepBack shop).2.2.1 _ _ _ rfl hfile hreplaces
  obtain rfl := Option.some.inj hp
  refine ⟨(files_after none nameless shop).1 _ _ rfl hfails, ⟨trail, hwritable, hplace⟩,
    ⟨hholds, hback⟩, (files_after none stepBack shop).2.2.2 _ _ _ hunsaved fun io h => ?_⟩
  cases h

/-- A file changes without leave to replace it. -/
theorem not_files_after_of_stepBack : ∃ (r : Request) (path : Option Path) (s : Session) (place : Place)
    (content : ByteArray), r.command = .initConfig path false ∧
      s.files.fileAt? place = some content ∧ (r.leaves none s).files.fileAt? place ≠ some content :=
  ⟨stepBack, some { text := "a/../b.toml" }, shop, ["b.toml"], "".toUTF8, rfl, replaces_stepBack⟩

end Request
end SpacerTurning
