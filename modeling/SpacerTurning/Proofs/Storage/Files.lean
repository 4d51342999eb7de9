import SpacerTurning.Storage.Files

/-!
What operations leave of the files.

Files are told apart by their places.  What is put at the end of a trail is seen there and below, and
nowhere else, as long as the trail leads through directories, as one that was followed does.  So a file
that is written is the only one that changes, and none does when directories are made.
-/

namespace SpacerTurning
namespace Entry

/-- What is found where names lead, the last one first, from what was found. -/
def below? (found : Option Entry) (names : Place) : Option Entry :=
  names.foldr (fun name found => found.bind (·.get? name)) found

/-- The content of what was found, if it is a file. -/
def content? : Option Entry → Option ByteArray
  | some (.file content) => some content
  | _ => none

theorem below?_append (found : Option Entry) (names above : Place) :
    below? found (names ++ above) = below? (below? found above) names := List.foldr_append

theorem below?_none (names : Place) : below? none names = none := by
  induction names with
  | nil => rfl
  | cons name names ih =>
    show (below? none names).bind _ = none
    rw [ih]
    rfl

/-- There is nothing below what has nothing in it. -/
theorem below?_eq_none {found : Option Entry} (hbare : ∀ name, found.bind (·.get? name) = none)
    {names : Place} (hnames : names ≠ []) : below? found names = none := by
  rw [← List.dropLast_concat_getLast hnames, below?_append]
  show below? (found.bind (·.get? (names.getLast hnames))) _ = none
  rw [hbare, below?_none]

end Entry

namespace Files

variable {files made : Files} {here place : Place} {trail : Trail}

/-- The content of the file at a place, if there is one. -/
def fileAt? (files : Files) (place : Place) : Option ByteArray := Entry.content? (files.entryAt? place)

theorem entryAt?_append (files : Files) (names above : Place) :
    files.entryAt? (names ++ above) = Entry.below? (files.entryAt? above) names := by
  induction names with
  | nil => rfl
  | cons name names ih =>
    show (files.entryAt? (names ++ above)).bind _ = (Entry.below? _ names).bind _
    rw [ih]

theorem entryAt?_eq_below? (files : Files) (place : Place) :
    files.entryAt? place = Entry.below? (some (.directory files.root)) place := by
  have h := files.entryAt?_append place []
  rwa [List.append_nil] at h

theorem entryAt?_of_fileAt? {content : ByteArray} (h : files.fileAt? place = some content) :
    files.entryAt? place = some (.file content) := by
  unfold fileAt? Entry.content? at h
  split at h
  · next content' hentry => rw [hentry, Option.some.inj h]
  · cases h

theorem enter_eq_ok : files.enter trail = .ok () ↔ ∃ d, files.reached trail = some (.directory d) := by
  unfold enter
  split <;> simp [*]

/-! ## Trails -/

/-- A trail that leads through directories, each step to what stands there. -/
def IsTrail (files : Files) : Trail → Prop
  | [] => True
  | step :: above =>
    files.enter above = .ok () ∧ step :: above = files.extend above step.1 ∧ files.IsTrail above

theorem place_trailTo (files : Files) (place : Place) : (files.trailTo place).place = place := by
  induction place with
  | nil => rfl
  | cons name above ih =>
    show name :: (files.trailTo above).place = name :: above
    rw [ih]

/-- Who is in a directory came there through directories. -/
theorem isTrail_trailTo (h : files.enter (files.trailTo place) = .ok ()) :
    files.IsTrail (files.trailTo place) := by
  induction place with
  | nil => trivial
  | cons name above ih =>
    have habove : files.enter (files.trailTo above) = .ok () := by
      obtain ⟨d, hd⟩ := enter_eq_ok.1 h
      obtain ⟨entry, hentry, hget⟩ := Option.bind_eq_some_iff.1 hd
      rw [enter_eq_ok, hentry]
      cases entry with
      | file content => cases hget
      | directory inside => exact ⟨inside, rfl⟩
    exact ⟨habove, rfl, ih habove⟩

theorem IsTrail.follow {steps : List String} (h : files.IsTrail trail) {final : Trail}
    (hfollow : files.follow trail steps = .ok final) : files.IsTrail final := by
  induction steps generalizing trail with
  | nil => exact Except.ok.inj hfollow ▸ h
  | cons name rest ih =>
    rw [Files.follow] at hfollow
    split at hfollow
    · cases hfollow
    · next henter =>
      split at hfollow
      · exact ih h hfollow
      · split at hfollow
        · refine ih ?_ hfollow
          cases trail with
          | nil => trivial
          | cons step above => exact h.2.2
        · split at hfollow
          · cases hfollow
          · have hlonger : files.IsTrail (files.extend trail name) := ⟨henter, rfl, h⟩
            exact ih hlonger hfollow

/-- Where there is a step to take, the place it is taken from is looked at. -/
theorem isTrail_of_follow {steps : List String} (hsteps : steps ≠ []) {final : Trail}
    (h : files.follow (files.trailTo place) steps = .ok final) : files.IsTrail final := by
  refine IsTrail.follow (isTrail_trailTo ?_) h
  cases steps with
  | nil => exact absurd rfl hsteps
  | cons name rest =>
    rw [Files.follow] at h
    split at h
    · cases h
    · next henter => exact henter

/-- Only the path to the root has no steps. -/
theorem steps_ne_nil {p : Path} (htext : p.text ≠ "") (hrelative : p.isAbsolute = false) :
    p.steps ≠ [] := by
  unfold Path.steps Path.segments
  unfold Path.isAbsolute at hrelative
  cases hcs : p.text.toList with
  | nil => exact absurd (String.toList_eq_nil_iff.1 hcs) htext
  | cons c cs =>
    have hc : c ≠ '/' := by
      rintro rfl
      rw [hcs] at hrelative
      cases hrelative
    obtain ⟨line, rest, hsplit⟩ : ∃ line rest, Text.split '/' (c :: cs) = (c :: line) :: rest := by
      rw [Text.split_cons, if_neg hc]
      cases Text.split '/' cs with
      | nil => exact ⟨[], [], rfl⟩
      | cons line rest => exact ⟨line, rest, rfl⟩
    rw [hsplit, List.map_cons, List.filter_cons_of_pos (by simp)]
    exact List.cons_ne_nil _ _

theorem isTrail_of_locate {p : Path} (h : files.locate here p = .ok trail) : files.IsTrail trail := by
  unfold locate at h
  split at h
  · cases h
  · next place hstart =>
    unfold start at hstart
    split at hstart
    · cases hstart
    · split at hstart
      · cases hstart
      · next htext =>
        split at hstart
        · cases hstart
        · obtain rfl := Except.ok.inj hstart
          cases habsolute : p.isAbsolute with
          | true =>
            rw [habsolute] at h
            have hroot : files.IsTrail [] := trivial
            exact hroot.follow h
          | false => exact isTrail_of_follow (steps_ne_nil htext habsolute) h

/-- A file can be written where no directory stands, by a path that does not ask for one. -/
theorem of_writable {p : Path} (h : files.writable here p = .ok trail) :
    p.endsWithSlash = false ∧ files.locate here p = .ok trail ∧
      ∀ d, files.reached trail ≠ some (.directory d) := by
  unfold writable at h
  split at h
  · cases h
  · next hslash =>
    split at h
    · cases h
    · next hlocate =>
      split at h
      · cases h
      · next hbare =>
        obtain rfl := Except.ok.inj h
        exact ⟨Bool.eq_false_iff.2 hslash, hlocate, fun d hd => hbare d hd⟩

/-! ## Putting -/

/-- A file is as it was unless what is put at the end of a trail changes it there or below. -/
theorem fileAt?_put (htrail : files.IsTrail trail) {entry : Entry}
    (h : ∀ names, place = names ++ trail.place →
      Entry.content? (Entry.below? (some entry) names)
        = Entry.content? (Entry.below? (files.reached trail) names)) :
    (files.put trail entry).fileAt? place = files.fileAt? place := by
  -- Seen from the directory that the last step is taken from, only what has its name is another.
  induction trail generalizing entry with
  | nil =>
    cases entry with
    | file content => rfl
    | directory root =>
      unfold fileAt?
      rw [entryAt?_eq_below?, entryAt?_eq_below?]
      exact h place (List.append_nil place).symm
  | cons step above ih =>
    obtain ⟨henter, hstep, habove⟩ := htrail
    obtain ⟨d, hd⟩ := enter_eq_ok.1 henter
    have hinside : files.inside above = d := by rw [inside, hd]
    have hreached : files.reached (step :: above) = d.get? step.1 := by
      rw [hstep]
      show (files.reached above).bind _ = _
      rw [hd]
      rfl
    rw [hreached] at h
    refine ih habove fun names hnames => ?_
    rw [hinside, hd]
    rcases List.eq_nil_or_concat names with rfl | ⟨names, name, rfl⟩
    · rfl
    · rw [List.concat_eq_append, Entry.below?_append, Entry.below?_append]
      show Entry.content? (Entry.below? ((d.insert step.1 entry).get? name) names)
        = Entry.content? (Entry.below? (d.get? name) names)
      by_cases hname : name = step.1
      · rw [hname, Directory.get?_insert_self]
        refine h names ?_
        rw [hnames, hname, List.concat_eq_append, List.append_assoc]
        rfl
      · rw [Directory.get?_insert_of_ne hname]

/-- Only the file that is written changes. -/
theorem fileAt?_put_file (htrail : files.IsTrail trail)
    (hbare : ∀ d, files.reached trail ≠ some (.directory d)) (hplace : place ≠ trail.place)
    (content : ByteArray) : (files.put trail (.file content)).fileAt? place = files.fileAt? place := by
  refine fileAt?_put htrail fun names hnames => ?_
  have hne : names ≠ [] := by
    rintro rfl
    exact hplace hnames
  rw [Entry.below?_eq_none (fun _ => rfl) hne, Entry.below?_eq_none (fun name => ?_) hne]
  cases hreached : files.reached trail with
  | none => rfl
  | some entry =>
    cases entry with
    | file _ => rfl
    | directory d => exact absurd hreached (hbare d)

/-- No file changes when a directory is made where nothing is. -/
theorem fileAt?_put_directory (htrail : files.IsTrail trail) (hnone : files.reached trail = none) :
    (files.put trail (.directory .empty)).fileAt? place = files.fileAt? place := by
  refine fileAt?_put htrail fun names _ => ?_
  rw [hnone]
  by_cases hnames : names = []
  · subst hnames
    rfl
  · rw [Entry.below?_eq_none (fun _ => rfl) hnames, Entry.below?_none]

theorem fileAt?_write {p : Path} {content : ByteArray} {after : Files}
    (h : files.write here p content = .ok after) :
    ∃ trail, files.writable here p = .ok trail ∧
      ∀ place, after.fileAt? place ≠ files.fileAt? place → place = trail.place := by
  unfold write at h
  cases hwritable : files.writable here p with
  | error fault =>
    rw [hwritable] at h
    cases h
  | ok trail =>
    rw [hwritable] at h
    obtain rfl := Except.ok.inj h
    obtain ⟨-, hlocate, hbare⟩ := of_writable hwritable
    refine ⟨trail, rfl, fun place hchanged => ?_⟩
    by_cases hplace : place = trail.place
    · exact hplace
    · exact absurd (fileAt?_put_file (isTrail_of_locate hlocate) hbare hplace content) hchanged

/-! ## Making directories -/

theorem fileAt?_makeDirectory {steps : List String} (hsteps : steps ≠ [])
    (h : files.makeDirectory here steps = .ok made) : made.fileAt? place = files.fileAt? place := by
  unfold makeDirectory at h
  split at h
  · cases h
  · next trail hfollow =>
    split at h
    · cases h
    · next hnone =>
      obtain rfl := Except.ok.inj h
      exact fileAt?_put_directory (isTrail_of_follow hsteps hfollow) hnone

theorem fileAt?_settle {steps : List String} (hsteps : steps ≠ []) :
    (files.settle here steps (files.makeDirectory here steps)).1.fileAt? place = files.fileAt? place := by
  cases h : files.makeDirectory here steps with
  | error fault => rfl
  | ok made => exact fileAt?_makeDirectory hsteps h

theorem fileAt?_makeDirectories (files : Files) (here : Place) (above : List String) :
    (files.makeDirectories here above).1.fileAt? place = files.fileAt? place := by
  induction above with
  | nil => rfl
  | cons name above ih =>
    have hsteps : (name :: above).reverse ≠ [] := by simp
    rw [makeDirectories]
    by_cases hidle : name = "."
    · rw [if_pos hidle]
      exact ih
    · rw [if_neg hidle]
      dsimp only
      split
      · split
        · next made hmade =>
          rw [fileAt?_settle hsteps]
          rw [hmade] at ih
          exact ih
        · exact ih
      · exact fileAt?_settle hsteps

/-- No file changes when the directories are made that a path leads through. -/
theorem fileAt?_makeParents (files : Files) (here : Place) (p : Path) (place : Place) :
    (files.makeParents here p).1.fileAt? place = files.fileAt? place := by
  unfold makeParents
  simp only
  split
  · rfl
  · split
    · rfl
    · exact fileAt?_makeDirectories files _ _

/-! ## Paths without steps back -/

/-- Without a step back, a place only gets longer. -/
theorem exists_place_of_follow {steps : List String} (hforward : ".." ∉ steps) {final : Trail}
    (h : files.follow (files.trailTo place) steps = .ok final) :
    ∃ names, final.place = names ++ place := by
  induction steps generalizing place with
  | nil => exact ⟨[], by rw [← Except.ok.inj h, place_trailTo]; rfl⟩
  | cons name rest ih =>
    rw [List.mem_cons, not_or] at hforward
    rw [Files.follow] at h
    split at h
    · cases h
    · split at h
      · exact ih hforward.2 h
      · rw [if_neg (Ne.symm hforward.1)] at h
        split at h
        · cases h
        · obtain ⟨names, hnames⟩ := @ih (name :: place) hforward.2 h
          exact ⟨names ++ [name], by rw [hnames, List.append_assoc]; rfl⟩

/-- A place that leads to a file leads through directories. -/
theorem enter_of_fileAt? (hkeeps : ∀ place, made.fileAt? place = files.fileAt? place)
    {content : ByteArray} {names : Place} (hfile : files.fileAt? (names ++ place) = some content)
    (henter : made.enter (made.trailTo place) = .ok ()) : files.enter (files.trailTo place) = .ok () := by
  obtain ⟨d, hd⟩ := enter_eq_ok.1 henter
  have hmade : made.fileAt? place = none := congrArg Entry.content? hd
  have hentry := entryAt?_of_fileAt? hfile
  rw [entryAt?_append] at hentry
  rw [enter_eq_ok]
  show ∃ d, files.entryAt? place = some (.directory d)
  cases hplace : files.entryAt? place with
  | none => rw [hplace, Entry.below?_none] at hentry; cases hentry
  | some entry =>
    cases entry with
    | directory inside => exact ⟨inside, rfl⟩
    | file content' =>
      have hfound : files.fileAt? place = some content' := congrArg Entry.content? hplace
      rw [← hkeeps, hmade] at hfound
      cases hfound

/-- Where no file has changed, a path without steps back leads to the files that it led to. -/
theorem follow_eq_of_fileAt? (hkeeps : ∀ place, made.fileAt? place = files.fileAt? place)
    {steps : List String} (hforward : ".." ∉ steps) {final : Trail} {content : ByteArray}
    (h : made.follow (made.trailTo place) steps = .ok final)
    (hfile : files.fileAt? final.place = some content) :
    files.follow (files.trailTo place) steps = .ok (files.trailTo final.place) := by
  induction steps generalizing place with
  | nil =>
    rw [← Except.ok.inj h, place_trailTo]
    rfl
  | cons name rest ih =>
    obtain ⟨names, hnames⟩ := exists_place_of_follow hforward h
    rw [List.mem_cons, not_or] at hforward
    rw [Files.follow] at h ⊢
    split at h
    · cases h
    · next henter =>
      rw [hnames] at hfile
      rw [enter_of_fileAt? hkeeps hfile henter]
      rw [← hnames] at hfile
      show (if name = "." then _ else _) = _
      by_cases hidle : name = "."
      · rw [if_pos hidle] at h ⊢
        exact ih hforward.2 h
      · rw [if_neg hidle, if_neg (Ne.symm hforward.1)] at h ⊢
        by_cases hlong : nameLimit < name.utf8ByteSize
        · rw [if_pos hlong] at h
          cases h
        · rw [if_neg hlong] at h ⊢
          exact @ih (name :: place) hforward.2 h

/-- Where no file has changed, a path without steps back that leads to one did so before. -/
theorem holds_of_writable (hkeeps : ∀ place, made.fileAt? place = files.fileAt? place) {p : Path}
    (hforward : ".." ∉ p.steps) (h : made.writable here p = .ok trail) {content : ByteArray}
    (hfile : files.fileAt? trail.place = some content) : files.holds here p = true := by
  obtain ⟨hslash, hlocated, -⟩ := of_writable h
  have hlocate : files.locate here p = .ok (files.trailTo trail.place) := by
    unfold locate at hlocated ⊢
    cases hstart : start here p with
    | error fault => rw [hstart] at hlocated; cases hlocated
    | ok place =>
      rw [hstart] at hlocated
      exact follow_eq_of_fileAt? hkeeps hforward hlocated hfile
  have hreached : files.reached (files.trailTo trail.place) = some (.file content) :=
    entryAt?_of_fileAt? hfile
  have hfind : files.find here p = .ok (.file content) := by
    unfold find
    simp only [hlocate, hreached, hslash]
    rfl
  rw [holds, hfind]

end Files
end SpacerTurning
