import SpacerTurning.Proofs.Storage.Files
import SpacerTurning.Storage.Shell

/-!
What actions leave of a session.

An action that keeps what is looked at can come first without a change being seen, so a change is made by
what follows it, and what follows it runs as if it came first.
-/

namespace SpacerTurning

/-- What can be done in a session, and can fail. -/
abbrev Action (ε β : Type) := ExceptT ε (StateM Session) β

namespace Action

variable {ε β γ δ : Type} {a : Action ε β} {next : β → Action ε γ} {s : Session}
  {look : Session → δ}

/-- How an action ends. -/
def result (a : Action ε β) (s : Session) : Except ε β := (a.run s).1

/-- The session that an action leaves. -/
def after (a : Action ε β) (s : Session) : Session := (a.run s).2

theorem result_bind (a : Action ε β) (next : β → Action ε γ) (s : Session) :
    result (a >>= next) s = match result a s with
      | .ok b => result (next b) (after a s)
      | .error fault => .error fault := by
  show Prod.fst (ExceptT.bindCont next (a.run s).1 (a.run s).2) = match (a.run s).1 with
    | .ok b => _
    | .error fault => _
  cases (a.run s).1 <;> rfl

theorem after_bind (a : Action ε β) (next : β → Action ε γ) (s : Session) :
    after (a >>= next) s = match result a s with
      | .ok b => after (next b) (after a s)
      | .error _ => after a s := by
  show Prod.snd (ExceptT.bindCont next (a.run s).1 (a.run s).2) = match (a.run s).1 with
    | .ok b => _
    | .error _ => _
  cases (a.run s).1 <;> rfl

theorem after_bind_pure (a : Action ε β) (f : β → γ) (s : Session) :
    after (a >>= fun b => Pure.pure (f b)) s = after a s := by
  rw [after_bind]
  cases result a s <;> rfl

/-- What is looked at is the same after the action as before it. -/
def Keeps (look : Session → δ) (a : Action ε β) : Prop := ∀ s, look (after a s) = look s

theorem Keeps.pure (look : Session → δ) (b : β) : Keeps look (Pure.pure b : Action ε β) := fun _ => rfl

theorem Keeps.throw (look : Session → δ) (fault : ε) :
    Keeps look (MonadExcept.throw fault : Action ε β) := fun _ => rfl

/-- What can be told from what is kept is kept. -/
theorem Keeps.told (h : Keeps look a) (tell : δ → γ) : Keeps (fun s => tell (look s)) a :=
  fun s => congrArg tell (h s)

/-- Telling a fault in other words is no change. -/
theorem Keeps.mapError {x : Action ε β} (h : Keeps look x) (tell : ε → γ) :
    Keeps look (ExceptT.mk (Except.mapError tell <$> x.run) : Action γ β) := h

theorem Keeps.bind (ha : Keeps look a) (hnext : ∀ b, Keeps look (next b)) : Keeps look (a >>= next) := by
  intro s
  rw [after_bind]
  cases result a s with
  | ok b => exact (hnext b _).trans (ha s)
  | error fault => exact ha s

/-- A change is made by what follows. -/
theorem exists_of_changed (look : Session → δ) (ha : Keeps look a)
    (h : look (after (a >>= next) s) ≠ look s) :
    ∃ b, result a s = .ok b ∧ look (after (next b) (after a s)) ≠ look (after a s) := by
  rw [after_bind] at h
  rw [ha s]
  cases hresult : result a s with
  | ok b =>
    rw [hresult] at h
    exact ⟨b, rfl, h⟩
  | error fault =>
    rw [hresult] at h
    exact absurd (ha s) h

/-- A change is made by what comes first, if what follows keeps what is looked at. -/
theorem changed_of_bind (look : Session → δ) (hnext : ∀ b, Keeps look (next b))
    (h : look (after (a >>= next) s) ≠ look s) : look (after a s) ≠ look s := by
  rw [after_bind] at h
  cases hresult : result a s with
  | ok b =>
    rw [hresult] at h
    exact hnext b (after a s) ▸ h
  | error fault =>
    rw [hresult] at h
    exact h

/-- Where the action fails, the files are as before. -/
def FailsClean (a : Action ε β) : Prop :=
  ∀ s fault, result a s = .error fault → (after a s).files = s.files

theorem Keeps.failsClean (h : Keeps (·.files) a) : FailsClean a := fun s _ _ => h s

theorem FailsClean.bind (ha : Keeps (·.files) a) (hnext : ∀ b, FailsClean (next b)) :
    FailsClean (a >>= next) := by
  intro s fault h
  rw [result_bind] at h
  rw [after_bind]
  cases hresult : result a s with
  | ok b =>
    rw [hresult] at h
    exact (hnext b _ fault h).trans (ha s)
  | error fault => exact ha s

/-- What cannot fail can follow. -/
theorem FailsClean.bind_pure (ha : FailsClean a) (f : β → γ) :
    FailsClean (a >>= fun b => Pure.pure (f b)) := by
  intro s fault h
  rw [result_bind] at h
  rw [after_bind_pure]
  cases hresult : result a s with
  | ok b =>
    rw [hresult] at h
    cases h
  | error fault => exact ha s fault hresult

end Action
end SpacerTurning
