import Chip8.Failure

/-!
# Running actions

What each building block of an action does to a state: the equations by which primitives are run on a state of which
enough is known. Going on after a first action is the function `onward` of its result, so that a run is rewritten one
result at a time. `after` is the state that an action leaves behind, whether it failed or not.
-/

namespace Chip8

variable {σ τ α β : Type}

/-- Goes on from a result with the next action, unless it is a failure. -/
def onward (result : EStateM.Result Failure σ α) (next : α → Act σ β) : EStateM.Result Failure σ β :=
  match result with
  | .ok a s => next a s
  | .error e s => .error e s

@[simp] theorem onward_ok (a : α) (s : σ) (next : α → Act σ β) : onward (.ok a s) next = next a s := by rw [onward]

@[simp] theorem onward_error (e : Failure) (s : σ) (next : α → Act σ β) :
    onward (.error e s) next = .error e s := by rw [onward]

/-- Puts the part that a result has back into the whole. -/
def Part.back (part : Part σ τ) (s : σ) : EStateM.Result Failure τ α → EStateM.Result Failure σ α
  | .ok a t => .ok a (part.put s t)
  | .error e t => .error e (part.put s t)

@[simp] theorem Part.back_ok (part : Part σ τ) (s : σ) (a : α) (t : τ) :
    part.back s (.ok a t) = .ok a (part.put s t) := by rw [Part.back]

@[simp] theorem Part.back_error (part : Part σ τ) (s : σ) (e : Failure) (t : τ) :
    (part.back s (.error e t) : EStateM.Result Failure σ α) = .error e (part.put s t) := by rw [Part.back]

namespace Act

@[simp] theorem pure_run (a : α) (s : σ) : (pure a : Act σ α) s = .ok a s := by rfl

@[simp] theorem bind_run (act : Act σ α) (next : α → Act σ β) (s : σ) :
    (act >>= next) s = onward (act s) next := by
  simp only [bind, EStateM.bind, onward]
  cases act s <;> rfl

@[simp] theorem map_run (f : α → β) (act : Act σ α) (s : σ) :
    (f <$> act) s = onward (act s) fun a => pure (f a) := by
  simp only [Functor.map, EStateM.map, onward]
  cases act s <;> rfl

@[simp] theorem get_run (s : σ) : (get : Act σ σ) s = .ok s s := by rfl

@[simp] theorem set_run (t s : σ) : (set t : Act σ PUnit) s = .ok ⟨⟩ t := by rfl

@[simp] theorem modify_run (f : σ → σ) (s : σ) : (modify f : Act σ PUnit) s = .ok ⟨⟩ (f s) := by rfl

@[simp] theorem ofExcept_ok_run (a : α) (s : σ) : (Act.ofExcept (.ok a) : Act σ α) s = .ok a s := by rfl

@[simp] theorem ofExcept_error_run (m : Mishap) (s : σ) :
    (Act.ofExcept (.error m) : Act σ α) s = .error (.mishap m) s := by rfl

theorem within_run (part : Part σ τ) (act : Act τ α) (s : σ) :
    act.within part s = part.back s (act (part.get s)) := by
  cases hrun : act (part.get s) <;> simp [Act.within, hrun]

/-! ## The state left behind -/

/-- The state that an action leaves, done or failed. -/
def after (act : Act σ α) (s : σ) : σ :=
  match act s with
  | .ok _ t => t
  | .error _ t => t

theorem after_of_ok {act : Act σ α} {s t : σ} {a : α} (h : act s = .ok a t) : after act s = t := by
  simp only [after, h]

theorem after_of_error {act : Act σ α} {s t : σ} {e : Failure} (h : act s = .error e t) : after act s = t := by
  simp only [after, h]

theorem after_within (part : Part σ τ) (act : Act τ α) (s : σ) :
    after (act.within part) s = part.put s (after act (part.get s)) := by
  simp only [after, within_run]
  cases act (part.get s) <;> simp

/-! ## What actions keep -/

/-- The property holds after the action, done or failed, if it holds before. -/
def Keeps (I : σ → Prop) (act : Act σ α) : Prop := ∀ s, I s → I (act.after s)

variable {I : σ → Prop}

theorem keeps_pure (a : α) : Keeps I (pure a : Act σ α) := fun _ hs => hs

theorem keeps_get : Keeps I (get : Act σ σ) := fun _ hs => hs

theorem keeps_modify {f : σ → σ} (h : ∀ s, I s → I (f s)) : Keeps I (modify f : Act σ PUnit) := h

theorem keeps_ofExcept (result : Except Mishap α) : Keeps I (Act.ofExcept result : Act σ α) := by
  cases result with
  | ok a => exact keeps_pure a
  | error m => exact fun _ hs => hs

theorem Keeps.bind {act : Act σ α} {next : α → Act σ β} (hact : Keeps I act) (hnext : ∀ a, Keeps I (next a)) :
    Keeps I (act >>= next) := by
  intro s hs
  have hmiddle := hact s hs
  cases hrun : act s with
  | ok a t =>
    rw [after_of_ok hrun] at hmiddle
    have hafter : (act >>= next).after s = (next a).after t := by
      simp only [after, bind_run, hrun, onward_ok]
    rw [hafter]
    exact hnext a t hmiddle
  | error e t =>
    rw [after_of_error hrun] at hmiddle
    have hend : (act >>= next) s = .error e t := by rw [bind_run, hrun, onward_error]
    rwa [after_of_error hend]

theorem Keeps.ite {act act' : Act σ α} {c : Prop} [Decidable c] (hact : Keeps I act) (hact' : Keeps I act') :
    Keeps I (if c then act else act') := by
  split
  · exact hact
  · exact hact'

/-- A property of a part is kept by actions on that part. -/
theorem Keeps.within {J : τ → Prop} {act : Act τ α} {part : Part σ τ} (hact : Keeps J act)
    (hget : ∀ s, I s → J (part.get s)) (hput : ∀ s t, I s → J t → I (part.put s t)) : Keeps I (act.within part) := by
  intro s hs
  rw [after_within]
  exact hput s _ hs (hact (part.get s) (hget s hs))

/-! ## Actions without faults -/

/-- The action ends early only by mishap. -/
def MishapsOnly (act : Act σ α) : Prop := ∀ s e t, act s = .error e t → ∃ m, e = .mishap m

theorem mishapsOnly_of_ok {act : Act σ α} (h : ∀ s, ∃ a t, act s = .ok a t) : MishapsOnly act := by
  intro s e t herror
  obtain ⟨a, u, hok⟩ := h s
  rw [hok] at herror
  cases herror

theorem mishapsOnly_pure (a : α) : MishapsOnly (pure a : Act σ α) := mishapsOnly_of_ok fun s => ⟨a, s, rfl⟩

theorem mishapsOnly_get : MishapsOnly (get : Act σ σ) := mishapsOnly_of_ok fun s => ⟨s, s, rfl⟩

theorem mishapsOnly_ofExcept (result : Except Mishap α) : MishapsOnly (Act.ofExcept result : Act σ α) := by
  intro s e t h
  cases result with
  | ok a => simp at h
  | error m =>
    simp only [ofExcept_error_run, EStateM.Result.error.injEq] at h
    exact ⟨m, h.1.symm⟩

theorem MishapsOnly.bind {act : Act σ α} {next : α → Act σ β} (hact : MishapsOnly act)
    (hnext : ∀ a, MishapsOnly (next a)) : MishapsOnly (act >>= next) := by
  intro s e t h
  rw [bind_run] at h
  cases hrun : act s with
  | ok a u => exact hnext a u e t (by simpa [hrun] using h)
  | error e' u =>
    obtain ⟨rfl, rfl⟩ : e' = e ∧ u = t := by simpa [hrun] using h
    exact hact s e' u hrun

theorem MishapsOnly.within {act : Act τ α} (hact : MishapsOnly act) (part : Part σ τ) :
    MishapsOnly (act.within part) := by
  intro s e t h
  rw [within_run] at h
  cases hrun : act (part.get s) with
  | ok a u => simp [hrun] at h
  | error e' u =>
    obtain ⟨rfl, -⟩ : e' = e ∧ part.put s u = t := by simpa [hrun] using h
    exact hact (part.get s) e' u hrun

end Act

end Chip8
