import Chip8.Proofs.Act

/-!
# Actions on two states at once

Two states that agree on all that an action looks at are brought to the same answer, and to states that agree again:
the action respects the relation between the two. Whatever is put together from actions that respect a relation
respects it too, so for a whole operation only its building blocks have to be looked at.
-/

namespace Chip8

variable {σ τ α β : Type}

/-- The same answer, or the same failure, with related states. -/
inductive Same (R : σ → σ → Prop) : EStateM.Result Failure σ α → EStateM.Result Failure σ α → Prop where
  | ok (a : α) {s t : σ} : R s t → Same R (.ok a s) (.ok a t)
  | error (e : Failure) {s t : σ} : R s t → Same R (.error e s) (.error e t)

variable {R : σ → σ → Prop}

theorem Same.cases {r r' : EStateM.Result Failure σ α} (h : Same R r r') :
    (∃ a s t, r = .ok a s ∧ r' = .ok a t ∧ R s t) ∨ (∃ e s t, r = .error e s ∧ r' = .error e t ∧ R s t) := by
  cases h with
  | ok a h => exact .inl ⟨a, _, _, rfl, rfl, h⟩
  | error e h => exact .inr ⟨e, _, _, rfl, rfl, h⟩

theorem Same.onward {r r' : EStateM.Result Failure σ α} {next next' : α → Act σ β} (h : Same R r r')
    (hnext : ∀ a s t, R s t → Same R (next a s) (next' a t)) : Same R (onward r next) (Chip8.onward r' next') := by
  cases h with
  | ok a h => exact hnext a _ _ h
  | error e h => exact .error e h

theorem Same.back {Q : τ → τ → Prop} {part : Part σ τ} {s t : σ} {r r' : EStateM.Result Failure τ α} (h : Same Q r r')
    (hput : ∀ u v, Q u v → R (part.put s u) (part.put t v)) : Same R (part.back s r) (part.back t r') := by
  cases h with
  | ok a h => exact .ok a (hput _ _ h)
  | error e h => exact .error e (hput _ _ h)

namespace Act

/-- From related states the action comes to the same end. -/
def Respects (R : σ → σ → Prop) (act : Act σ α) : Prop := ∀ s t, R s t → Same R (act s) (act t)

theorem respects_pure (a : α) : Respects R (pure a : Act σ α) := by
  intro s t h
  exact .ok a h

theorem respects_mishap (m : Mishap) : Respects R (Act.mishap m : Act σ α) := by
  intro s t h
  exact .error (.mishap m) h

theorem respects_ofExcept (result : Except Mishap α) : Respects R (Act.ofExcept result : Act σ α) := by
  cases result with
  | ok a => exact respects_pure a
  | error m => exact respects_mishap m

theorem respects_modify {f : σ → σ} (h : ∀ s t, R s t → R (f s) (f t)) : Respects R (modify f : Act σ PUnit) := by
  intro s t hst
  exact .ok _ (h s t hst)

theorem Respects.bind {act : Act σ α} {next : α → Act σ β} (hact : Respects R act) (hnext : ∀ a, Respects R (next a)) :
    Respects R (act >>= next) := by
  intro s t h
  rw [bind_run, bind_run]
  exact (hact s t h).onward hnext

/-- What is done with the state itself has to be looked at in both states. -/
theorem respects_get_bind {next : σ → Act σ α} (h : ∀ s t, R s t → Same R (next s s) (next t t)) :
    Respects R (get >>= next) := by
  intro s t hst
  rw [bind_run, bind_run]
  exact h s t hst

theorem Respects.ite {act act' : Act σ α} {c : Prop} [Decidable c] (hact : Respects R act) (hact' : Respects R act') :
    Respects R (if c then act else act') := by
  split
  · exact hact
  · exact hact'

/-- An action on a part respects a relation that comes from one between the parts. -/
theorem Respects.within {Q : τ → τ → Prop} {act : Act τ α} {part : Part σ τ} (hact : Respects Q act)
    (hget : ∀ s t, R s t → Q (part.get s) (part.get t))
    (hput : ∀ s t u v, R s t → Q u v → R (part.put s u) (part.put t v)) : Respects R (act.within part) := by
  intro s t h
  rw [within_run, within_run]
  exact (hact _ _ (hget s t h)).back fun u v => hput s t u v h

/-- The result of an action, without the state. -/
def answer (act : Act σ α) (s : σ) : Except Failure α :=
  match act s with
  | .ok a _ => .ok a
  | .error e _ => .error e

theorem ok_of_answer {act : Act σ α} {s : σ} (h : (act.answer s).isOk = true) : ∃ a, act s = .ok a (act.after s) := by
  cases hrun : act s with
  | ok a t => exact ⟨a, by rw [after_of_ok hrun]⟩
  | error e t => simp [answer, hrun, Except.isOk, Except.toBool] at h

theorem Respects.answer {act : Act σ α} (hact : Respects R act) {s t : σ} (h : R s t) :
    act.answer t = act.answer s := by
  rcases (hact s t h).cases with ⟨a, u, v, hs, ht, -⟩ | ⟨e, u, v, hs, ht, -⟩
  · simp only [Act.answer, hs, ht]
  · simp only [Act.answer, hs, ht]

theorem Respects.after {act : Act σ α} (hact : Respects R act) {s t : σ} (h : R s t) :
    R (act.after s) (act.after t) := by
  rcases (hact s t h).cases with ⟨a, u, v, hs, ht, h'⟩ | ⟨e, u, v, hs, ht, h'⟩
  · rwa [after_of_ok hs, after_of_ok ht]
  · rwa [after_of_error hs, after_of_error ht]

end Act

end Chip8
