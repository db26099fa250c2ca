/-!
Machines that take events, their runs, and what holds in every state that can be reached.

`step s e` is the state after the event `e`, if `e` can happen in `s` and the machine survives it.
Runs may be restricted to events that meet a guard in the state they happen in.
-/

theorem Except.eq_ok_of_toOption {ε α : Type} {x : Except ε α} {a : α}
    (h : x.toOption = some a) : x = .ok a := by
  cases x with
  | error e => simp [Except.toOption] at h
  | ok b =>
    simp only [Except.toOption, Option.some.injEq] at h
    rw [h]

structure Machine (σ ε : Type) where
  step : σ → ε → Option σ

namespace Machine

variable {σ ε : Type} {m : Machine σ ε} {guard : σ → ε → Prop} {s₀ s s' : σ} {es : List ε}

/--
`m.Reach guard s₀ s`: some events, each of them meeting the guard when it happens, take `s₀` to `s`.
-/
inductive Reach (m : Machine σ ε) (guard : σ → ε → Prop) (s₀ : σ) : σ → Prop
  | refl : Reach m guard s₀ s₀
  | step {s s' : σ} {e : ε} (hreach : Reach m guard s₀ s) (hguard : guard s e)
      (hstep : m.step s e = some s') : Reach m guard s₀ s'

/--
What holds at the start and is kept by every step holds in every state reached.
-/
theorem Reach.invariant (Inv : σ → Prop) (h : m.Reach guard s₀ s) (hinit : Inv s₀)
    (hstep : ∀ s e s', Inv s → guard s e → m.step s e = some s' → Inv s') : Inv s := by
  induction h with
  | refl => exact hinit
  | step _ hguard hs ih => exact hstep _ _ _ ih hguard hs

theorem Reach.trans {s₁ : σ} (h : m.Reach guard s₀ s₁) (h' : m.Reach guard s₁ s)
    : m.Reach guard s₀ s := by
  induction h' with
  | refl => exact h
  | step _ hg hs ih => exact .step ih hg hs

/--
The state after some events. There is none when an event is not possible or breaks the guard.
-/
def run (m : Machine σ ε) (guard : σ → ε → Prop) [∀ s e, Decidable (guard s e)] (s : σ)
    : List ε → Option σ
  | [] => some s
  | e :: es =>
    if guard s e then
      match m.step s e with
      | some s' => m.run guard s' es
      | none => none
    else
      none

theorem Reach.of_run [∀ s e, Decidable (guard s e)] (h : m.run guard s es = some s')
    : m.Reach guard s s' := by
  induction es generalizing s with
  | nil =>
    rw [run, Option.some.injEq] at h
    exact h ▸ .refl
  | cons e es ih =>
    unfold run at h
    split at h
    . next hguard =>
      split at h
      . next s₁ hs => exact (Reach.step .refl hguard hs).trans (ih h)
      . simp at h
    . simp at h

theorem Reach.of_any_run (m : Machine σ ε) (guard : σ → ε → Prop) [∀ s e, Decidable (guard s e)]
    (s : σ) (es : List ε) (P : σ → Bool) (h : (m.run guard s es).any P = true)
    : ∃ s', m.Reach guard s s' ∧ P s' = true := by
  cases hrun : m.run guard s es with
  | none => simp [hrun] at h
  | some s' => exact ⟨s', .of_run hrun, by simpa [hrun] using h⟩

theorem Reach.of_any_step (m : Machine σ ε) (guard : σ → ε → Prop) [∀ s e, Decidable (guard s e)]
    (s : σ) (es : List ε) (e : ε) (P : σ → Bool)
    (h : (m.run guard s es).any (fun s => (m.step s e).any P) = true)
    : ∃ s' s'', m.Reach guard s s' ∧ m.step s' e = some s'' ∧ P s'' = true := by
  obtain ⟨s', hreach, hP⟩ := Reach.of_any_run m guard s es _ h
  obtain ⟨s'', hstep, hP⟩ := (Option.any_eq_true _ _).mp hP
  exact ⟨s', s'', hreach, hstep, hP⟩

end Machine
