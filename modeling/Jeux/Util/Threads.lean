import Mathlib.Algebra.GroupWithZero.Nat
import Mathlib.Data.List.Basic
import Jeux.Util.Machine

/-!
Threads over shared memory. The threads run calls: a call starts somewhere, takes its steps one at a
time, each of them atomic, and stays where it ends. Between two steps of one call any number of
steps of others may happen, and new calls may start at any time.
-/

structure Threads (S P : Type) where
  shared : S
  pcs : List P

/--
What a call does: where it may start in some memory, and what the step `a` of call number `self`
makes of the memory and of its place, if that step is possible.
-/
structure Program (S P A : Type) where
  starts : S → P → Bool
  step : Nat → S → P → A → Option (S × P)

namespace Program

variable {S P A : Type} {prog : Program S P A}

inductive Event (P A : Type) where
  | call (p : P)
  | step (i : Nat) (a : A)

def machine (prog : Program S P A) : Machine (Threads S P) (Event P A) where
  step T e :=
    match e with
    | .call p =>
      if prog.starts T.shared p then
        some { T with pcs := T.pcs ++ [p] }
      else
        none
    | .step i a =>
      match T.pcs[i]? with
      | none => none
      | some p =>
        match prog.step i T.shared p a with
        | none => none
        | some (s, p) => some { shared := s, pcs := T.pcs.set i p }

theorem step_cases {T T' : Threads S P} {e : Event P A} (h : prog.machine.step T e = some T')
    : (∃ p, e = .call p ∧ prog.starts T.shared p = true
        ∧ T' = { T with pcs := T.pcs ++ [p] })
      ∨ ∃ i a p s p', e = .step i a ∧ T.pcs[i]? = some p ∧ prog.step i T.shared p a = some (s, p')
        ∧ T' = { shared := s, pcs := T.pcs.set i p' } := by
  cases e with
  | call p =>
    dsimp only [machine] at h
    split at h
    . next hstarts => exact .inl ⟨p, rfl, hstarts, (Option.some.inj h).symm⟩
    . simp at h
  | step i a =>
    dsimp only [machine] at h
    split at h
    . simp at h
    . next p hp =>
      split at h
      . simp at h
      . next s p' hstep => exact .inr ⟨i, a, p, s, p', rfl, hp, hstep, (Option.some.inj h).symm⟩

/-! ## One call, and the others -/

theorem getElem?_set_cases {pcs : List P} {i j : Nat} {p q : P} (h : (pcs.set i p)[j]? = some q)
    : (j = i ∧ q = p) ∨ (j ≠ i ∧ pcs[j]? = some q) := by
  rw [List.getElem?_set] at h
  split at h
  . next heq =>
    split at h
    . exact .inl ⟨heq.symm, (Option.some.inj h).symm⟩
    . simp at h
  . next hne => exact .inr ⟨fun heq => hne heq.symm, h⟩

theorem getElem?_append_cases {pcs : List P} {j : Nat} {p q : P}
    (h : (pcs ++ [p])[j]? = some q) : (j = pcs.length ∧ q = p) ∨ pcs[j]? = some q := by
  rcases Nat.lt_trichotomy j pcs.length with hlt | heq | hgt
  . rw [List.getElem?_append_left hlt] at h
    exact .inr h
  . subst heq
    simp only [List.getElem?_concat_length, Option.some.injEq] at h
    exact .inl ⟨rfl, h.symm⟩
  . rw [List.getElem?_eq_none (by simp; omega)] at h
    simp at h

def Each (I : S → Nat → P → Prop) (T : Threads S P) : Prop :=
  ∀ i p, T.pcs[i]? = some p → I T.shared i p

theorem Each.call {I : S → Nat → P → Prop} {T : Threads S P} {p : P} (h : Each I T)
    (hself : I T.shared T.pcs.length p) : Each I { T with pcs := T.pcs ++ [p] } := by
  intro j q hq
  rcases getElem?_append_cases hq with ⟨rfl, rfl⟩ | hq
  . exact hself
  . exact h j q hq

/--
A step establishes the property for the call that takes it, and does not disturb it for the others.
-/
theorem Each.step {I : S → Nat → P → Prop} {T : Threads S P} {i : Nat} {p' : P} {s : S}
    (h : Each I T) (hself : I s i p')
    (hothers : ∀ j q, j ≠ i → T.pcs[j]? = some q → I T.shared j q → I s j q)
    : Each I { shared := s, pcs := T.pcs.set i p' } := by
  intro j q hq
  rcases getElem?_set_cases hq with ⟨rfl, rfl⟩ | ⟨hne, hq⟩
  . exact hself
  . exact hothers j q hne hq (h j q hq)

/--
What holds at the start, is kept when a call starts and is kept by every step of a call, holds in
every state reached.
-/
theorem reach_induction {guard : Threads S P → Event P A → Prop} {T₀ T : Threads S P}
    (Inv : Threads S P → Prop) (h : prog.machine.Reach guard T₀ T) (hinit : Inv T₀)
    (hcall : ∀ T p, Inv T → guard T (.call p) → prog.starts T.shared p = true →
      Inv { T with pcs := T.pcs ++ [p] })
    (hstep : ∀ T i a p s p', Inv T → guard T (.step i a) → T.pcs[i]? = some p →
      prog.step i T.shared p a = some (s, p') → Inv { shared := s, pcs := T.pcs.set i p' })
    : Inv T := by
  apply h.invariant Inv hinit
  intro T e T' hinv hguard hs
  rcases step_cases hs with ⟨p, rfl, hstarts, rfl⟩ | ⟨i, a, p, s, p', rfl, hp, hact, rfl⟩
  . exact hcall T p hinv hguard hstarts
  . exact hstep T i a p s p' hinv hguard hp hact

/-! ## Sums over all calls -/

def total (weight : P → Nat) (pcs : List P) : Nat := (pcs.map weight).sum

@[simp]
theorem total_nil (weight : P → Nat) : total weight [] = 0 := rfl

@[simp]
theorem total_concat (weight : P → Nat) (pcs : List P) (p : P)
    : total weight (pcs ++ [p]) = total weight pcs + weight p := by
  simp [total]

theorem total_set (weight : P → Nat) {pcs : List P} {i : Nat} {p : P} (p' : P)
    (h : pcs[i]? = some p)
    : total weight (pcs.set i p') + weight p = total weight pcs + weight p' := by
  induction pcs generalizing i with
  | nil => simp at h
  | cons q pcs ih =>
    cases i with
    | zero =>
      simp only [List.getElem?_cons_zero, Option.some.injEq] at h
      simp only [total, List.set_cons_zero, List.map_cons, List.sum_cons, h]
      omega
    | succ i =>
      specialize ih (by simpa using h)
      simp only [total, List.set_cons_succ, List.map_cons, List.sum_cons] at ih ⊢
      omega

theorem weight_le_total (weight : P → Nat) {pcs : List P} {i : Nat} {p : P} (h : pcs[i]? = some p)
    : weight p ≤ total weight pcs := by
  induction pcs generalizing i with
  | nil => simp at h
  | cons q pcs ih =>
    simp only [total, List.map_cons, List.sum_cons]
    cases i with
    | zero =>
      simp only [List.getElem?_cons_zero, Option.some.injEq] at h
      rw [h]
      omega
    | succ i =>
      specialize ih (by simpa using h)
      unfold total at ih
      omega

theorem total_eq_zero {weight : P → Nat} {pcs : List P}
    : total weight pcs = 0 ↔ ∀ p ∈ pcs, weight p = 0 := by
  simp [total, List.sum_eq_zero_iff_forall_eq_nat]

end Program
