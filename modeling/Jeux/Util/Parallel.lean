import Mathlib.Logic.Function.Basic
import Jeux.Util.Heap

/-!
The same done to two heaps. What one heap has at an address the other may have at another address,
and what points to it is renamed. From the footprints of two changes it follows that their order
does not matter.
-/

namespace Heap

variable {α : Type}

/--
The same has happened to `h` and to `k`, which are `h'` and `k'` now: in the footprint `F` they
correspond, and the rest of each of them is as it was.
-/
structure Parallel (F : Nat → Prop) (ρ : Nat → Nat) (f : α → α) (h k h' k' : Heap α) : Prop where
  inside : ∀ p, F p → k'.get? (ρ p) = (h'.get? p).map f
  left : ∀ p, ¬ F p → h'.get? p = h.get? p
  right : ∀ p, ¬ F p → k'.get? (ρ p) = k.get? (ρ p)

variable {F G : Nat → Prop} {ρ : Nat → Nat} {f : α → α} {h k h' k' : Heap α} {p : Nat}

theorem Parallel.refl (h k : Heap α) (hinside : ∀ p, F p → k.get? (ρ p) = (h.get? p).map f)
    : Parallel F ρ f h k h k := ⟨hinside, fun _ _ => rfl, fun _ _ => rfl⟩

theorem Parallel.modify (hpar : Parallel F ρ f h k h' k') (hρ : Function.Injective ρ) (hp : F p)
    {a b : α → α} (hcomm : ∀ v, h'.get? p = some v → f (a v) = b (f v))
    : Parallel F ρ f h k (h'.modify p a) (k'.modify (ρ p) b) where
  inside := by
    intro q hq
    by_cases heq : q = p
    . subst heq
      rw [get?_modify_self, get?_modify_self, hpar.inside q hq]
      cases hv : h'.get? q with
      | none => rfl
      | some v => simp [hcomm v hv]
    . rw [get?_modify_ne heq, get?_modify_ne (hρ.ne heq), hpar.inside q hq]
  left := by
    intro q hq
    have hne : q ≠ p := by
      rintro rfl
      exact hq hp
    rw [get?_modify_ne hne, hpar.left q hq]
  right := by
    intro q hq
    have hne : q ≠ p := by
      rintro rfl
      exact hq hp
    rw [get?_modify_ne (hρ.ne hne), hpar.right q hq]

theorem Parallel.free (hpar : Parallel F ρ f h k h' k') (hρ : Function.Injective ρ) (hp : F p)
    : Parallel F ρ f h k (h'.free p) (k'.free (ρ p)) where
  inside := by
    intro q hq
    by_cases heq : q = p
    . subst heq
      rw [get?_free_self, get?_free_self, Option.map_none]
    . rw [get?_free_ne heq, get?_free_ne (hρ.ne heq), hpar.inside q hq]
  left := by
    intro q hq
    have hne : q ≠ p := by
      rintro rfl
      exact hq hp
    rw [get?_free_ne hne, hpar.left q hq]
  right := by
    intro q hq
    have hne : q ≠ p := by
      rintro rfl
      exact hq hp
    rw [get?_free_ne (hρ.ne hne), hpar.right q hq]

theorem Parallel.push (hpar : Parallel F ρ f h k h' k') (hρ : Function.Injective ρ)
    (hnew : F h'.next) (hnext : ρ h'.next = k'.next) (v : α)
    : Parallel F ρ f h k (h'.push v) (k'.push (f v)) where
  inside := by
    intro q hq
    by_cases heq : q = h'.next
    . subst heq
      rw [hnext, get?_push_next, get?_push_next, Option.map_some]
    . have hne : ρ q ≠ k'.next := hnext ▸ hρ.ne heq
      rw [get?_push, get?_push, if_neg heq, if_neg hne, hpar.inside q hq]
  left := by
    intro q hq
    have hne : q ≠ h'.next := by
      rintro rfl
      exact hq hnew
    rw [get?_push, if_neg hne, hpar.left q hq]
  right := by
    intro q hq
    have hne : ρ q ≠ k'.next := by
      rw [← hnext]
      apply hρ.ne
      rintro rfl
      exact hq hnew
    rw [get?_push, if_neg hne, hpar.right q hq]

end Heap
