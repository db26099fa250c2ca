import Mathlib.Algebra.BigOperators.Group.Finset.Piecewise
import Mathlib.Algebra.Order.Group.Int
import Mathlib.Tactic.Linarith

/-!
Tables of points in which every entry of a ledger moves points between two accounts. What an entry
makes of the two balances is up to a rule.
-/

structure LedgerEntry (ι ρ : Type) where
  left : ι
  right : ι
  outcome : ρ

namespace LedgerEntry

variable {ι ρ : Type}

def Concerns (e : LedgerEntry ι ρ) (x : ι) : Prop := x = e.left ∨ x = e.right

instance [DecidableEq ι] (e : LedgerEntry ι ρ) (x : ι) : Decidable (e.Concerns x) :=
  inferInstanceAs (Decidable (_ ∨ _))

end LedgerEntry

namespace Ledger

variable {ι ρ : Type} [DecidableEq ι] {rule : Int → Int → ρ → Int × Int} {table : ι → Int}
  {e : LedgerEntry ι ρ} {entries : List (LedgerEntry ι ρ)} {x : ι} {k d : Int} {s : Finset ι}

def post (rule : Int → Int → ρ → Int × Int) (table : ι → Int) (e : LedgerEntry ι ρ) : ι → Int :=
  if e.left = e.right then table
  else
    Function.update
      (Function.update table e.left (rule (table e.left) (table e.right) e.outcome).1)
      e.right (rule (table e.left) (table e.right) e.outcome).2

def replay (rule : Int → Int → ρ → Int × Int) (table : ι → Int)
    (entries : List (LedgerEntry ι ρ)) : ι → Int :=
  entries.foldl (post rule) table

@[simp]
theorem replay_nil : replay rule table [] = table := rfl

theorem replay_concat
    : replay rule table (entries ++ [e]) = post rule (replay rule table entries) e := by
  simp [replay]

theorem post_apply (hne : e.left ≠ e.right)
    : post rule table e x
        =
      if x = e.right then (rule (table e.left) (table e.right) e.outcome).2
      else if x = e.left then (rule (table e.left) (table e.right) e.outcome).1
      else table x := by
  rw [post, if_neg hne]
  simp only [Function.update_apply]

theorem post_of_not_concerns (h : ¬ e.Concerns x) : post rule table e x = table x := by
  unfold post
  split
  . rfl
  . rw [Function.update_of_ne (fun heq => h (.inr heq)),
      Function.update_of_ne (fun heq => h (.inl heq))]

theorem replay_of_not_concerns (h : ∀ e ∈ entries, ¬ e.Concerns x)
    : replay rule table entries x = table x := by
  induction entries using List.reverseRecOn with
  | nil => rfl
  | append_singleton entries e ih =>
    rw [replay_concat, post_of_not_concerns (h e (by simp))]
    exact ih fun e' he' => h e' (List.mem_append_left _ he')

/-! ## Bounds -/

/--
No entry changes a balance by more than `k`.
-/
def Moderate (rule : Int → Int → ρ → Int × Int) (k : Int) : Prop :=
  ∀ a b r, |(rule a b r).1 - a| ≤ k ∧ |(rule a b r).2 - b| ≤ k

/--
No entry makes or loses more than `d` points.
-/
def Drifts (rule : Int → Int → ρ → Int × Int) (d : Int) : Prop :=
  ∀ a b r, |(rule a b r).1 + (rule a b r).2 - (a + b)| ≤ d

theorem Moderate.abs_post_sub_le (h : Moderate rule k) (hk : 0 ≤ k) (table : ι → Int)
    (e : LedgerEntry ι ρ) (x : ι)
    : |post rule table e x - table x| ≤ k := by
  by_cases hne : e.left = e.right
  . rw [post, if_pos hne, sub_self, abs_zero]
    exact hk
  . obtain ⟨hleft, hright⟩ := h (table e.left) (table e.right) e.outcome
    rw [post_apply hne]
    split
    . next heq => rwa [heq]
    . split
      . next heq => rwa [heq]
      . rw [sub_self, abs_zero]
        exact hk

theorem Moderate.abs_replay_sub_le (h : Moderate rule k) (hk : 0 ≤ k) (table : ι → Int)
    (entries : List (LedgerEntry ι ρ)) (x : ι)
    : |replay rule table entries x - table x| ≤ k * entries.countP (·.Concerns x) := by
  induction entries using List.reverseRecOn with
  | nil => simp
  | append_singleton entries e ih =>
    rw [replay_concat, List.countP_append, List.countP_singleton]
    by_cases hconcerns : e.Concerns x
    . have hstep := h.abs_post_sub_le hk (replay rule table entries) e x
      have htriangle := abs_sub_le (post rule (replay rule table entries) e x)
        (replay rule table entries x) (table x)
      rw [if_pos (by simpa using hconcerns)]
      push_cast
      linarith
    . rw [post_of_not_concerns hconcerns, if_neg (by simpa using hconcerns), Nat.add_zero]
      exact ih

theorem sum_post (hne : e.left ≠ e.right) (hleft : e.left ∈ s) (hright : e.right ∈ s)
    : ∑ x ∈ s, post rule table e x
        =
      ∑ x ∈ s, table x + ((rule (table e.left) (table e.right) e.outcome).1
        + (rule (table e.left) (table e.right) e.outcome).2 - (table e.left + table e.right)) := by
  have hleft' : e.left ∈ s \ {e.right} := by simp [hleft, hne]
  rw [post, if_neg hne, Finset.sum_update_of_mem hright, Finset.sum_update_of_mem hleft',
    Finset.sum_eq_add_sum_sdiff_singleton_of_mem hright table,
    Finset.sum_eq_add_sum_sdiff_singleton_of_mem hleft' table]
  omega

theorem Drifts.abs_sum_replay_sub_le (h : Drifts rule d) (hd : 0 ≤ d) (table : ι → Int)
    (hmem : ∀ e ∈ entries, e.left ∈ s ∧ e.right ∈ s)
    : |∑ x ∈ s, replay rule table entries x - ∑ x ∈ s, table x| ≤ d * entries.length := by
  induction entries using List.reverseRecOn with
  | nil => simp
  | append_singleton entries e ih =>
    have hbefore := ih fun e' he' => hmem e' (List.mem_append_left _ he')
    rw [replay_concat, List.length_append, List.length_singleton]
    push_cast
    by_cases hne : e.left = e.right
    . rw [post, if_pos hne]
      linarith
    . obtain ⟨hleft, hright⟩ := hmem e (by simp)
      rw [sum_post hne hleft hright]
      have hstep := h (replay rule table entries e.left) (replay rule table entries e.right)
        e.outcome
      rw [abs_le] at *
      constructor <;> linarith

end Ledger
