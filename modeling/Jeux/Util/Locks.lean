import Mathlib.Data.Finset.Max
import Jeux.Util.Threads

/-!
Threads that take and release locks, and the ways they can wait for each other.

What a thread has still to do is a list of instructions: to take a lock, to release one, or to run a
piece of code that looks at the memory and decides what comes next. A lock has a value, the number of
times it can be taken; a mutex is a lock with the value one.
-/

inductive Instr (R C : Type) where
  | acquire (r : R)
  | release (r : R)
  | run (c : C)
  deriving DecidableEq, Repr

structure LockMemory (R S : Type) where
  value : R → Nat
  data : S

structure LockThread (R C : Type) where
  held : List R
  todo : List (Instr R C)
  deriving DecidableEq, Repr

structure LockCode (R S C A : Type) where
  main : List (Instr R C)
  run : Nat → LockMemory R S → C → A → Option (LockMemory R S × List (Instr R C))

namespace LockMemory

variable {R S : Type} [DecidableEq R]

def take (m : LockMemory R S) (r : R) : LockMemory R S :=
  { m with value := Function.update m.value r (m.value r - 1) }

def give (m : LockMemory R S) (r : R) : LockMemory R S :=
  { m with value := Function.update m.value r (m.value r + 1) }

end LockMemory

namespace LockCode

open Program

variable {R S C A : Type} [DecidableEq R] (code : LockCode R S C A)

def program [DecidableEq C] : Program (LockMemory R S) (LockThread R C) A where
  starts _ p := p = ⟨[], code.main⟩
  step self m p a :=
    match p.todo with
    | [] => none
    | .acquire r :: todo =>
      if m.value r = 0 then none else some (m.take r, ⟨r :: p.held, todo⟩)
    | .release r :: todo => some (m.give r, ⟨p.held.erase r, todo⟩)
    | .run c :: todo => (code.run self m c a).map fun next => (next.1, ⟨p.held, next.2 ++ todo⟩)

inductive Acts (self : Nat) (m : LockMemory R S)
    : LockThread R C → LockMemory R S → LockThread R C → Prop
  | acquires (r : R) (held : List R) (todo : List (Instr R C)) (hvalue : m.value r ≠ 0)
      : Acts self m ⟨held, .acquire r :: todo⟩ (m.take r) ⟨r :: held, todo⟩
  | releases (r : R) (held : List R) (todo : List (Instr R C))
      : Acts self m ⟨held, .release r :: todo⟩ (m.give r) ⟨held.erase r, todo⟩
  | runs (c : C) (a : A) (held : List R) (todo next : List (Instr R C)) (m' : LockMemory R S)
      (hrun : code.run self m c a = some (m', next))
      : Acts self m ⟨held, .run c :: todo⟩ m' ⟨held, next ++ todo⟩

theorem acts_of_step [DecidableEq C] {self : Nat} {m m' : LockMemory R S} {p p' : LockThread R C} {a : A}
    (h : code.program.step self m p a = some (m', p')) : code.Acts self m p m' p' := by
  obtain ⟨held, todo⟩ := p
  dsimp only [program] at h
  split at h
  . simp at h
  . next r todo =>
    split at h
    . simp at h
    . next hvalue =>
      cases h
      exact .acquires r held todo hvalue
  . next r todo =>
    cases h
    exact .releases r held todo
  . next c todo =>
    rw [Option.map_eq_some_iff] at h
    obtain ⟨⟨m₁, next⟩, hrun, heq⟩ := h
    cases heq
    exact .runs c a held todo _ _ hrun

/-! ## One holder at a time -/

variable {code} {T : Threads (LockMemory R S) (LockThread R C)} {i j : Nat} {r : R}

def holders (r : R) (pcs : List (LockThread R C)) : Nat := total (fun p => p.held.count r) pcs

/--
Whoever has taken a lock has it alone.
-/
def Exclusive (T : Threads (LockMemory R S) (LockThread R C)) (r : R) : Prop :=
  T.shared.value r + holders r T.pcs ≤ 1

def Holds (T : Threads (LockMemory R S) (LockThread R C)) (i : Nat) (r : R) : Prop :=
  ∃ p, T.pcs[i]? = some p ∧ r ∈ p.held

theorem holds_of_any (h : T.pcs[i]?.any (fun p => r ∈ p.held) = true) : Holds T i r := by
  rw [Option.any_eq_true] at h
  obtain ⟨p, hp, hr⟩ := h
  exact ⟨p, hp, of_decide_eq_true hr⟩

theorem Exclusive.unique (h : Exclusive T r) (hi : Holds T i r) (hj : Holds T j r) : i = j := by
  obtain ⟨p, hp, hr⟩ := hi
  obtain ⟨q, hq, hr'⟩ := hj
  by_contra hne
  -- without thread `i` there is still thread `j`
  have hrest := total_set (fun p : LockThread R C => p.held.count r) ⟨[], []⟩ hp
  have hleft : (T.pcs.set i ⟨[], []⟩)[j]? = some q := by
    rw [List.getElem?_set_ne hne, hq]
  have hother := weight_le_total (fun p : LockThread R C => p.held.count r) hleft
  have hpos := List.count_pos_iff.mpr hr
  have hpos' := List.count_pos_iff.mpr hr'
  unfold Exclusive holders at h
  simp only [List.count_nil] at hrest
  omega

theorem Exclusive.value_eq_zero (h : Exclusive T r) (hi : Holds T i r) : T.shared.value r = 0 := by
  obtain ⟨p, hp, hr⟩ := hi
  have hweight := weight_le_total (fun p : LockThread R C => p.held.count r) hp
  have hpos := List.count_pos_iff.mpr hr
  unfold Exclusive holders at h
  omega

theorem Exclusive.call (h : Exclusive T r) {p : LockThread R C} (hheld : p.held = [])
    : Exclusive { T with pcs := T.pcs ++ [p] } r := by
  unfold Exclusive holders at h ⊢
  dsimp only
  rw [total_concat, hheld]
  exact h

theorem Exclusive.acquire (h : Exclusive T r) {q : R} {held : List R} {todo : List (Instr R C)}
    (hp : T.pcs[i]? = some ⟨held, .acquire q :: todo⟩) (hvalue : T.shared.value q ≠ 0)
    : Exclusive { shared := T.shared.take q, pcs := T.pcs.set i ⟨q :: held, todo⟩ } r := by
  have htotal := total_set (fun p : LockThread R C => p.held.count r) ⟨q :: held, todo⟩ hp
  unfold Exclusive holders at h ⊢
  dsimp only at htotal ⊢
  unfold LockMemory.take
  by_cases heq : r = q
  . subst heq
    rw [List.count_cons_self] at htotal
    simp only [Function.update_self]
    omega
  . rw [List.count_cons_of_ne (Ne.symm heq)] at htotal
    simp only [Function.update_of_ne heq]
    omega

theorem Exclusive.release (h : Exclusive T r) {q : R} {held : List R} {todo : List (Instr R C)}
    (hp : T.pcs[i]? = some ⟨held, .release q :: todo⟩) (hmem : q ∈ held)
    : Exclusive { shared := T.shared.give q, pcs := T.pcs.set i ⟨held.erase q, todo⟩ } r := by
  have htotal := total_set (fun p : LockThread R C => p.held.count r) ⟨held.erase q, todo⟩ hp
  unfold Exclusive holders at h ⊢
  dsimp only at htotal ⊢
  unfold LockMemory.give
  by_cases heq : r = q
  . subst heq
    rw [List.count_erase_self] at htotal
    have hpos := List.count_pos_iff.mpr hmem
    simp only [Function.update_self]
    omega
  . rw [List.count_erase_of_ne heq] at htotal
    simp only [Function.update_of_ne heq]
    omega

theorem Exclusive.run (h : Exclusive T r) {c : C} {held : List R} {todo next : List (Instr R C)}
    {m : LockMemory R S} (hp : T.pcs[i]? = some ⟨held, .run c :: todo⟩)
    (hvalue : m.value r ≤ T.shared.value r ∨ (m.value r ≤ 1 ∧ holders r T.pcs = 0))
    : Exclusive { shared := m, pcs := T.pcs.set i ⟨held, next ++ todo⟩ } r := by
  have htotal := total_set (fun p : LockThread R C => p.held.count r) ⟨held, next ++ todo⟩ hp
  unfold Exclusive holders at *
  dsimp only at htotal ⊢
  omega

/-! ## Waiting in a circle -/

def LockThread.wants (p : LockThread R C) : Option R :=
  match p.todo with
  | .acquire r :: _ => some r
  | _ => none

/--
A thread that cannot go on before somebody releases a lock.
-/
def Blocked (T : Threads (LockMemory R S) (LockThread R C)) (i : Nat) (r : R) : Prop :=
  ∃ p, T.pcs[i]? = some p ∧ LockThread.wants p = some r ∧ T.shared.value r = 0

/--
Some threads each of which is blocked on a lock that another one of them has taken.
-/
def CircularWait (T : Threads (LockMemory R S) (LockThread R C)) : Prop :=
  ∃ waiting : Finset Nat, waiting.Nonempty
    ∧ ∀ i ∈ waiting, ∃ r, Blocked T i r ∧ ∃ j ∈ waiting, j ≠ i ∧ Holds T j r

section Ranks

variable (rank : R → Nat) (gate : R) (enter : C → List R) (low : C → Nat)

def top : List R → Nat
  | [] => 0
  | r :: held => max (rank r + 1) (top held)

omit [DecidableEq R] in
variable {rank} in
theorem lt_top {held : List R} {q : R} (h : q ∈ held) : rank q < top rank held := by
  induction held with
  | nil => simp at h
  | cons r held ih =>
    unfold top
    rcases List.mem_cons.mp h with rfl | h
    . omega
    . have := ih h
      omega

/--
May a lock be taken by someone who holds these? It must rank above all of them, or at least as high
as all of them if the lock `gate` is among them.
-/
def Allowed (held : List R) (r : R) : Prop :=
  top rank held ≤ rank r ∨ (gate ∈ held ∧ top rank held ≤ rank r + 1)

/--
Locks are taken in the order of their ranks, and only those are released that are held. Who takes a
lock it holds waits for ever. A piece of code `c` is run with the locks `enter c` on top, which it
releases, and below them only such that rank lower than `low c`.
-/
def Ranked : List R → List (Instr R C) → Prop
  | _, [] => True
  | held, .acquire r :: todo => r ∈ held ∨ (Allowed rank gate held r ∧ Ranked (r :: held) todo)
  | held, .release r :: todo => r ∈ held ∧ Ranked (held.erase r) todo
  | held, .run c :: todo =>
    ∃ rest, held = enter c ++ rest ∧ top rank rest ≤ low c ∧ Ranked rest todo

variable {rank gate enter low} {held : List R} {todo : List (Instr R C)}

theorem Ranked.acquire {q : R} (h : top rank held ≤ rank q)
    (htodo : Ranked rank gate enter low (q :: held) todo)
    : Ranked rank gate enter low held (.acquire q :: todo) := .inr ⟨.inl h, htodo⟩

theorem Ranked.release {q : R} (htodo : Ranked rank gate enter low held todo)
    : Ranked rank gate enter low (q :: held) (.release q :: todo) := by
  refine ⟨List.mem_cons_self, ?_⟩
  rw [List.erase_cons_head]
  exact htodo

theorem Ranked.run {c : C} (h : top rank held ≤ low c)
    (htodo : Ranked rank gate enter low held todo)
    : Ranked rank gate enter low (enter c ++ held) (.run c :: todo) := ⟨held, rfl, h, htodo⟩

theorem Ranked.allowed (h : Ranked rank gate enter low held (.acquire r :: todo))
    : r ∈ held ∨ Allowed rank gate held r := h.imp id And.left

/--
Who waits for a lock holds it already, or all it holds ranks at most as high, and strictly lower
unless it is behind the gate.
-/
theorem rank_le_of_blocked (h : Each (fun _ _ p => Ranked rank gate enter low p.held p.todo) T)
    {q : R} (hblocked : Blocked T i r) (hholds : Holds T i q)
    : Holds T i r ∨ rank q < rank r ∨ (rank q = rank r ∧ Holds T i gate) := by
  obtain ⟨p, hp, hwants, -⟩ := hblocked
  obtain ⟨p', hp', hq⟩ := hholds
  obtain rfl := Option.some.inj (hp.symm.trans hp')
  have hranked := h i p hp
  obtain ⟨held, todo⟩ := p
  unfold LockThread.wants at hwants
  split at hwants
  . next heq =>
    obtain rfl := Option.some.inj hwants
    dsimp only at heq hranked hq
    rw [heq] at hranked
    rcases hranked.allowed with hself | hbelow | ⟨hgate, hle⟩
    . exact .inl ⟨_, hp, hself⟩
    . have : rank q < top rank held := lt_top hq
      exact .inr (.inl (by omega))
    . have : rank q < top rank held := lt_top hq
      have : rank q ≤ rank _ := Nat.le_of_lt_succ (Nat.lt_of_lt_of_le this hle)
      rcases Nat.lt_or_eq_of_le this with hlt | heq
      . exact .inr (.inl hlt)
      . exact .inr (.inr ⟨heq, _, hp, hgate⟩)
  . simp at hwants

/--
Where locks are taken in the order of their ranks there is no circle: of the locks waited for take
one of the highest rank. Its holder waits for one of the same rank, so it is behind the gate, and so
is the holder of that one; but there is room for one only.
-/
theorem not_circularWait (hranked : Each (fun _ _ p => Ranked rank gate enter low p.held p.todo) T)
    (hexclusive : ∀ r, Exclusive T r) : ¬ CircularWait T := by
  rintro ⟨waiting, hnonempty, hwaits⟩
  obtain ⟨first, hfirst⟩ := hnonempty
  have : Nonempty R := ⟨(hwaits first hfirst).choose⟩
  choose! want hblocked holder hmem hne hholds using hwaits
  -- nobody in the circle waits for a lock it has itself
  have hnot (i : Nat) (hi : i ∈ waiting) : ¬ Holds T i (want i) := by
    intro hself
    exact hne i hi ((hexclusive _).unique (hholds i hi) hself)
  obtain ⟨top, htop, hmax⟩ := waiting.exists_max_image (fun i => rank (want i)) ⟨first, hfirst⟩
  have hgate (i : Nat) (hi : i ∈ waiting) (hrank : rank (want top) ≤ rank (want i))
      : Holds T (holder i) gate ∧ rank (want top) ≤ rank (want (holder i)) := by
    have hj := hmem i hi
    have hbound := hmax _ hj
    rcases rank_le_of_blocked hranked (hblocked _ hj) (hholds i hi) with hself | hlt | ⟨heq, hgate⟩
    . exact absurd hself (hnot _ hj)
    . omega
    . exact ⟨hgate, by omega⟩
  obtain ⟨hbehind, hrank⟩ := hgate top htop (Nat.le_refl _)
  obtain ⟨hbehind', -⟩ := hgate _ (hmem top htop) hrank
  exact hne _ (hmem top htop) ((hexclusive gate).unique hbehind' hbehind)

end Ranks

end LockCode
