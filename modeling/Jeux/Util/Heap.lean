/-!
A heap of reference counted objects of one type. Addresses are handed out in order and are never
used again, so an object keeps its address for ever and a pointer to a freed object can be told
from a pointer to a live one. The contents of a freed object stay readable through `last?`, which
only specifications use.
-/

/--
One allocated object, either still live or already freed.
-/
inductive Cell (α : Type) where
  | live (val : α)
  | freed (val : α)
  deriving DecidableEq, Repr

namespace Cell

variable {α : Type}

def val : Cell α → α
  | .live v => v
  | .freed v => v

def live? : Cell α → Option α
  | .live v => some v
  | .freed _ => none

def map (f : α → α) : Cell α → Cell α
  | .live v => .live (f v)
  | .freed v => .freed v

def kill : Cell α → Cell α
  | .live v => .freed v
  | .freed v => .freed v

def sat (P : α → Bool) : Cell α → Bool
  | .live v => P v
  | .freed _ => false

end Cell

structure Heap (α : Type) where
  cells : List (Cell α)
  deriving DecidableEq, Repr

namespace Heap

variable {α : Type}

def empty : Heap α := ⟨[]⟩

def get? (h : Heap α) (p : Nat) : Option α := h.cells[p]?.bind Cell.live?

/--
The object at address `p`, live or freed; a freed one as it was when it was freed.
-/
def last? (h : Heap α) (p : Nat) : Option α := h.cells[p]?.map Cell.val

def next (h : Heap α) : Nat := h.cells.length

def push (h : Heap α) (v : α) : Heap α := ⟨h.cells ++ [.live v]⟩

def modify (h : Heap α) (p : Nat) (f : α → α) : Heap α := ⟨h.cells.modify p (Cell.map f)⟩

def free (h : Heap α) (p : Nat) : Heap α := ⟨h.cells.modify p Cell.kill⟩

def countP (h : Heap α) (P : α → Bool) : Nat := h.cells.countP (Cell.sat P)

variable {h : Heap α} {p q : Nat} {v : α} {f g : α → α} {P : α → Bool}

@[simp]
theorem get?_empty : (empty : Heap α).get? p = none := rfl

@[simp]
theorem last?_empty : (empty : Heap α).last? p = none := rfl

@[simp]
theorem next_empty : (empty : Heap α).next = 0 := rfl

theorem lt_next_of_get? (hp : h.get? p = some v) : p < h.next := by
  unfold get? at hp
  rw [Option.bind_eq_some_iff] at hp
  obtain ⟨c, hc, -⟩ := hp
  exact (List.getElem?_eq_some_iff.mp hc).1

theorem ne_next_of_get? (hp : h.get? p = some v) : p ≠ h.next :=
  Nat.ne_of_lt (lt_next_of_get? hp)

@[simp]
theorem get?_next : h.get? h.next = none := by
  simp [get?, next]

@[simp]
theorem last?_next : h.last? h.next = none := by
  simp [last?, next]

theorem last?_of_get? (hp : h.get? p = some v) : h.last? p = some v := by
  unfold get? at hp
  rw [Option.bind_eq_some_iff] at hp
  obtain ⟨c, hc, hv⟩ := hp
  cases c with
  | live w =>
    simp only [Cell.live?, Option.some.injEq] at hv
    simp [last?, hc, Cell.val, hv]
  | freed w => simp [Cell.live?] at hv

theorem last?_eq_none : h.last? p = none ↔ h.next ≤ p := by
  simp [last?, next]

theorem lt_next_of_last? (hp : h.last? p = some v) : p < h.next := by
  rw [← Nat.not_le, ← last?_eq_none]
  simp [hp]

@[simp]
theorem get?_push : (h.push v).get? p = if p = h.next then some v else h.get? p := by
  unfold push get? next
  split
  . next heq =>
    subst heq
    simp [Cell.live?]
  . next hne =>
    cases Nat.lt_or_gt_of_ne hne with
    | inl hlt => simp [List.getElem?_append_left hlt]
    | inr hgt =>
      rw [List.getElem?_eq_none (by simp; omega), List.getElem?_eq_none (by omega)]

@[simp]
theorem get?_push_next : (h.push v).get? h.next = some v := by
  simp [get?_push]

theorem get?_push_of_get? {w : α} (hp : h.get? p = some w) : (h.push v).get? p = some w := by
  simp [get?_push, ne_next_of_get? hp, hp]

theorem last?_push : (h.push v).last? p = if p = h.next then some v else h.last? p := by
  unfold push last? next
  split
  . next heq =>
    subst heq
    simp [Cell.val]
  . next hne =>
    cases Nat.lt_or_gt_of_ne hne with
    | inl hlt => simp [List.getElem?_append_left hlt]
    | inr hgt =>
      rw [List.getElem?_eq_none (by simp; omega), List.getElem?_eq_none (by omega)]

theorem get?_modify : (h.modify p f).get? q = if q = p then (h.get? q).map f else h.get? q := by
  unfold modify get?
  dsimp only
  split
  . next heq =>
    subst heq
    rw [List.getElem?_modify_eq]
    cases h.cells[q]? with
    | none => rfl
    | some c => cases c <;> rfl
  . next hne => rw [List.getElem?_modify_ne _ _ (Ne.symm hne)]

@[simp]
theorem get?_modify_self : (h.modify p f).get? p = (h.get? p).map f := by
  simp [get?_modify]

@[simp]
theorem get?_modify_ne (hne : q ≠ p) : (h.modify p f).get? q = h.get? q := by
  simp [get?_modify, hne]

theorem get?_modify_eq_some {w : α}
    : (h.modify p f).get? q = some w
        ↔
      ∃ v, h.get? q = some v ∧ (if q = p then f v else v) = w := by
  rw [get?_modify]
  split
  . rw [Option.map_eq_some_iff]
  . simp

theorem get?_free : (h.free p).get? q = if q = p then none else h.get? q := by
  unfold free get?
  dsimp only
  split
  . next heq =>
    subst heq
    rw [List.getElem?_modify_eq]
    cases h.cells[q]? with
    | none => rfl
    | some c => cases c <;> rfl
  . next hne => rw [List.getElem?_modify_ne _ _ (Ne.symm hne)]

@[simp]
theorem get?_free_self : (h.free p).get? p = none := by
  simp [get?_free]

@[simp]
theorem get?_free_ne (hne : q ≠ p) : (h.free p).get? q = h.get? q := by
  simp [get?_free, hne]

@[simp]
theorem last?_free : (h.free p).last? q = h.last? q := by
  unfold free last?
  dsimp only
  by_cases heq : q = p
  . subst heq
    rw [List.getElem?_modify_eq]
    cases h.cells[q]? with
    | none => rfl
    | some c => cases c <;> rfl
  . rw [List.getElem?_modify_ne _ _ (Ne.symm heq)]

@[simp]
theorem last?_modify_ne (hne : q ≠ p) : (h.modify p f).last? q = h.last? q := by
  unfold modify last?
  dsimp only
  rw [List.getElem?_modify_ne _ _ (Ne.symm hne)]

theorem last?_modify_self (hp : h.get? p = some v) : (h.modify p f).last? p = some (f v) := by
  apply last?_of_get?
  simp [hp]

theorem last?_modify_of_none (hp : h.get? p = none) : (h.modify p f).last? q = h.last? q := by
  by_cases heq : q = p
  . subst heq
    unfold get? at hp
    unfold modify last?
    dsimp only
    rw [List.getElem?_modify_eq]
    cases hc : h.cells[q]? with
    | none => rfl
    | some c =>
      cases c with
      | live w => simp [hc, Cell.live?] at hp
      | freed w => rfl
  . exact last?_modify_ne heq

theorem map_get?_modify {β : Type} {π : α → β} (hπ : ∀ v, π (f v) = π v)
    : ((h.modify p f).get? q).map π = (h.get? q).map π := by
  rw [get?_modify]
  split
  . cases h.get? q <;> simp [hπ]
  . rfl

theorem map_last?_modify {β : Type} {π : α → β} (hπ : ∀ v, π (f v) = π v)
    : ((h.modify p f).last? q).map π = (h.last? q).map π := by
  unfold modify last?
  dsimp only
  by_cases heq : q = p
  . subst heq
    rw [List.getElem?_modify_eq]
    cases hc : h.cells[q]? with
    | none => rfl
    | some c => cases c <;> simp [Cell.map, Cell.val, hπ]
  . rw [List.getElem?_modify_ne _ _ (Ne.symm heq)]

@[simp]
theorem next_push : (h.push v).next = h.next + 1 := by
  simp [push, next]

@[simp]
theorem next_modify : (h.modify p f).next = h.next := by
  simp [modify, next]

@[simp]
theorem next_free : (h.free p).next = h.next := by
  simp [free, next]

theorem modify_modify : (h.modify p f).modify p g = h.modify p (g ∘ f) := by
  unfold modify
  simp only [List.modify_modify_eq, Heap.mk.injEq]
  congr 1
  funext c
  cases c <;> rfl

theorem modify_comm (hne : p ≠ q) : (h.modify p f).modify q g = (h.modify q g).modify p f := by
  unfold modify
  simp only [Heap.mk.injEq]
  rw [List.modify_modify_ne _ _ _ hne]

theorem modify_commute (hfg : ∀ v, g (f v) = f (g v))
    : (h.modify p f).modify q g = (h.modify q g).modify p f := by
  by_cases heq : p = q
  . subst heq
    rw [modify_modify, modify_modify]
    congr 1
    funext v
    exact hfg v
  . exact modify_comm heq

theorem modify_congr (hp : h.get? p = some v) (hfg : f v = g v) : h.modify p f = h.modify p g := by
  unfold get? at hp
  rw [Option.bind_eq_some_iff] at hp
  obtain ⟨c, hc, hv⟩ := hp
  have hmap : Cell.map f c = Cell.map g c := by
    cases c with
    | live w =>
      simp only [Cell.live?, Option.some.injEq] at hv
      simp [Cell.map, hv, hfg]
    | freed w => simp [Cell.live?] at hv
  unfold modify
  rw [Heap.mk.injEq]
  apply List.ext_getElem?
  intro i
  by_cases heq : i = p
  . subst heq
    simp [hc, hmap]
  . rw [List.getElem?_modify_ne _ _ (Ne.symm heq), List.getElem?_modify_ne _ _ (Ne.symm heq)]

theorem modify_eq_self (hp : h.get? p = some v) (hf : f v = v) : h.modify p f = h := by
  rw [modify_congr (g := id) hp hf]
  unfold modify
  have : Cell.map (id : α → α) = id := by
    funext c
    cases c <;> rfl
  rw [this, List.modify_id]

@[simp]
theorem modify_push_next : (h.push v).modify h.next f = h.push (f v) := by
  unfold push modify next
  simp [List.modify_eq_take_drop, Cell.map]

/-! ## What is freed stays freed -/

structure Extends (h h' : Heap α) : Prop where
  next_le : h.next ≤ h'.next
  freed : ∀ p < h.next, h.get? p = none → h'.get? p = none ∧ h'.last? p = h.last? p

theorem Extends.refl (h : Heap α) : h.Extends h where
  next_le := Nat.le_refl _
  freed := fun _ _ hp => ⟨hp, rfl⟩

theorem Extends.trans {h h' h'' : Heap α} (hh : h.Extends h') (hh' : h'.Extends h'')
    : h.Extends h'' where
  next_le := Nat.le_trans hh.next_le hh'.next_le
  freed := by
    intro p hlt hp
    obtain ⟨hp', hlast⟩ := hh.freed p hlt hp
    obtain ⟨hp'', hlast'⟩ := hh'.freed p (Nat.lt_of_lt_of_le hlt hh.next_le) hp'
    exact ⟨hp'', hlast'.trans hlast⟩

theorem extends_push (h : Heap α) (v : α) : h.Extends (h.push v) where
  next_le := by simp
  freed := by
    intro p hlt hp
    rw [get?_push, last?_push, if_neg (Nat.ne_of_lt hlt), if_neg (Nat.ne_of_lt hlt)]
    exact ⟨hp, rfl⟩

theorem extends_modify (h : Heap α) (q : Nat) (f : α → α) : h.Extends (h.modify q f) where
  next_le := by simp
  freed := by
    intro p _ hp
    constructor
    . rw [get?_modify]
      split
      . simp [hp]
      . exact hp
    . by_cases heq : p = q
      . subst heq
        exact last?_modify_of_none hp
      . exact last?_modify_ne heq

theorem extends_free (h : Heap α) (q : Nat) : h.Extends (h.free q) where
  next_le := by simp
  freed := by
    intro p _ hp
    refine ⟨?_, last?_free⟩
    rw [get?_free]
    split
    . rfl
    . exact hp

/-! ## Counting live objects -/

private theorem countP_list_modify {β : Type} {l : List β} {i : Nat} {a : β} {F : β → β}
    {Q : β → Bool} (ha : l[i]? = some a)
    : (l.modify i F).countP Q + (if Q a then 1 else 0)
        =
      l.countP Q + (if Q (F a) then 1 else 0) := by
  induction l generalizing i with
  | nil => simp at ha
  | cons b l ih =>
    cases i with
    | zero =>
      simp only [List.getElem?_cons_zero, Option.some.injEq] at ha
      subst ha
      simp only [List.modify_zero_cons, List.countP_cons]
      omega
    | succ i =>
      simp only [List.getElem?_cons_succ] at ha
      specialize ih ha
      simp only [List.modify_succ_cons, List.countP_cons]
      omega

private theorem cells_of_get? (hp : h.get? p = some v) : h.cells[p]? = some (.live v) := by
  unfold get? at hp
  rw [Option.bind_eq_some_iff] at hp
  obtain ⟨c, hc, hv⟩ := hp
  cases c with
  | live w =>
    simp only [Cell.live?, Option.some.injEq] at hv
    rw [hc, hv]
  | freed w => simp [Cell.live?] at hv

@[simp]
theorem countP_push : (h.push v).countP P = h.countP P + if P v then 1 else 0 := by
  cases hv : P v
  all_goals simp [push, countP, Cell.sat, hv]

theorem countP_modify (hp : h.get? p = some v)
    : (h.modify p f).countP P + (if P v then 1 else 0)
        =
      h.countP P + (if P (f v) then 1 else 0) :=
  countP_list_modify (Q := Cell.sat P) (F := Cell.map f) (cells_of_get? hp)

theorem countP_modify_eq (hP : ∀ v, h.get? p = some v → P (f v) = P v)
    : (h.modify p f).countP P = h.countP P := by
  cases hp : h.get? p with
  | none =>
    unfold countP modify
    dsimp only
    unfold get? at hp
    cases hc : h.cells[p]? with
    | none => rw [List.modify_eq_self (List.getElem?_eq_none_iff.mp hc)]
    | some c =>
      have := countP_list_modify (Q := Cell.sat P) (F := Cell.map f) hc
      cases c with
      | live w => simp [hc, Cell.live?] at hp
      | freed w =>
        simp only [Cell.sat, Cell.map, Bool.false_eq_true, ↓reduceIte, Nat.add_zero] at this
        exact this
  | some w =>
    have := countP_modify (f := f) (P := P) hp
    rw [hP w hp] at this
    omega

theorem countP_free (hp : h.get? p = some v)
    : (h.free p).countP P + (if P v then 1 else 0) = h.countP P := by
  have := countP_list_modify (Q := Cell.sat P) (F := Cell.kill) (cells_of_get? hp)
  simp only [Cell.sat, Cell.kill, Bool.false_eq_true, ↓reduceIte, Nat.add_zero] at this
  exact this

theorem countP_pos (hp : h.get? p = some v) (hv : P v = true) : 0 < h.countP P := by
  unfold countP
  rw [List.countP_pos_iff]
  exact ⟨.live v, List.mem_of_getElem? (cells_of_get? hp), hv⟩

theorem countP_eq_zero (hP : ∀ p v, h.get? p = some v → P v = false) : h.countP P = 0 := by
  unfold countP
  rw [List.countP_eq_zero]
  intro c hc
  cases c with
  | freed w => simp [Cell.sat]
  | live w =>
    obtain ⟨i, hi⟩ := List.getElem?_of_mem hc
    have := hP i w (by simp [get?, hi, Cell.live?])
    simp [Cell.sat, this]

theorem countP_eq_one (hp : h.get? p = some v) (hv : P v = true)
    (hunique : ∀ q w, h.get? q = some w → P w = true → q = p) : h.countP P = 1 := by
  have hfree := countP_free (P := P) hp
  have hrest : (h.free p).countP P = 0 := by
    apply countP_eq_zero
    intro q w hq
    rw [get?_free] at hq
    split at hq
    . simp at hq
    . next hne =>
      cases hw : P w with
      | false => rfl
      | true => exact absurd (hunique q w hq hw) hne
  rw [if_pos hv] at hfree
  omega

theorem countP_or {Q : α → Bool}
    (hdisjoint : ∀ p v, h.get? p = some v → ¬ (P v = true ∧ Q v = true))
    : h.countP (fun v => P v || Q v) = h.countP P + h.countP Q := by
  have hcell : ∀ c ∈ h.cells, ¬ (c.sat P = true ∧ c.sat Q = true) := by
    intro c hc
    cases c with
    | freed w => simp [Cell.sat]
    | live w =>
      obtain ⟨i, hi⟩ := List.getElem?_of_mem hc
      apply hdisjoint i w
      simp [get?, hi, Cell.live?]
  unfold countP
  revert hcell
  induction h.cells with
  | nil => exact fun _ => rfl
  | cons c rest ih =>
    intro hcell
    have hrest := ih fun c' hc' => hcell c' (List.mem_cons_of_mem _ hc')
    have hc := hcell c (List.mem_cons_self ..)
    have hsat : c.sat (fun v => P v || Q v) = (c.sat P || c.sat Q) := by
      cases c <;> rfl
    simp only [List.countP_cons, hrest, hsat]
    cases hP : c.sat P with
    | false =>
      simp only [Bool.false_or, Bool.false_eq_true, ↓reduceIte]
      omega
    | true =>
      have hQ : c.sat Q = false := by
        rw [Bool.eq_false_iff]
        exact fun hQ => hc ⟨hP, hQ⟩
      simp only [hQ, Bool.or_false, Bool.false_eq_true, ↓reduceIte]
      omega

theorem get?_of_countP_pos (hP : 0 < h.countP P) : ∃ p v, h.get? p = some v ∧ P v = true := by
  unfold countP at hP
  rw [List.countP_pos_iff] at hP
  obtain ⟨c, hc, hv⟩ := hP
  obtain ⟨i, hi⟩ := List.getElem?_of_mem hc
  cases c with
  | live w => exact ⟨i, w, by simp [get?, hi, Cell.live?], hv⟩
  | freed w => simp [Cell.sat] at hv

end Heap
