import Mathlib.Data.List.Basic

/-!
Singly linked lists whose nodes are never given back: a node is known by the order in which it was
allocated. A loop follows the links, looks for a value and remembers the last node, and a new node
is linked behind that one.
-/

structure ListNode (α : Type) where
  val : α
  next : Option Nat
  deriving DecidableEq, Repr

structure LinkedList (α : Type) where
  nodes : List (ListNode α)
  head : Option Nat
  deriving DecidableEq, Repr

namespace LinkedList

variable {α : Type}

def empty : LinkedList α := ⟨[], none⟩

inductive Search (α : Type) where
  | found (val : α)
  | absent (last : Option Nat)
  | fails

/--
The loop from the node `current` on, for at most so many nodes. `visit` tells for each value whether
it is the right one, and nothing when the value cannot be looked at.
-/
def searchFrom (l : LinkedList α) (visit : α → Option Bool)
    : Nat → Option Nat → Option Nat → Search α
  | 0, _, _ => .fails
  | _ + 1, none, last => .absent last
  | fuel + 1, some current, last =>
    match l.nodes[current]? with
    | none => .fails
    | some node =>
      match visit node.val with
      | none => .fails
      | some true => .found node.val
      | some false =>
        l.searchFrom visit fuel node.next (if node.next = none then some current else last)

def search (l : LinkedList α) (visit : α → Option Bool) : Search α :=
  l.searchFrom visit (l.nodes.length + 1) l.head none

def insertAfter (l : LinkedList α) (last : Option Nat) (val : α) : LinkedList α :=
  match last with
  | none => ⟨l.nodes ++ [⟨val, none⟩], some l.nodes.length⟩
  | some i =>
    ⟨l.nodes.modify i (fun node => { node with next := some l.nodes.length }) ++ [⟨val, none⟩],
      l.head⟩

def toList (l : LinkedList α) : List α := l.nodes.map (·.val)

def link (l : LinkedList α) (i : Nat) : Option Nat := if i < l.nodes.length then some i else none

def last? (l : LinkedList α) : Option Nat :=
  if l.nodes.length = 0 then none else some (l.nodes.length - 1)

structure Linked (l : LinkedList α) : Prop where
  head : l.head = l.link 0
  next : ∀ (i : Nat) (node : ListNode α), l.nodes[i]? = some node → node.next = l.link (i + 1)

variable {l : LinkedList α} {visit : α → Option Bool} {val : α}

theorem linked_empty : (empty : LinkedList α).Linked where
  head := rfl
  next := by simp [empty]

@[simp]
theorem toList_insertAfter (last : Option Nat) : (l.insertAfter last val).toList = l.toList ++ [val] := by
  unfold insertAfter toList
  split
  . simp
  . next i =>
    simp only [List.map_append, List.map_cons, List.map_nil]
    congr 1
    apply List.ext_getElem?
    intro j
    by_cases heq : j = i
    . subst heq
      simp only [List.getElem?_map, List.getElem?_modify_eq]
      cases l.nodes[j]? <;> rfl
    . simp only [List.getElem?_map]
      rw [List.getElem?_modify_ne _ _ (Ne.symm heq)]

/-! ## Search -/

theorem getElem?_toList (i : Nat) : l.toList[i]? = (l.nodes[i]?).map (·.val) := List.getElem?_map ..

theorem Linked.searchFrom (h : l.Linked) (hvisit : ∀ v ∈ l.toList, ∃ b, visit v = some b)
    {fuel i : Nat} (hi : i ≤ l.nodes.length) (hfuel : l.nodes.length - i < fuel)
    : l.searchFrom visit fuel (l.link i) (if i < l.nodes.length then none else l.last?)
        =
      match (l.toList.drop i).find? (visit · = some true) with
      | some v => .found v
      | none => .absent l.last? := by
  induction fuel generalizing i with
  | zero => omega
  | succ fuel ih =>
    unfold link
    by_cases hlt : i < l.nodes.length
    . obtain ⟨node, hnode⟩ : ∃ node, l.nodes[i]? = some node := ⟨_, List.getElem?_eq_getElem hlt⟩
      have hval : l.toList[i]? = some node.val := by rw [getElem?_toList, hnode]; rfl
      have hdrop : l.toList.drop i = node.val :: l.toList.drop (i + 1) := by
        rw [List.drop_eq_getElem?_toList_append, hval]
        rfl
      obtain ⟨b, hb⟩ := hvisit node.val (List.mem_of_getElem? hval)
      have hnext := h.next i node hnode
      rw [if_pos hlt, if_pos hlt, hdrop]
      dsimp only [LinkedList.searchFrom]
      rw [hnode]
      dsimp only
      rw [hb]
      cases b with
      | true => simp [hb]
      | false =>
        specialize ih (i := i + 1) (by omega) (by omega)
        have hlast : (if node.next = none then some i else none)
            = if i + 1 < l.nodes.length then none else l.last? := by
          rw [hnext]
          unfold link last?
          split
          . next hmore => simp
          . next hend =>
            rw [if_pos rfl, if_neg (by omega)]
            congr 1
            omega
        dsimp only
        rw [hlast, hnext, ih]
        simp [hb]
    . obtain rfl : i = l.nodes.length := by omega
      have hdrop : l.toList.drop l.nodes.length = [] := by
        apply List.drop_eq_nil_of_le
        simp [toList]
      rw [if_neg hlt, if_neg hlt, hdrop]
      rfl

theorem Linked.search (h : l.Linked) (hvisit : ∀ v ∈ l.toList, ∃ b, visit v = some b)
    : l.search visit
        =
      match l.toList.find? (visit · = some true) with
      | some v => .found v
      | none => .absent l.last? := by
  have hnone : (if 0 < l.nodes.length then none else l.last?) = none := by
    unfold last?
    split
    . rfl
    . rw [if_pos (by omega)]
  have hfrom := h.searchFrom hvisit (Nat.zero_le _) (Nat.lt_succ_self (l.nodes.length - 0))
  rw [hnone, ← h.head] at hfrom
  exact hfrom

/-! ## Insertion -/

theorem Linked.insertAfter (h : l.Linked) : (l.insertAfter l.last? val).Linked := by
  unfold LinkedList.insertAfter last?
  split
  . next last hlast =>
    split at hlast
    . next hempty =>
      rw [List.length_eq_zero_iff] at hempty
      refine ⟨by simp [hempty, link], ?_⟩
      intro i node hnode
      cases i <;> simp [hempty, link] at hnode ⊢
      rw [← hnode]
    . simp at hlast
  . next last i hlast =>
    split at hlast
    . simp at hlast
    . next hne =>
      obtain rfl := Option.some.inj hlast
      refine ⟨?_, ?_⟩
      . rw [h.head]
        unfold link
        rw [if_pos (by omega), if_pos (by simp)]
      . intro i node hnode
        unfold link
        rcases Nat.lt_trichotomy i l.nodes.length with hlt | rfl | hgt
        . obtain ⟨old, hold⟩ : ∃ old, l.nodes[i]? = some old := ⟨_, List.getElem?_eq_getElem hlt⟩
          rw [List.getElem?_append_left (by simpa using hlt)] at hnode
          rw [if_pos (by simp; omega)]
          by_cases heq : i = l.nodes.length - 1
          . rw [heq, List.getElem?_modify_eq, ← heq, hold] at hnode
            rw [← Option.some.inj hnode]
            dsimp only
            congr 1
            omega
          . rw [List.getElem?_modify_ne _ _ (Ne.symm heq), hold] at hnode
            rw [← Option.some.inj hnode, h.next i old hold]
            exact if_pos (by omega)
        . simp only [List.length_append, List.length_modify, List.length_cons, List.length_nil]
          rw [if_neg (by omega)]
          have hnew : (l.nodes.modify (l.nodes.length - 1)
              (fun node => { node with next := some l.nodes.length }) ++ [⟨val, none⟩])[l.nodes.length]?
                = some ⟨val, none⟩ := by
            rw [List.getElem?_append_right (by simp)]
            simp
          rw [hnew, Option.some.injEq] at hnode
          rw [← hnode]
        . rw [List.getElem?_eq_none (by simp; omega)] at hnode
          simp at hnode

end LinkedList
