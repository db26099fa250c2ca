import Mathlib.Data.List.ReduceOption
import Jeux.Impl.Registry

/-!
What registering and unregistering a client does to the array of the client registry.
-/

namespace Jeux

namespace ClientRegistry

variable {cr : ClientRegistry} {client : ClientPtr}

structure Ok (cr : ClientRegistry) : Prop where
  clients_length : cr.clients.length = maxClients
  room : cr.loginQueue + cr.length = maxClients
  nodup : cr.members.Nodup

def enrol (cr : ClientRegistry) (c : Option ClientPtr) : ClientRegistry :=
  { cr with loginQueue := cr.loginQueue - 1 }.insert c

theorem slots_insert (c : Option ClientPtr) (hlen : cr.length < cr.clients.length)
    : (cr.insert c).slots = cr.slots ++ [c] := by
  unfold insert slots
  dsimp only
  rw [List.take_add_one, List.take_set_of_le (Nat.le_refl _)]
  simp [hlen]

theorem slots_enrol (c : Option ClientPtr) (hlen : cr.length < cr.clients.length)
    : (cr.enrol c).slots = cr.slots ++ [c] := slots_insert c hlen

theorem Ok.length_lt (h : cr.Ok) (hqueue : cr.loginQueue ≠ 0) : cr.length < cr.clients.length := by
  have := h.room
  rw [h.clients_length]
  omega

theorem Ok.members_enrol (h : cr.Ok) (hqueue : cr.loginQueue ≠ 0) (c : Option ClientPtr)
    : (cr.enrol c).members = cr.members ++ c.toList := by
  unfold members
  rw [slots_enrol _ (h.length_lt hqueue), List.reduceOption_append]
  cases c <;> rfl

theorem Ok.enrol (h : cr.Ok) (hqueue : cr.loginQueue ≠ 0) {c : Option ClientPtr}
    (hfresh : ∀ client ∈ c, client ∉ cr.members) : (cr.enrol c).Ok where
  clients_length := by simp [ClientRegistry.enrol, insert, h.clients_length]
  room := by
    have := h.room
    simp only [ClientRegistry.enrol, insert]
    omega
  nodup := by
    rw [h.members_enrol hqueue, List.nodup_append]
    refine ⟨h.nodup, ?_, ?_⟩
    . cases c <;> simp
    . intro a ha b hb heq
      subst heq
      exact hfresh a (by simpa using hb) ha

/-! ## Closing the gap -/

theorem shift_fold_getElem? {i m : Nat} {clients : List (Option ClientPtr)}
    (hlen : i + m < clients.length) (k : Nat)
    : ((List.range' i m).foldl
        (fun clients j => clients.set j (clients.getD (j + 1) none)) clients)[k]?
        =
      if i ≤ k ∧ k < i + m then clients[k + 1]? else clients[k]? := by
  induction m generalizing i clients with
  | zero => rw [List.range'_zero, List.foldl_nil, if_neg (by omega)]
  | succ m ih =>
    rw [List.range'_succ, List.foldl_cons, ih (by simp; omega)]
    have hnext : clients[i + 1]? = some (clients.getD (i + 1) none) := by
      rw [List.getD_eq_getElem?_getD, List.getElem?_eq_getElem (by omega), Option.getD_some]
    have hi : i < clients.length := by omega
    by_cases heq : k = i
    . subst heq
      have : ¬ (k + 1 ≤ k ∧ k < k + 1 + m) := by omega
      rw [if_neg this, if_pos (by omega), List.getElem?_set_self hi, hnext]
    . by_cases hk : i + 1 ≤ k ∧ k < i + 1 + m
      . rw [if_pos hk, if_pos (by omega), List.getElem?_set_ne (by omega)]
      . rw [if_neg hk, if_neg (by omega), List.getElem?_set_ne (by omega)]

theorem shift_fold_length {i m : Nat} {clients : List (Option ClientPtr)}
    : ((List.range' i m).foldl
        (fun clients j => clients.set j (clients.getD (j + 1) none)) clients).length
        =
      clients.length := by
  induction m generalizing i clients with
  | zero => simp
  | succ m ih => rw [List.range'_succ, List.foldl_cons, ih, List.length_set]

theorem shift_clients_length (i : Nat) : (cr.shift i).clients.length = cr.clients.length := by
  unfold shift
  dsimp only
  rw [shift_fold_length, List.length_set]

theorem slots_release_shift {i : Nat} (hi : i < cr.length) (hlen : cr.length ≤ cr.clients.length)
    : (cr.shift i).release.slots = cr.slots.eraseIdx i := by
  unfold slots release shift
  dsimp only
  apply List.ext_getElem?
  intro k
  rw [List.getElem?_take, List.getElem?_eraseIdx, List.getElem?_take, List.getElem?_take]
  by_cases hk : k < cr.length - 1
  . rw [if_pos hk, shift_fold_getElem? (by simp; omega)]
    by_cases hki : k < i
    . rw [if_neg (by omega), if_pos hki, if_pos (by omega), List.getElem?_set_ne (by omega)]
    . rw [if_pos (by omega), if_neg hki, if_pos (by omega), List.getElem?_set_ne (by omega)]
  . rw [if_neg hk]
    split
    . omega
    . rw [if_neg (by omega)]

theorem slotOf?_eq_none : cr.slotOf? client = none ↔ client ∉ cr.members := by
  unfold slotOf? members
  rw [List.findIdx?_eq_none_iff, List.reduceOption_mem_iff]
  simp only [decide_eq_false_iff_not]
  constructor
  . intro h hmem
    exact h _ hmem rfl
  . intro h c hc heq
    subst heq
    exact h hc

theorem slotOf?_lt {i : Nat} (hi : cr.slotOf? client = some i) : i < cr.length := by
  obtain ⟨hlt, -, -⟩ := List.findIdx?_eq_some_iff_getElem.mp hi
  unfold slots at hlt
  rw [List.length_take] at hlt
  omega

theorem members_release_shift {i : Nat} (hi : cr.slotOf? client = some i)
    (hlen : cr.length ≤ cr.clients.length)
    : (cr.shift i).release.members = cr.members.erase client := by
  obtain ⟨hlt, hat, hbefore⟩ := List.findIdx?_eq_some_iff_getElem.mp hi
  simp only [decide_eq_true_eq] at hat hbefore
  have hlength : i < cr.length := by
    unfold slots at hlt
    rw [List.length_take] at hlt
    omega
  have hsplit : cr.slots = cr.slots.take i ++ some client :: cr.slots.drop (i + 1) := by
    rw [← hat, List.cons_getElem_drop_succ, List.take_append_drop]
  have hnot : client ∉ (cr.slots.take i).reduceOption := by
    rw [List.reduceOption_mem_iff]
    intro hmem
    obtain ⟨j, hj, heq⟩ := List.mem_take_iff_getElem.mp hmem
    exact hbefore j (by omega) heq
  have hmembers : cr.members
      = (cr.slots.take i).reduceOption ++ client :: (cr.slots.drop (i + 1)).reduceOption := by
    unfold members
    conv =>
      lhs
      rw [hsplit]
    rw [List.reduceOption_append, List.reduceOption_cons_of_some]
  rw [hmembers, List.erase_append_right _ hnot, List.erase_cons_head]
  unfold members
  rw [slots_release_shift hlength hlen, List.eraseIdx_eq_take_drop_succ, List.reduceOption_append]

theorem Ok.release_shift (h : cr.Ok) {i : Nat} (hi : cr.slotOf? client = some i)
    : (cr.shift i).release.Ok where
  clients_length := by
    have : (cr.shift i).release.clients = (cr.shift i).clients := rfl
    rw [this, shift_clients_length, h.clients_length]
  room := by
    have := h.room
    have := slotOf?_lt hi
    simp only [release, shift]
    omega
  nodup := by
    have := h.room
    rw [members_release_shift hi (by rw [h.clients_length]; omega)]
    exact h.nodup.erase client

end ClientRegistry

end Jeux
