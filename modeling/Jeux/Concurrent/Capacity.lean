import Jeux.Concurrent.Registry

/-!
The registry never overflows, although `creg_register` looks at its length without the mutex: the
semaphore `login_queue` counts the places that are left.
-/

namespace Jeux

open Program

structure Ordered (T : Threads RegistryState RegistryPc) : Prop extends Filled T where
  joined : T.shared.cr.members.Sublist T.shared.joined
  nodup : T.shared.joined.Nodup
  fresh : ∀ client ∈ T.shared.joined, client < T.shared.next

variable {T : Threads RegistryState RegistryPc} {i : Nat} {p p' : RegistryPc} {a : RegistryStep}
  {s' : RegistryState} {client : ClientPtr}

theorem Ordered.call (h : Ordered T) (hstarts : registryProgram.starts T.shared p = true)
    : Ordered { T with pcs := T.pcs ++ [p] } :=
  ⟨h.toFilled.call hstarts, h.joined, h.nodup, h.fresh⟩

theorem Ordered.acts (h : Ordered T) (hcreates : a ≠ .createFails)
    (hp : T.pcs[i]? = some p) (hacts : RegistryActs T.shared p a s' p')
    : Ordered { shared := s', pcs := T.pcs.set i p' } := by
  have hfilled := h.toFilled.acts hcreates hp hacts
  cases hacts with
  | createFails => exact absurd rfl hcreates
  | inserts =>
    refine ⟨hfilled, ?_, ?_, ?_⟩
    . dsimp only
      rw [members_insert (h.length_lt hp)]
      exact h.joined.append (.refl _)
    . apply List.nodup_append.mpr
      refine ⟨h.nodup, by simp, ?_⟩
      intro c hc c' hc' heq
      rw [List.mem_singleton] at hc'
      exact Nat.ne_of_lt (h.fresh c hc) (heq.trans hc')
    . intro c hc
      simp only [RegistryState.insert, List.mem_append, List.mem_singleton] at hc ⊢
      rcases hc with hc | hc
      . exact Nat.lt_succ_of_lt (h.fresh c hc)
      . exact Nat.lt_succ_of_le (Nat.le_of_eq hc)
  | unregisters client =>
    refine ⟨hfilled, ?_, h.nodup, h.fresh⟩
    simp only [RegistryState.unregister, RegistryState.update]
    rw [members_unregister h.length_le]
    exact List.erase_sublist.trans h.joined
  | _ => exact ⟨hfilled, h.joined, h.nodup, h.fresh⟩

theorem ordered_initial : Ordered ⟨initialRegistry, []⟩ where
  toRoomy := roomy_initial
  slots := rfl
  joined := .refl _
  nodup := List.nodup_nil
  fresh := by
    intro client hclient
    simp [initialRegistry] at hclient

structure RegistryState.Same (s s' : RegistryState) : Prop where
  cr : s'.cr = s.cr
  next : s'.next = s.next
  shut : s'.shut = s.shut
  joined : s'.joined = s.joined

/--
What the call `i` of `creg_unregister` for `client` does when it gets the mutex: it returns 0 if and
only if the client is registered. Then the client leaves its slot, and the others keep their order.
Otherwise it returns -1, and nothing is changed.
-/
def UnregistersOnce (T : Threads RegistryState RegistryPc) (i : Nat) (client : ClientPtr) : Prop :=
  ∃ T' ret, registryProgram.machine.step T (.step i .go) = some T'
    ∧ T'.pcs = T.pcs.set i (.unregistered client ret)
    ∧ (ret = 0 ↔ client ∈ T.shared.cr.members)
    ∧ (ret = 0 → T'.shared.cr.slots = (T.shared.cr.members.erase client).map some
      ∧ T'.shared.cr.length + 1 = T.shared.cr.length)
    ∧ (ret ≠ 0 → ret = -1 ∧ T.shared.Same T'.shared)

theorem Ordered.unregisters (h : Ordered T) (hp : T.pcs[i]? = some (.unregister client))
    : UnregistersOnce T i client := by
  let ret := (T.shared.cr.unregister client).2
  refine ⟨⟨T.shared.unregister client, T.pcs.set i (.unregistered client ret)⟩, ret, ?_, rfl,
    unregister_code _ _, ?_, ?_⟩
  . simp only [machine, hp]
    rfl
  . intro hcode
    have hmem := (unregister_code _ _).mp hcode
    have hlength := h.length_members
    have hafter := (h.toFilled.acts (a := .go) (by simp) hp (.unregisters client)).length_members
    simp only [RegistryState.unregister, RegistryState.update] at hafter ⊢
    rw [members_unregister h.length_le, List.length_erase_of_mem hmem] at hafter
    refine ⟨?_, ?_⟩
    . rw [slots_unregister h.length_le h.slots, members_unregister h.length_le]
    . have hpos := List.length_pos_of_mem hmem
      omega
  . intro hcode
    have hsame := unregister_eq_self fun hmem => hcode ((unregister_code _ _).mpr hmem)
    exact ⟨congrArg Prod.snd hsame, congrArg Prod.fst hsame, rfl, rfl, rfl⟩

/--
Whatever the threads do, no slot is used that is not there, the places add up, the slots in use hold
different clients in the order of their registration, and `creg_unregister` removes its client, if
it is there, and nothing else.
-/
theorem registry_accounted
    (h : registryProgram.machine.Reach (fun _ e => CreatesClients e) ⟨initialRegistry, []⟩ T)
    : T.shared.cr.length ≤ maxClients
      ∧ T.shared.cr.clients.length = maxClients
      ∧ (∀ i : Nat, T.pcs[i]? = some RegistryPc.insert → T.shared.cr.length < maxClients)
      ∧ T.shared.cr.loginQueue + T.shared.cr.length + total inserting T.pcs = maxClients
      ∧ T.shared.cr.slots = T.shared.cr.members.map some
      ∧ T.shared.cr.members.Nodup
      ∧ T.shared.cr.members.Sublist T.shared.joined
      ∧ ∀ (i : Nat) client, T.pcs[i]? = some (RegistryPc.unregister client) →
        UnregistersOnce T i client := by
  have hok : Ordered T := by
    apply reach_induction Ordered h ordered_initial
    . intro T p hinv _ hstarts
      exact hinv.call hstarts
    . intro T i a p s p' hinv hguard hp hstep
      refine hinv.acts ?_ hp (registryActs_of_step hstep)
      rintro rfl
      exact hguard
  have hroom := hok.room
  have hlt := fun i hp => hok.clients_length ▸ hok.length_lt (i := i) hp
  exact ⟨by omega, hok.clients_length, hlt, hroom, hok.slots, hok.nodup.sublist hok.joined,
    hok.joined, fun i client => hok.unregisters⟩

/--
Two clients are registered at once. One call is about to unregister the first of them, and another
one to unregister a client that is not there.
-/
def fourCalls : List (Program.Event RegistryPc RegistryStep) :=
  [.call .testLength, .call .testLength, .step 0 .go, .step 1 .go, .step 1 .go, .step 0 .go,
    .step 0 .go, .step 1 .go, .step 1 .go, .step 0 .go, .call (.unregister 0), .call (.unregister 2)]

theorem registry_accounted_of_fourCalls
    : ∃ T, registryProgram.machine.Reach (fun _ e => CreatesClients e) ⟨initialRegistry, []⟩ T
      ∧ T.shared.cr.members = [0, 1] ∧ T.shared.cr.slots = T.shared.cr.members.map some
      ∧ T.pcs[2]? = some (.unregister 0) ∧ T.pcs[3]? = some (.unregister 2)
      ∧ UnregistersOnce T 2 0 ∧ UnregistersOnce T 3 2 := by
  obtain ⟨T, hreach, hT⟩ := Machine.Reach.of_any_run registryProgram.machine
    (fun _ e => CreatesClients e) ⟨initialRegistry, []⟩ fourCalls
    (fun T => decide (T.shared.cr.members = [0, 1]
      ∧ T.pcs[2]? = some (RegistryPc.unregister 0)
      ∧ T.pcs[3]? = some (RegistryPc.unregister 2))) (by decide +kernel)
  obtain ⟨hmembers, hfirst, hsecond⟩ := of_decide_eq_true hT
  obtain ⟨-, -, -, -, hslots, -, -, hunregister⟩ := registry_accounted hreach
  exact ⟨T, hreach, hmembers, hslots, hfirst, hsecond, hunregister 2 0 hfirst,
    hunregister 3 2 hsecond⟩

end Jeux
