import Jeux.Concurrent.Registry

/-!
`creg_shutdown_all` against the registrations that are under way. A call of `creg_register` tests the
flag without the mutex, and may then wait for a place as long as it takes.
-/

namespace Jeux

open Program

variable {T T' : Threads RegistryState RegistryPc} {i : Nat} {p p' : RegistryPc} {a : RegistryStep}
  {s' : RegistryState}

def pastTest : RegistryPc → Bool
  | .waitQueue | .insert => true
  | _ => false

/--
When `creg_shutdown_all` sets the flag no registration is past the test of it.
-/
def ShutsInTime (T : Threads RegistryState RegistryPc) : Program.Event RegistryPc RegistryStep → Prop
  | .step i _ => T.pcs[i]? = some .shutdownAll → ∀ p ∈ T.pcs, pastTest p = false
  | .call _ => True

instance (T : Threads RegistryState RegistryPc) (e : Program.Event RegistryPc RegistryStep)
    : Decidable (ShutsInTime T e) :=
  match e with
  | .step i _ => inferInstanceAs
      (Decidable (T.pcs[i]? = some .shutdownAll → ∀ p ∈ T.pcs, pastTest p = false))
  | .call _ => .isTrue trivial

structure Closing (T : Threads RegistryState RegistryPc) : Prop extends Roomy T where
  closed : RegistryPc.shutDown ∈ T.pcs → T.shared.cr.no = true
    ∧ (∀ p ∈ T.pcs, pastTest p = false)
    ∧ ∀ client ∈ T.shared.cr.members, client ∈ T.shared.shut

theorem Closing.call (h : Closing T) (hstarts : registryProgram.starts T.shared p = true)
    : Closing { T with pcs := T.pcs ++ [p] } := by
  refine ⟨h.toRoomy.call hstarts, fun hmem => ?_⟩
  have hp : p ≠ .shutDown ∧ pastTest p = false := by
    cases p <;> simp_all [registryProgram, pastTest]
  rw [List.mem_append, List.mem_singleton] at hmem
  obtain ⟨hno, htest, hshut⟩ := h.closed (hmem.resolve_right fun heq => hp.1 heq.symm)
  refine ⟨hno, ?_, hshut⟩
  intro q hq
  rcases List.mem_append.mp hq with hq | hq
  . exact htest q hq
  . rw [List.mem_singleton] at hq
    exact hq ▸ hp.2

theorem mem_of_mem_set {pcs : List RegistryPc} {q : RegistryPc} (hmem : q ∈ pcs.set i p')
    (hne : q ≠ p') : q ∈ pcs := (List.mem_or_eq_of_mem_set hmem).resolve_right hne

theorem Closing.acts (h : Closing T) (hguard : ShutsInTime T (.step i a))
    (hp : T.pcs[i]? = some p) (hacts : RegistryActs T.shared p a s' p')
    : Closing { shared := s', pcs := T.pcs.set i p' } := by
  have hmemp := List.mem_of_getElem? hp
  refine ⟨h.toRoomy.acts hp hacts, fun hmem => ?_⟩
  -- who is past the test after the step was so before, or has just found the flag unset
  have htests (htest : ∀ q ∈ T.pcs, pastTest q = false) (hp' : pastTest p' = false)
      : ∀ q ∈ T.pcs.set i p', pastTest q = false := by
    intro q hq
    rcases List.mem_or_eq_of_mem_set hq with hq | hq
    . exact htest q hq
    . exact hq ▸ hp'
  cases hacts with
  | admits hno =>
    obtain ⟨hclosed, -, -⟩ := h.closed (mem_of_mem_set hmem (by simp))
    simp [hno] at hclosed
  | waits hqueue =>
    obtain ⟨-, htest, -⟩ := h.closed (mem_of_mem_set hmem (by simp))
    exact absurd (htest _ hmemp) (by simp [pastTest])
  | inserts =>
    obtain ⟨-, htest, -⟩ := h.closed (mem_of_mem_set hmem (by simp))
    exact absurd (htest _ hmemp) (by simp [pastTest])
  | createFails =>
    obtain ⟨-, htest, -⟩ := h.closed (mem_of_mem_set hmem (by simp))
    exact absurd (htest _ hmemp) (by simp [pastTest])
  | unregisters client =>
    obtain ⟨hclosed, htest, hshut⟩ := h.closed (mem_of_mem_set hmem (by simp))
    refine ⟨?_, htests htest rfl, ?_⟩
    . rw [← hclosed]
      unfold RegistryState.unregister ClientRegistry.unregister
      split <;> rfl
    . intro c hc
      simp only [RegistryState.unregister, RegistryState.update] at hc
      rw [members_unregister h.length_le] at hc
      exact hshut c (List.mem_of_mem_erase hc)
  | shutsDown =>
    refine ⟨rfl, htests (hguard hp) rfl, fun c hc => ?_⟩
    exact List.mem_append.mpr (.inr hc)
  | _ =>
    obtain ⟨hclosed, htest, hshut⟩ := h.closed (mem_of_mem_set hmem (by simp))
    exact ⟨hclosed, htests htest rfl, hshut⟩

theorem closing_of_reach (h : registryProgram.machine.Reach ShutsInTime ⟨initialRegistry, []⟩ T)
    : Closing T := by
  apply reach_induction Closing h ⟨roomy_initial, fun hmem => by simp at hmem⟩
  . intro T p hinv _ hstarts
    exact hinv.call hstarts
  . intro T i a p s p' hinv hguard hp hstep
    exact hinv.acts hguard hp (registryActs_of_step hstep)

/--
Once `creg_shutdown_all` has returned, every client that is registered has had its socket shut down,
and no other client ever comes in.
-/
theorem shutdown_complete (h : registryProgram.machine.Reach ShutsInTime ⟨initialRegistry, []⟩ T)
    (hreturned : RegistryPc.shutDown ∈ T.pcs)
    : (∀ client ∈ T.shared.cr.members, client ∈ T.shared.shut)
      ∧ ∀ e T', registryProgram.machine.step T e = some T' →
        RegistryPc.shutDown ∈ T'.pcs ∧ T'.shared.cr.members ⊆ T.shared.cr.members := by
  have hclosing := closing_of_reach h
  obtain ⟨hno, htest, hshut⟩ := hclosing.closed hreturned
  refine ⟨hshut, ?_⟩
  intro e T' hstep
  rcases step_cases hstep with ⟨p, rfl, -, rfl⟩ | ⟨i, a, p, s, p', rfl, hp, hact, rfl⟩
  . exact ⟨List.mem_append.mpr (.inl hreturned), List.Subset.refl _⟩
  . have hacts := registryActs_of_step hact
    have hmemp := List.mem_of_getElem? hp
    refine ⟨?_, ?_⟩
    . obtain ⟨j, hj⟩ := List.mem_iff_getElem?.mp hreturned
      apply List.mem_iff_getElem?.mpr
      refine ⟨j, ?_⟩
      rw [List.getElem?_set_ne, hj]
      -- a call that has returned takes no more steps
      rintro rfl
      obtain rfl := Option.some.inj (hp.symm.trans hj)
      cases hacts
    . cases hacts with
      | inserts => exact absurd (htest _ hmemp) (by simp [pastTest])
      | createFails => exact absurd (htest _ hmemp) (by simp [pastTest])
      | unregisters client =>
        intro c hc
        simp only [RegistryState.unregister, RegistryState.update] at hc
        rw [members_unregister hclosing.length_le] at hc
        exact List.mem_of_mem_erase hc
      | _ => exact List.Subset.refl _

def shutInTime : List (Program.Event RegistryPc RegistryStep) :=
  [.call .testLength, .step 0 .go, .step 0 .go, .step 0 .go, .step 0 .go, .call .shutdownAll,
    .step 1 .go]

theorem shutdown_complete_of_shutInTime : ∃ T : Threads RegistryState RegistryPc,
    registryProgram.machine.Reach ShutsInTime ⟨initialRegistry, []⟩ T
      ∧ RegistryPc.shutDown ∈ T.pcs ∧ T.shared.cr.members = [0] ∧ 0 ∈ T.shared.shut := by
  obtain ⟨T, hreach, hT⟩ := Machine.Reach.of_any_run registryProgram.machine ShutsInTime
    ⟨initialRegistry, []⟩ shutInTime
    (fun T => T.shared.cr.members = [0] ∧ RegistryPc.shutDown ∈ T.pcs) (by decide +kernel)
  obtain ⟨hmembers, hreturned⟩ := of_decide_eq_true hT
  obtain ⟨hshut, -⟩ := shutdown_complete hreach hreturned
  exact ⟨T, hreach, hreturned, hmembers, hshut 0 (by simp [hmembers])⟩

def shutTooEarly : List (Program.Event RegistryPc RegistryStep) :=
  [.call .testLength, .step 0 .go, .step 0 .go, .call .shutdownAll, .step 1 .go, .step 0 .go,
    .step 0 .go]

theorem not_shutdown_complete : ¬ ∀ T : Threads RegistryState RegistryPc,
    registryProgram.machine.Reach (fun _ _ => True) ⟨initialRegistry, []⟩ T →
      RegistryPc.shutDown ∈ T.pcs → ∀ client ∈ T.shared.cr.members, client ∈ T.shared.shut := by
  intro h
  obtain ⟨T, hreach, hT⟩ := Machine.Reach.of_any_run registryProgram.machine (fun _ _ => True)
    ⟨initialRegistry, []⟩ shutTooEarly
    (fun T => RegistryPc.shutDown ∈ T.pcs ∧ 0 ∈ T.shared.cr.members ∧ 0 ∉ T.shared.shut)
    (by decide +kernel)
  obtain ⟨hreturned, hmember, hnot⟩ := of_decide_eq_true hT
  exact hnot (h T hreach hreturned 0 hmember)

end Jeux
