import Jeux.Concurrent.Registry

/-!
`creg_wait_for_empty`. The semaphore it waits on is posted whenever the registry becomes empty, be
there somebody waiting or not, and each post wakes one thread.
-/

namespace Jeux

open Program

variable {T : Threads RegistryState RegistryPc} {i : Nat} {p p' : RegistryPc} {a : RegistryStep}
  {s s' : RegistryState}

def waiting : RegistryPc → Nat
  | .waitEmpty _ => 1
  | _ => 0

def findsClients (T : Threads RegistryState RegistryPc) : Program.Event RegistryPc RegistryStep → Bool
  | .call _ => false
  | .step i _ =>
    match T.pcs[i]? with
    | some (.testEmpty _) => T.shared.cr.length > 0
    | _ => false

/--
A call that finds clients finds the semaphore at zero and nobody else waiting for it. And there is
always memory for a client.
-/
def WaitsAlone (T : Threads RegistryState RegistryPc) (e : Program.Event RegistryPc RegistryStep) : Prop :=
  CreatesClients e
    ∧ (findsClients T e = true → T.shared.cr.sem = 0 ∧ total waiting T.pcs = 0)

instance (T : Threads RegistryState RegistryPc) (e : Program.Event RegistryPc RegistryStep)
    : Decidable (WaitsAlone T e) := by
  unfold WaitsAlone
  infer_instance

namespace RegistryState

/--
Nobody was registered at some moment from `since` on.
-/
def EmptySince (s : RegistryState) (since : Nat) : Prop := ∃ k, since ≤ k ∧ s.counts[k]? = some 0

end RegistryState

/--
What the calls of `creg_wait_for_empty` know: a returned one that the registry was empty, and a
waiting one that it was so if the semaphore has been posted, and that there are clients otherwise.
-/
def WaitOk (s : RegistryState) (_ : Nat) : RegistryPc → Prop
  | .testEmpty since => since < s.counts.length
  | .waitEmpty since => since < s.counts.length ∧ (s.cr.sem = 0 → 0 < s.cr.length)
    ∧ (s.cr.sem ≠ 0 → s.EmptySince since)
  | .empty since => s.EmptySince since
  | _ => True

structure Waiting (T : Threads RegistryState RegistryPc) : Prop extends Filled T where
  last : T.shared.counts.getLast? = some T.shared.cr.length
  each : Each WaitOk T
  alone : total waiting T.pcs ≤ 1

theorem Waiting.call (h : Waiting T) (hstarts : registryProgram.starts T.shared p = true)
    : Waiting { T with pcs := T.pcs ++ [p] } := by
  refine ⟨h.toFilled.call hstarts, h.last, h.each.call ?_, ?_⟩
  . cases p with
    | testEmpty since =>
      simp only [registryProgram, decide_eq_true_eq] at hstarts
      simp only [WaitOk]
      omega
    | _ => simp_all [registryProgram, WaitOk]
  . have hweight : waiting p = 0 := by
      cases p <;> simp_all [registryProgram, waiting]
    rw [total_concat, hweight]
    exact h.alone

theorem WaitOk.update {self : Nat} {q : RegistryPc} (h : WaitOk s self q)
    (hcounts : s'.counts = s.counts ++ [s'.cr.length]) (hsem : s.cr.sem ≤ s'.cr.sem)
    (hempties : 0 < s.cr.length → s'.cr.length = 0 → s'.cr.sem ≠ 0)
    (hposted : s'.cr.sem ≠ 0 → s.cr.sem ≠ 0 ∨ s'.cr.length = 0) : WaitOk s' self q := by
  have hkeep {since : Nat} (hsince : s.EmptySince since) : s'.EmptySince since := by
    obtain ⟨k, hk, hcount⟩ := hsince
    have hlt := (List.getElem?_eq_some_iff.mp hcount).1
    exact ⟨k, hk, by rw [hcounts, List.getElem?_append_left hlt, hcount]⟩
  have hlength : s'.counts.length = s.counts.length + 1 := by
    rw [hcounts, List.length_append, List.length_singleton]
  cases q with
  | testEmpty since =>
    simp only [WaitOk] at h ⊢
    omega
  | waitEmpty since =>
    obtain ⟨hlt, hclients, hsince⟩ := h
    refine ⟨by omega, fun hzero => ?_, fun hnonzero => ?_⟩
    . have hpositive := hclients (by omega)
      have hposts := hempties hpositive
      omega
    . rcases hposted hnonzero with hbefore | hnow
      . exact hkeep (hsince hbefore)
      . -- the moment of this very change
        exact ⟨s.counts.length, by omega, by rw [hcounts, List.getElem?_concat_length, hnow]⟩
  | empty since => exact hkeep h
  | _ => trivial

theorem WaitOk.congr {self : Nat} {q : RegistryPc} (h : WaitOk s self q)
    (hcounts : s'.counts = s.counts) (hsem : s'.cr.sem = s.cr.sem)
    (hlength : s'.cr.length = s.cr.length) : WaitOk s' self q := by
  cases q <;> simp_all [WaitOk, RegistryState.EmptySince]

theorem unregister_sem (cr : ClientRegistry) (client : ClientPtr)
    : cr.sem ≤ (cr.unregister client).1.sem
      ∧ (0 < cr.length → (cr.unregister client).1.length = 0 → (cr.unregister client).1.sem ≠ 0)
      ∧ ((cr.unregister client).1.sem ≠ 0 →
        cr.sem ≠ 0 ∨ (cr.unregister client).1.length = 0) := by
  unfold ClientRegistry.unregister
  split
  . refine ⟨Nat.le_refl _, fun hpos hzero => ?_, .inl⟩
    dsimp only at hzero
    omega
  . next i hslot =>
    have hlength := ClientRegistry.slotOf?_lt hslot
    have hsem : (cr.shift i).release.sem = if cr.length - 1 = 0 then cr.sem + 1 else cr.sem := rfl
    have hleft : (cr.shift i).release.length = cr.length - 1 := rfl
    dsimp only
    rw [hsem, hleft]
    by_cases hempty : cr.length - 1 = 0
    . rw [if_pos hempty]
      exact ⟨by omega, by omega, fun _ => .inr hempty⟩
    . rw [if_neg hempty]
      exact ⟨Nat.le_refl _, fun _ hzero => absurd hzero hempty, .inl⟩

theorem Waiting.acts (h : Waiting T) (hguard : WaitsAlone T (.step i a))
    (hp : T.pcs[i]? = some p) (hacts : RegistryActs T.shared p a s' p')
    : Waiting { shared := s', pcs := T.pcs.set i p' } := by
  have hcreates : a ≠ .createFails := by
    rintro rfl
    exact hguard.1
  have hfilled := h.toFilled.acts hcreates hp hacts
  have hmembers := hfilled.length_members
  have htotal := total_set waiting p' hp
  have halone := h.alone
  have hself := h.each i p hp
  dsimp only at hmembers
  cases hacts with
  | createFails => exact absurd rfl hcreates
  | inserts =>
    simp only [waiting] at htotal
    refine ⟨hfilled, ?_, h.each.step trivial fun j q _ _ hq => hq.update ?_ ?_ ?_ ?_, ?_⟩
    . simp only [RegistryState.insert, RegistryState.update, List.getLast?_concat] at hmembers ⊢
      rw [hmembers]
    . simp only [RegistryState.insert, RegistryState.update] at hmembers ⊢
      rw [hmembers]
    . exact Nat.le_refl _
    . intro _ hzero
      simp [RegistryState.insert, RegistryState.update, ClientRegistry.insert] at hzero
    . exact .inl
    . dsimp only
      omega
  | unregisters client =>
    simp only [waiting] at htotal
    obtain ⟨hsem, hempties, hposted⟩ := unregister_sem T.shared.cr client
    refine ⟨hfilled, ?_, h.each.step trivial fun j q _ _ hq => hq.update ?_ hsem hempties hposted, ?_⟩
    . simp only [RegistryState.unregister, RegistryState.update, List.getLast?_concat] at hmembers ⊢
      rw [hmembers]
    . simp only [RegistryState.unregister, RegistryState.update] at hmembers ⊢
      rw [hmembers]
    . dsimp only
      omega
  | findsClients since hlength =>
    -- the guard: the semaphore is at zero, and this is the only call that waits
    have hfinds : findsClients T (.step i .go) = true := by
      simp [Jeux.findsClients, hp, hlength]
    obtain ⟨hsem, hnone⟩ := hguard.2 hfinds
    simp only [waiting] at htotal
    refine ⟨hfilled, h.last, h.each.step ?_ fun _ _ _ _ hq => hq, ?_⟩
    . exact ⟨hself, fun _ => hlength, fun hne => absurd hsem hne⟩
    . dsimp only
      omega
  | findsNone since hlength =>
    simp only [waiting] at htotal
    refine ⟨hfilled, h.last, h.each.step ?_ fun _ _ _ _ hq => hq, ?_⟩
    . have hlast := h.last
      rw [List.getLast?_eq_getElem?, hlength] at hlast
      have hlt : since < T.shared.counts.length := hself
      exact ⟨T.shared.counts.length - 1, by omega, hlast⟩
    . dsimp only
      omega
  | wakes since hsem =>
    simp only [waiting] at htotal
    have hleft : total waiting (T.pcs.set i (.empty since)) = 0 := by omega
    refine ⟨hfilled, h.last, ?_, by dsimp only; omega⟩
    apply h.each.step
    . exact hself.2.2 hsem
    . intro j q hne hq hok
      -- nobody else is waiting
      have hq' : (T.pcs.set i (.empty since))[j]? = some q := by
        rw [List.getElem?_set_ne (Ne.symm hne), hq]
      have hzero := total_eq_zero.mp hleft q (List.mem_of_getElem? hq')
      cases q with
      | waitEmpty since => simp [waiting] at hzero
      | _ => exact hok
  | waits hqueue =>
    simp only [waiting] at htotal
    refine ⟨hfilled, h.last, h.each.step trivial fun _ _ _ _ hq => hq.congr rfl rfl rfl, ?_⟩
    dsimp only
    omega
  | shutsDown =>
    simp only [waiting] at htotal
    refine ⟨hfilled, h.last, h.each.step trivial fun _ _ _ _ hq => hq.congr rfl rfl rfl, ?_⟩
    dsimp only
    omega
  | _ =>
    simp only [waiting] at htotal
    refine ⟨hfilled, h.last, h.each.step trivial fun _ _ _ _ hq => hq, ?_⟩
    dsimp only
    omega

theorem waiting_initial : Waiting ⟨initialRegistry, []⟩ where
  toRoomy := roomy_initial
  slots := rfl
  last := rfl
  each := by simp [Each]
  alone := by simp

/--
As long as no call of `creg_wait_for_empty` finds clients while another one waits or the semaphore
is still up from earlier, each returns only after a moment at which nobody was registered, and none
is left behind in an empty registry.
-/
theorem waitForEmpty_sound
    (h : registryProgram.machine.Reach WaitsAlone ⟨initialRegistry, []⟩ T)
    : (∀ i since : Nat, T.pcs[i]? = some (RegistryPc.empty since) → T.shared.EmptySince since)
      ∧ T.shared.counts.getLast? = some T.shared.cr.members.length
      ∧ ¬ (T.shared.cr.members = [] ∧ T.shared.cr.sem = 0
        ∧ ∃ i since : Nat, T.pcs[i]? = some (RegistryPc.waitEmpty since)) := by
  have hok : Waiting T := by
    apply reach_induction Waiting h waiting_initial
    . intro T p hinv _ hstarts
      exact hinv.call hstarts
    . intro T i a p s p' hinv hguard hp hstep
      exact hinv.acts hguard hp (registryActs_of_step hstep)
  have hlength := hok.length_members
  refine ⟨fun i since hp => hok.each i _ hp, by rw [hlength, hok.last], ?_⟩
  rintro ⟨hnone, hsem, i, since, hp⟩
  have hpositive := (hok.each i _ hp).2.1 hsem
  rw [hnone, List.length_nil] at hlength
  omega

def waitAlone : List (Program.Event RegistryPc RegistryStep) :=
  [.call .testLength, .step 0 .go, .step 0 .go, .step 0 .go, .step 0 .go, .call (.testEmpty 1),
    .step 1 .go, .call (.unregister 0), .step 2 .go, .step 1 .go]

theorem waitForEmpty_sound_of_waitAlone : ∃ T : Threads RegistryState RegistryPc,
    registryProgram.machine.Reach WaitsAlone ⟨initialRegistry, []⟩ T
      ∧ T.pcs[1]? = some (RegistryPc.empty 1) ∧ T.shared.EmptySince 1 := by
  obtain ⟨T, hreach, hT⟩ := Machine.Reach.of_any_run registryProgram.machine WaitsAlone
    ⟨initialRegistry, []⟩ waitAlone (fun T => T.pcs[1]? = some (RegistryPc.empty 1))
    (by decide +kernel)
  have hreturned : T.pcs[1]? = some (RegistryPc.empty 1) := of_decide_eq_true hT
  exact ⟨T, hreach, hreturned, (waitForEmpty_sound hreach).1 1 1 hreturned⟩

def waitLate : List (Program.Event RegistryPc RegistryStep) :=
  [.call .testLength, .step 0 .go, .step 0 .go, .step 0 .go, .step 0 .go, .call (.unregister 0),
    .step 1 .go, .call .testLength, .step 2 .go, .step 2 .go, .step 2 .go, .step 2 .go,
    .call (.testEmpty 3), .step 3 .go, .step 3 .go]

def waitTogether : List (Program.Event RegistryPc RegistryStep) :=
  [.call .testLength, .step 0 .go, .step 0 .go, .step 0 .go, .step 0 .go, .call (.testEmpty 1),
    .call (.testEmpty 1), .step 1 .go, .step 2 .go, .call (.unregister 0), .step 3 .go,
    .step 1 .go]

theorem not_waitForEmpty_sound
    : (¬ ∀ T : Threads RegistryState RegistryPc,
        registryProgram.machine.Reach (fun _ _ => True) ⟨initialRegistry, []⟩ T →
          ∀ i since : Nat, T.pcs[i]? = some (RegistryPc.empty since) → T.shared.EmptySince since)
      ∧ ¬ ∀ T : Threads RegistryState RegistryPc,
        registryProgram.machine.Reach (fun _ _ => True) ⟨initialRegistry, []⟩ T →
          ¬ (T.shared.cr.members = [] ∧ T.shared.cr.sem = 0
            ∧ ∃ i since : Nat, T.pcs[i]? = some (RegistryPc.waitEmpty since)) := by
  refine ⟨fun h => ?_, fun h => ?_⟩
  . obtain ⟨T, hreach, hT⟩ := Machine.Reach.of_any_run registryProgram.machine (fun _ _ => True)
      ⟨initialRegistry, []⟩ waitLate
      (fun T => T.pcs[3]? = some (RegistryPc.empty 3) ∧ T.shared.counts = [0, 1, 0, 1])
      (by decide +kernel)
    obtain ⟨hreturned, hcounts⟩ := of_decide_eq_true hT
    obtain ⟨k, hk, hcount⟩ := h T hreach 3 3 hreturned
    rw [hcounts] at hcount
    have hlt := (List.getElem?_eq_some_iff.mp hcount).1
    obtain rfl : k = 3 := by
      simp only [List.length_cons, List.length_nil] at hlt
      omega
    simp at hcount
  . obtain ⟨T, hreach, hT⟩ := Machine.Reach.of_any_run registryProgram.machine (fun _ _ => True)
      ⟨initialRegistry, []⟩ waitTogether
      (fun T => T.shared.cr.members = [] ∧ T.shared.cr.sem = 0
        ∧ T.pcs[2]? = some (RegistryPc.waitEmpty 1))
      (by decide +kernel)
    obtain ⟨hempty, hsem, hwaits⟩ := of_decide_eq_true hT
    exact h T hreach ⟨hempty, hsem, 2, 1, hwaits⟩

end Jeux
