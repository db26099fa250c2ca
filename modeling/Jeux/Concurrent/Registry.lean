import Jeux.Util.Threads
import Jeux.Lemmas.Registry

/-!
The functions of client_registry.c run by any number of threads at once. What one of them does while
it holds the mutex of the registry is one step; the tests it makes without the mutex, and its waits
on a semaphore, are steps of their own.
-/

namespace Jeux

/--
The registry, the pointer the next `client_create` returns, and the clients whose sockets have been
shut down. For the record: the clients in the order in which they were registered, and the number
of registered clients at every moment so far.
-/
structure RegistryState where
  cr : ClientRegistry
  next : ClientPtr
  shut : List ClientPtr
  joined : List ClientPtr
  counts : List Nat

def initialRegistry : RegistryState where
  cr := initialStore.clientRegistry
  next := 0
  shut := []
  joined := []
  counts := [0]

/--
Where a call of `creg_register`, `creg_unregister`, `creg_shutdown_all` or `creg_wait_for_empty` is.
A call of the last one remembers the moment at which it was made.
-/
inductive RegistryPc where
  | testLength
  | testNo
  | waitQueue
  | insert
  | registered (client : Option ClientPtr)
  | unregister (client : ClientPtr)
  | unregistered (client : ClientPtr) (ret : Int)
  | shutdownAll
  | shutDown
  | testEmpty (since : Nat)
  | waitEmpty (since : Nat)
  | empty (since : Nat)
  deriving DecidableEq, Repr

/--
A step, or the one step of `creg_register` in which `client_create` finds no memory.
-/
inductive RegistryStep where
  | go
  | createFails
  deriving DecidableEq, Repr

def ClientRegistry.unregister (cr : ClientRegistry) (client : ClientPtr) : ClientRegistry × Int :=
  match cr.slotOf? client with
  | none => (cr, -1)
  | some i => ((cr.shift i).release, 0)

namespace RegistryState

def update (s : RegistryState) (cr : ClientRegistry) : RegistryState :=
  { s with cr := cr, counts := s.counts ++ [cr.members.length] }

def waitQueue (s : RegistryState) : RegistryState :=
  { s with cr := { s.cr with loginQueue := s.cr.loginQueue - 1 } }

def insert (s : RegistryState) : RegistryState :=
  { s.update (s.cr.insert (some s.next)) with
    next := s.next + 1
    joined := s.joined ++ [s.next] }

def insertNull (s : RegistryState) : RegistryState := s.update (s.cr.insert none)

def unregister (s : RegistryState) (client : ClientPtr) : RegistryState :=
  s.update (s.cr.unregister client).1

def shutdownAll (s : RegistryState) : RegistryState :=
  { s with cr := { s.cr with no := true }, shut := s.shut ++ s.cr.members }

def waitEmpty (s : RegistryState) : RegistryState :=
  { s with cr := { s.cr with sem := s.cr.sem - 1 } }

end RegistryState

def registryProgram : Program RegistryState RegistryPc RegistryStep where
  starts s p :=
    match p with
    | .testLength | .unregister _ | .shutdownAll => true
    | .testEmpty since => since + 1 = s.counts.length
    | _ => false
  step _ s p a :=
    match p, a with
    | .testLength, .go => some (s, if s.cr.length ≥ maxClients then .registered none else .testNo)
    | .testNo, .go => some (s, if s.cr.no then .registered none else .waitQueue)
    | .waitQueue, .go => if s.cr.loginQueue = 0 then none else some (s.waitQueue, .insert)
    | .insert, .go => some (s.insert, .registered (some s.next))
    | .insert, .createFails => some (s.insertNull, .registered none)
    | .unregister client, .go =>
      some (s.unregister client, .unregistered client (s.cr.unregister client).2)
    | .shutdownAll, .go => some (s.shutdownAll, .shutDown)
    | .testEmpty since, .go =>
      some (s, if s.cr.length > 0 then .waitEmpty since else .empty since)
    | .waitEmpty since, .go => if s.cr.sem = 0 then none else some (s.waitEmpty, .empty since)
    | _, _ => none

inductive RegistryActs (s : RegistryState)
    : RegistryPc → RegistryStep → RegistryState → RegistryPc → Prop
  | full (hfull : s.cr.length ≥ maxClients) : RegistryActs s .testLength .go s (.registered none)
  | hasRoom (hroom : s.cr.length < maxClients) : RegistryActs s .testLength .go s .testNo
  | refuses (hno : s.cr.no = true) : RegistryActs s .testNo .go s (.registered none)
  | admits (hno : s.cr.no = false) : RegistryActs s .testNo .go s .waitQueue
  | waits (hqueue : s.cr.loginQueue ≠ 0) : RegistryActs s .waitQueue .go s.waitQueue .insert
  | inserts : RegistryActs s .insert .go s.insert (.registered (some s.next))
  | createFails : RegistryActs s .insert .createFails s.insertNull (.registered none)
  | unregisters (client : ClientPtr)
      : RegistryActs s (.unregister client) .go (s.unregister client)
          (.unregistered client (s.cr.unregister client).2)
  | shutsDown : RegistryActs s .shutdownAll .go s.shutdownAll .shutDown
  | findsClients (since : Nat) (hlength : s.cr.length > 0)
      : RegistryActs s (.testEmpty since) .go s (.waitEmpty since)
  | findsNone (since : Nat) (hlength : s.cr.length = 0)
      : RegistryActs s (.testEmpty since) .go s (.empty since)
  | wakes (since : Nat) (hsem : s.cr.sem ≠ 0)
      : RegistryActs s (.waitEmpty since) .go s.waitEmpty (.empty since)

theorem registryActs_of_step {s s' : RegistryState} {self : Nat} {p p' : RegistryPc}
    {a : RegistryStep} (h : registryProgram.step self s p a = some (s', p'))
    : RegistryActs s p a s' p' := by
  dsimp only [registryProgram] at h
  split at h
  . cases h
    split
    . next hfull => exact .full hfull
    . next hroom => exact .hasRoom (by omega)
  . cases h
    split
    . next hno => exact .refuses hno
    . next hno => exact .admits (by simpa using hno)
  . split at h
    . simp at h
    . next hqueue =>
      cases h
      exact .waits hqueue
  . cases h
    exact .inserts
  . cases h
    exact .createFails
  . next client =>
    cases h
    exact .unregisters client
  . cases h
    exact .shutsDown
  . next since =>
    cases h
    split
    . next hlength => exact .findsClients since hlength
    . next hlength => exact .findsNone since (by omega)
  . next since =>
    split at h
    . simp at h
    . next hsem =>
      cases h
      exact .wakes since hsem
  . simp at h

/-! ## The registry after each of them -/

variable {s : RegistryState} {client : ClientPtr}

theorem members_insert (hlen : s.cr.length < s.cr.clients.length)
    : s.insert.cr.members = s.cr.members ++ [s.next] := by
  unfold ClientRegistry.members
  simp only [RegistryState.insert, RegistryState.update]
  rw [ClientRegistry.slots_insert _ hlen, List.reduceOption_append]
  rfl

theorem unregister_code (cr : ClientRegistry) (client : ClientPtr)
    : (cr.unregister client).2 = 0 ↔ client ∈ cr.members := by
  have hnone : cr.slotOf? client = none ↔ client ∉ cr.members := ClientRegistry.slotOf?_eq_none
  unfold ClientRegistry.unregister
  split
  . next hslot => simpa using hnone.mp hslot
  . next i hslot =>
    simp only [true_iff]
    by_contra hmem
    simp [hnone.mpr hmem] at hslot

theorem unregister_eq_self {cr : ClientRegistry} (h : client ∉ cr.members)
    : cr.unregister client = (cr, -1) := by
  unfold ClientRegistry.unregister
  rw [ClientRegistry.slotOf?_eq_none.mpr h]

theorem members_unregister {cr : ClientRegistry} (hlen : cr.length ≤ cr.clients.length)
    : (cr.unregister client).1.members = cr.members.erase client := by
  by_cases hmem : client ∈ cr.members
  . unfold ClientRegistry.unregister
    split
    . next hslot => exact absurd hmem (ClientRegistry.slotOf?_eq_none.mp hslot)
    . next i hslot => exact ClientRegistry.members_release_shift hslot hlen
  . rw [unregister_eq_self hmem, List.erase_of_not_mem hmem]

theorem unregister_room (cr : ClientRegistry) (client : ClientPtr)
    : (cr.unregister client).1.loginQueue + (cr.unregister client).1.length
        = cr.loginQueue + cr.length := by
  unfold ClientRegistry.unregister
  split
  . rfl
  . next i hslot =>
    have hlength := ClientRegistry.slotOf?_lt hslot
    simp only [ClientRegistry.release, ClientRegistry.shift]
    omega

theorem unregister_clients_length (cr : ClientRegistry) (client : ClientPtr)
    : (cr.unregister client).1.clients.length = cr.clients.length := by
  unfold ClientRegistry.unregister
  split
  . rfl
  . next i hslot => exact ClientRegistry.shift_clients_length i

/-! ## Places -/

open Program

def inserting : RegistryPc → Nat
  | .insert => 1
  | _ => 0

structure Roomy (T : Threads RegistryState RegistryPc) : Prop where
  clients_length : T.shared.cr.clients.length = maxClients
  room : T.shared.cr.loginQueue + T.shared.cr.length + total inserting T.pcs = maxClients

variable {T : Threads RegistryState RegistryPc} {i : Nat} {p p' : RegistryPc} {a : RegistryStep}
  {s' : RegistryState}

theorem Roomy.length_le (h : Roomy T) : T.shared.cr.length ≤ T.shared.cr.clients.length := by
  have := h.room
  rw [h.clients_length]
  omega

theorem Roomy.length_lt (h : Roomy T) (hp : T.pcs[i]? = some .insert)
    : T.shared.cr.length < T.shared.cr.clients.length := by
  have hroom := h.room
  have hone : 1 ≤ total inserting T.pcs := weight_le_total inserting hp
  rw [h.clients_length]
  omega

theorem Roomy.call (h : Roomy T) (hstarts : registryProgram.starts T.shared p = true)
    : Roomy { T with pcs := T.pcs ++ [p] } := by
  have hweight : inserting p = 0 := by
    cases p with
    | insert => simp [registryProgram] at hstarts
    | _ => rfl
  refine ⟨h.clients_length, ?_⟩
  rw [total_concat, hweight]
  exact h.room

theorem Roomy.acts (h : Roomy T) (hp : T.pcs[i]? = some p)
    (hacts : RegistryActs T.shared p a s' p')
    : Roomy { shared := s', pcs := T.pcs.set i p' } := by
  have htotal := total_set inserting p' hp
  have hroom := h.room
  cases hacts with
  | waits hqueue =>
    simp only [inserting] at htotal
    refine ⟨h.clients_length, ?_⟩
    simp only [RegistryState.waitQueue]
    omega
  | inserts =>
    simp only [inserting] at htotal
    refine ⟨List.length_set.trans h.clients_length, ?_⟩
    simp only [RegistryState.insert, RegistryState.update, ClientRegistry.insert]
    omega
  | createFails =>
    simp only [inserting] at htotal
    refine ⟨List.length_set.trans h.clients_length, ?_⟩
    simp only [RegistryState.insertNull, RegistryState.update, ClientRegistry.insert]
    omega
  | unregisters client =>
    simp only [inserting] at htotal
    have hunregister := unregister_room T.shared.cr client
    refine ⟨(unregister_clients_length _ _).trans h.clients_length, ?_⟩
    simp only [RegistryState.unregister, RegistryState.update]
    omega
  | shutsDown =>
    simp only [inserting] at htotal
    refine ⟨h.clients_length, ?_⟩
    simp only [RegistryState.shutdownAll]
    omega
  | wakes since hsem =>
    simp only [inserting] at htotal
    refine ⟨h.clients_length, ?_⟩
    simp only [RegistryState.waitEmpty]
    omega
  | _ =>
    simp only [inserting] at htotal
    refine ⟨h.clients_length, ?_⟩
    dsimp only
    omega

theorem roomy_initial : Roomy ⟨initialRegistry, []⟩ := ⟨rfl, rfl⟩

/-! ## Memory for every client -/

/--
The client of the registration that takes its last step can be created.
-/
def CreatesClients : Program.Event RegistryPc RegistryStep → Prop
  | .step _ .createFails => False
  | _ => True

instance (e : Program.Event RegistryPc RegistryStep) : Decidable (CreatesClients e) :=
  match e with
  | .step _ .createFails => .isFalse id
  | .step _ .go | .call _ => .isTrue trivial

theorem slots_unregister {cr : ClientRegistry} (hlen : cr.length ≤ cr.clients.length)
    (hslots : cr.slots = cr.members.map some)
    : (cr.unregister client).1.slots = (cr.unregister client).1.members.map some := by
  unfold ClientRegistry.unregister
  split
  . exact hslots
  . next i hslot =>
    have hlength := ClientRegistry.slotOf?_lt hslot
    have hreleased := ClientRegistry.slots_release_shift hlength hlen
    unfold ClientRegistry.members
    rw [hreleased, hslots, List.eraseIdx_map]
    simp [List.reduceOption, List.filterMap_map]

structure Filled (T : Threads RegistryState RegistryPc) : Prop extends Roomy T where
  slots : T.shared.cr.slots = T.shared.cr.members.map some

theorem Filled.length_members (h : Filled T)
    : T.shared.cr.members.length = T.shared.cr.length := by
  have hlength := congrArg List.length h.slots
  have hle := h.length_le
  rw [List.length_map, ClientRegistry.slots, List.length_take] at hlength
  omega

theorem Filled.call (h : Filled T) (hstarts : registryProgram.starts T.shared p = true)
    : Filled { T with pcs := T.pcs ++ [p] } := ⟨h.toRoomy.call hstarts, h.slots⟩

theorem Filled.acts (h : Filled T) (hcreates : a ≠ .createFails) (hp : T.pcs[i]? = some p)
    (hacts : RegistryActs T.shared p a s' p')
    : Filled { shared := s', pcs := T.pcs.set i p' } := by
  refine ⟨h.toRoomy.acts hp hacts, ?_⟩
  cases hacts with
  | createFails => exact absurd rfl hcreates
  | inserts =>
    have hlt := h.length_lt hp
    have hslots : T.shared.insert.cr.slots = T.shared.cr.slots ++ [some T.shared.next] :=
      ClientRegistry.slots_insert _ hlt
    dsimp only
    rw [members_insert hlt, hslots, h.slots, List.map_append, List.map_singleton]
  | unregisters client => exact slots_unregister h.length_le h.slots
  | _ => exact h.slots

end Jeux
