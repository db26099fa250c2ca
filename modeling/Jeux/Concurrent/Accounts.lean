import Jeux.Concurrent.Discipline

/-!
The reference counts of clients while the threads run: what has been counted and what is still to be
taken adds up to what is stored and what is still to be dropped.
-/

namespace Jeux

namespace Locking

open Instr Program

variable {self : Nat} {d d' : Data} {point : Point} {next todo : Code} {client : ClientPtr}

/-! ## The points ahead of a thread -/

def points : Code → List Point
  | [] => []
  | run point :: todo => point :: points todo
  | _ :: todo => points todo

@[simp]
theorem points_nil : points [] = [] := rfl

@[simp]
theorem points_run : points (run point :: todo) = point :: points todo := rfl

@[simp]
theorem points_acquire {r : ServerLock} : points (acquire r :: todo) = points todo := rfl

@[simp]
theorem points_release {r : ServerLock} : points (release r :: todo) = points todo := rfl

@[simp]
theorem points_append (code todo : Code) : points (code ++ todo) = points code ++ points todo := by
  induction code with
  | nil => rfl
  | cons i code ih =>
    rw [List.cons_append]
    cases i with
    | run point => rw [points_run, points_run, ih, List.cons_append]
    | acquire r => exact ih
    | release r => exact ih

@[simp]
theorem points_withPlayers (players : List PlayerPtr)
    : points (players.flatMap withPlayer) = [] := by
  induction players with
  | nil => rfl
  | cons player players ih =>
    rw [List.flatMap_cons, points_append, ih]
    rfl

@[simp]
theorem points_playerPostResult (player1 player2 : PlayerPtr)
    : points (playerPostResult player1 player2) = [] := by
  unfold playerPostResult
  split <;> rfl

/-! ## References -/

def Point.claims (client : ClientPtr) : Point → Nat
  | .clientRef c => if c = client then 1 else 0
  | _ => 0

/--
The references to a client that somebody holds who has come to a point: they are dropped there, or
become those of a new invitation.
-/
def Point.owes (client : ClientPtr) : Point → Nat
  | .clientUnref c false => if c = client then 1 else 0
  | .invCreated source target _ _ =>
    (if source = client then 1 else 0) + (if target = client then 1 else 0)
  | _ => 0

def Backed (client : ClientPtr) : List Point → Prop
  | [] => True
  | point :: ahead =>
    total (Point.claims client) (point :: ahead) ≤ total (Point.owes client) (point :: ahead)
      ∧ Backed client ahead

theorem total_append {P : Type} (weight : P → Nat) (pcs pcs' : List P)
    : total weight (pcs ++ pcs') = total weight pcs + total weight pcs' := by
  simp [total]

@[simp]
theorem total_cons {P : Type} (weight : P → Nat) (p : P) (pcs : List P)
    : total weight (p :: pcs) = weight p + total weight pcs := rfl

variable {ahead ahead' : List Point}

theorem Backed.le (h : Backed client ahead)
    : total (Point.claims client) ahead ≤ total (Point.owes client) ahead := by
  cases ahead with
  | nil => exact Nat.le_refl _
  | cons point ahead => exact h.1

theorem Backed.append (h : Backed client ahead) (h' : Backed client ahead')
    : Backed client (ahead ++ ahead') := by
  induction ahead with
  | nil => exact h'
  | cons point ahead ih =>
    have hle := h.1
    have hle' := h'.le
    refine ⟨?_, ih h.2⟩
    rw [total_cons, total_cons] at hle ⊢
    rw [List.append_eq, total_append, total_append]
    omega

theorem Backed.of_claims (h : total (Point.claims client) ahead = 0) : Backed client ahead := by
  induction ahead with
  | nil => trivial
  | cons point ahead ih =>
    refine ⟨by omega, ih ?_⟩
    rw [total_cons] at h
    omega

attribute [local simp] process clientLogout cregUnregister clientMakeInvitation clientAddInvitation
  invUnref clientUnref clientRef addInvitation invRef withClient withPlayer operation
  clientRemoveInvitation postPlayerResults

theorem Expands.backed (hexpands : Expands self d point d' next) (client : ClientPtr)
    : Backed client (points next) := by
  cases hexpands with
  | known c invitee =>
    simp only [Locking.clientRef, Locking.clientUnref, points_run, points_acquire, points_release,
      points_nil, List.cons_append, List.nil_append]
    simp only [Backed, total_cons, total_nil, Point.claims, Point.owes]
    by_cases heq : invitee = client <;> simp [heq]
  | invCreate source target sourceRole targetRole =>
    simp only [Locking.clientRef, points_run, points_acquire, points_release, points_nil,
      List.cons_append, List.nil_append]
    simp only [Backed, total_cons, total_nil, Point.claims, Point.owes]
    by_cases hsource : source = client <;> by_cases htarget : target = client
      <;> simp [hsource, htarget]
  | serves c request =>
    apply Backed.of_claims
    cases request <;> simp [Point.claims]
  | _ =>
    apply Backed.of_claims
    simp [Point.claims]

namespace Data

def refs (d : Data) (client : ClientPtr) : Int := ((d.clients.get? client).map Peer.refCount).getD 0

def server? (d : Data) (client : ClientPtr) : Option Nat :=
  (d.clients.get? client).bind Peer.server

def stored (d : Data) (client : ClientPtr) : Nat :=
  (if (d.server? client).isSome then 1 else 0)
    + (d.invitations.countP (·.source = client) + d.invitations.countP (·.target = client))

end Data

/--
The references counted, and those still to be taken, are those stored and those still to be dropped.
-/
def Balanced (d : Data) (client : ClientPtr) (claimed owed : Nat) : Prop :=
  d.refs client + claimed = d.stored client + owed

def DropsOwn (self : Nat) (d : Data) : Point → Prop
  | .clientUnref client true => d.server? client = some self
  | _ => True

namespace Data

theorem refs_modifyClient {c : ClientPtr} {f : Peer → Peer} (hf : ∀ v, (f v).refCount = v.refCount)
    : (d.modifyClient c f).refs client = d.refs client := by
  unfold refs modifyClient
  dsimp only
  rw [Heap.map_get?_modify hf]

theorem server?_modifyClient {c : ClientPtr} {f : Peer → Peer} (hf : ∀ v, (f v).server = v.server)
    : (d.modifyClient c f).server? client = d.server? client := by
  have hmap := Heap.map_get?_modify (h := d.clients) (p := c) (q := client) hf
  unfold server? modifyClient
  dsimp only
  rw [Heap.get?_modify] at hmap ⊢
  split
  . next heq =>
    rw [if_pos heq] at hmap
    cases hc : d.clients.get? client with
    | none => rfl
    | some v => simp [hf]
  . rfl

theorem stored_modifyClient {c : ClientPtr} {f : Peer → Peer} (hf : ∀ v, (f v).server = v.server)
    : (d.modifyClient c f).stored client = d.stored client := by
  unfold stored
  rw [server?_modifyClient hf]
  rfl

theorem refs_modifyClient_eq {c : ClientPtr} {v : Peer} {f : Peer → Peer}
    (hc : d.clients.get? c = some v)
    : (d.modifyClient c f).refs client
        =
      d.refs client + if client = c then (f v).refCount - v.refCount else 0 := by
  unfold refs modifyClient
  dsimp only
  rw [Heap.get?_modify]
  split
  . next heq =>
    subst heq
    rw [hc]
    simp only [Option.map_some, Option.getD_some]
    omega
  . simp

theorem stored_push {offer : Offer}
    : stored { d with invitations := d.invitations.push offer } client
        =
      d.stored client + ((if offer.source = client then 1 else 0)
        + if offer.target = client then 1 else 0) := by
  unfold stored server?
  dsimp only
  rw [Heap.countP_push, Heap.countP_push]
  simp only [decide_eq_true_eq]
  omega

theorem stored_free {inv : InvitationPtr} {offer : Offer} (hi : d.invitations.get? inv = some offer)
    : stored { d with invitations := d.invitations.free inv } client
        + ((if offer.source = client then 1 else 0) + if offer.target = client then 1 else 0)
        =
      d.stored client := by
  have hsource := Heap.countP_free (P := fun o => o.source = client) hi
  have htarget := Heap.countP_free (P := fun o => o.target = client) hi
  unfold stored server?
  dsimp only
  simp only [decide_eq_true_eq] at hsource htarget
  omega

end Data

theorem Balanced.modifyClient {c : ClientPtr} {f : Peer → Peer} {claimed owed : Nat}
    (hrefs : ∀ v, (f v).refCount = v.refCount) (hserver : ∀ v, (f v).server = v.server)
    (h : Balanced d client claimed owed) : Balanced (d.modifyClient c f) client claimed owed := by
  unfold Balanced at *
  rw [Data.refs_modifyClient hrefs, Data.stored_modifyClient hserver]
  exact h

theorem Balanced.shift {claimed owed : Nat} (n : Nat)
    (h : Balanced d client claimed owed) : Balanced d client (n + claimed) (n + owed) := by
  unfold Balanced at *
  omega

theorem Balanced.invitations {claimed owed : Nat} {inv : InvitationPtr} {f : Offer → Offer}
    (hsource : ∀ i, (f i).source = i.source) (htarget : ∀ i, (f i).target = i.target)
    (h : Balanced d client claimed owed)
    : Balanced { d with invitations := d.invitations.modify inv f } client claimed owed := by
  have hs : (d.invitations.modify inv f).countP (·.source = client)
      = d.invitations.countP (·.source = client) := by
    apply Heap.countP_modify_eq
    intro i _
    rw [hsource]
  have ht : (d.invitations.modify inv f).countP (·.target = client)
      = d.invitations.countP (·.target = client) := by
    apply Heap.countP_modify_eq
    intro i _
    rw [htarget]
  unfold Balanced Data.stored at *
  dsimp only
  rw [hs, ht]
  exact h

theorem Balanced.create {claimed owed : Nat} (hpush : d'.clients = d.clients.push (newPeer self))
    (hinvitations : d'.invitations = d.invitations) (h : Balanced d client claimed owed)
    : Balanced d' client claimed owed := by
  unfold Balanced Data.stored Data.refs Data.server? at *
  rw [hpush, hinvitations, Heap.get?_push]
  split
  . next heq =>
    subst heq
    simp [newPeer] at h ⊢
    omega
  . exact h

theorem Balanced.recount {c : ClientPtr} {v : Peer} {f : Peer → Peer} {claimed owed : Nat}
    (taken dropped : Nat) (hc : d.clients.get? c = some v)
    (hrefs : ∀ v, (f v).refCount = v.refCount + taken - dropped)
    (hserver : ∀ v, (f v).server = v.server)
    (h : Balanced d client ((if c = client then taken else 0) + claimed)
      ((if c = client then dropped else 0) + owed))
    : Balanced (d.modifyClient c f) client claimed owed := by
  unfold Balanced at *
  rw [Data.refs_modifyClient_eq hc, Data.stored_modifyClient hserver, hrefs]
  by_cases heq : c = client
  . rw [if_pos heq, if_pos heq] at h
    rw [if_pos heq.symm]
    omega
  . rw [if_neg heq, if_neg heq] at h
    rw [if_neg (Ne.symm heq)]
    omega

-- the reference dropped here is that of the registry, which `Data.stored` counts
theorem Balanced.unregister {c : ClientPtr} {v : Peer} {f : Peer → Peer} {claimed owed : Nat}
    (hc : d.clients.get? c = some v) (hown : d.server? c = some self)
    (hrefs : ∀ v, (f v).refCount = v.refCount - 1) (hserver : ∀ v, (f v).server = none)
    (h : Balanced d client claimed owed) : Balanced (d.modifyClient c f) client claimed owed := by
  unfold Balanced at *
  rw [Data.refs_modifyClient_eq hc, hrefs]
  by_cases heq : client = c
  . subst heq
    have hnone : (d.modifyClient client f).server? client = none := by
      simp [Data.server?, Data.modifyClient, hc, hserver]
    unfold Data.stored at h ⊢
    rw [hown] at h
    rw [hnone, if_pos rfl]
    simp only [Option.isSome_some, Option.isSome_none, Bool.false_eq_true, ↓reduceIte] at h ⊢
    unfold Data.modifyClient
    dsimp only
    omega
  . have hsame : (d.modifyClient c f).server? client = d.server? client := by
      unfold Data.server? Data.modifyClient
      rw [Heap.get?_modify_ne heq]
    unfold Data.stored at h ⊢
    rw [hsame, if_neg heq]
    unfold Data.modifyClient
    dsimp only
    omega

theorem Balanced.invCreate {claimed owed : Nat} {offer : Offer}
    (h : Balanced d client claimed
      ((if offer.source = client then 1 else 0) + (if offer.target = client then 1 else 0) + owed))
    : Balanced { d with invitations := d.invitations.push offer } client claimed owed := by
  unfold Balanced at *
  rw [Data.stored_push]
  change d.refs client + claimed = _
  omega

theorem Balanced.invFree {claimed owed : Nat} {inv : InvitationPtr} {offer : Offer}
    (hi : d.invitations.get? inv = some offer) (h : Balanced d client claimed owed)
    : Balanced { d with invitations := d.invitations.free inv } client claimed
        ((if offer.source = client then 1 else 0) + (if offer.target = client then 1 else 0)
          + owed) := by
  have hstored : Data.stored _ client + _ = d.stored client := Data.stored_free hi
  unfold Balanced at *
  change d.refs client + claimed = _
  omega

theorem not_counted_of_mayGiveUp (h : point.mayGiveUp = true)
    : point.claims client = 0 ∧ point.owes client = 0 := by
  cases point <;> simp_all [Point.mayGiveUp, Point.claims, Point.owes]

theorem Expands.balanced (hexpands : Expands self d point d' next) (hown : DropsOwn self d point)
    {claimed owed : Nat}
    (h : Balanced d client (point.claims client + claimed) (point.owes client + owed))
    : Balanced d' client (total (Point.claims client) (points next) + claimed)
        (total (Point.owes client) (points next) + owed) := by
  cases hexpands with
  | created =>
    simp [Point.claims, Point.owes] at h ⊢
    exact h.create rfl rfl
  | serves c request =>
    cases request <;> simpa [Point.claims, Point.owes] using h
  | setPlayer c player | setLoggedIn c | growsIds c inv id v hc hid | addNode c inv id
  | findNode c inv v node hc hnode | loggedOut c =>
    simp [Point.claims, Point.owes] at h ⊢
    exact h.modifyClient (fun _ => rfl) fun _ => rfl
  | known c invitee =>
    simp [Point.claims, Point.owes] at h ⊢
    exact h.shift _
  | givesUp point hpoint =>
    obtain ⟨hclaims, howes⟩ : point.claims client = 0 ∧ point.owes client = 0 :=
      not_counted_of_mayGiveUp hpoint
    simpa [hclaims, howes] using h
  | invCreate source target sourceRole targetRole =>
    simp [Point.claims, Point.owes] at h ⊢
    exact h.shift _
  | invCreated source target sourceRole targetRole =>
    simp [Point.claims, Point.owes] at h ⊢
    exact h.invCreate
  | clientRef c v hc =>
    simp [Point.claims, Point.owes] at h ⊢
    exact Balanced.recount 1 0 hc (by simp) (fun _ => rfl) (by simpa using h)
  | clientUnref c registry v hc =>
    simp only [points_nil, total_nil, Nat.zero_add]
    cases registry with
    | false =>
      simp only [Point.claims, Point.owes, Nat.zero_add] at h
      exact Balanced.recount 0 1 hc (by simp) (fun _ => rfl) (by simpa using h)
    | true =>
      simp only [Point.claims, Point.owes, Nat.zero_add] at h
      exact h.unregister hc hown (fun _ => rfl) fun _ => rfl
  | invRef inv | invUnref inv =>
    simp [Point.claims, Point.owes] at h ⊢
    exact h.invitations (fun _ => rfl) fun _ => rfl
  | invFreed inv i hi =>
    simp [Point.claims, Point.owes] at h ⊢
    simpa only [Nat.add_assoc] using h.invFree hi
  | unregisters c =>
    simp [Point.claims, Point.owes] at h ⊢
    exact h
  | _ =>
    simpa [Point.claims, Point.owes] using h

end Locking

end Jeux
