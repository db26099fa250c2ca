import Jeux.Concurrent.Accounts

/-!
What else the threads know about clients while they run: which ids are in use, and whose session a
thread runs and what has become of it.
-/

namespace Jeux

namespace Locking

open Instr Program

variable {self : Nat} {d d' : Data} {point : Point} {next todo : Code} {client : ClientPtr}
  {ahead : List Point}

attribute [local simp] process clientLogout cregUnregister clientMakeInvitation clientAddInvitation
  invUnref clientUnref clientRef addInvitation invRef withClient withPlayer operation
  clientRemoveInvitation postPlayerResults

/-! ## Ids -/

namespace Data

def HasSlot (d : Data) (client : ClientPtr) (id : Int) : Prop :=
  ∃ c, d.clients.get? client = some c ∧ id < c.currentIdSize

end Data

def Point.InRange (d : Data) : Point → Prop
  | .addNode client _ id | .purgeId client id => d.HasSlot client id
  | _ => True

theorem Point.InRange.of_hasSlot (h : point.InRange d)
    (hslots : ∀ client id, d.HasSlot client id → d'.HasSlot client id) : point.InRange d' := by
  cases point with
  | addNode client inv id | purgeId client id => exact hslots client id h
  | _ => trivial

def SlotsOk (d : Data) : Prop :=
  ∀ client c, d.clients.get? client = some c → ∀ node ∈ c.inviteHead, node.id < c.currentIdSize

theorem hasSlot_modifyClient {c : ClientPtr} {f : Peer → Peer} {id : Int}
    (hf : ∀ v, v.currentIdSize ≤ (f v).currentIdSize) (h : d.HasSlot client id)
    : (d.modifyClient c f).HasSlot client id := by
  obtain ⟨v, hv, hid⟩ := h
  unfold Data.HasSlot Data.modifyClient
  by_cases heq : client = c
  . subst heq
    refine ⟨f v, by rw [Heap.get?_modify_self, hv]; rfl, ?_⟩
    have := hf v
    omega
  . exact ⟨v, by rw [Heap.get?_modify_ne heq, hv], hid⟩

theorem Expands.hasSlot (hexpands : Expands self d point d' next) {id : Int}
    (h : d.HasSlot client id) : d'.HasSlot client id := by
  cases hexpands with
  | created =>
    obtain ⟨v, hv, hid⟩ := h
    exact ⟨v, Heap.get?_push_of_get? hv, hid⟩
  | growsIds c inv id v hc hid =>
    apply hasSlot_modifyClient _ h
    intro v
    dsimp only
    omega
  | setPlayer | setLoggedIn | addNode | findNode | loggedOut | clientRef | clientUnref =>
    exact hasSlot_modifyClient (fun _ => Nat.le_refl _) h
  | _ => exact h

theorem Expands.inRange (hexpands : Expands self d point d' next) (hslots : SlotsOk d)
    : ∀ point' ∈ points next, point'.InRange d' := by
  cases hexpands with
  | serves c request => cases request <;> simp [Point.InRange]
  | getsId c inv id v hc hid =>
    have hslot : d.HasSlot c id := ⟨v, hc, hid⟩
    simp [Point.InRange, hslot]
  | growsIds c inv id v hc hid =>
    have hslot : (d.modifyClient c fun c => { c with currentIdSize := c.currentIdSize * 2 }).HasSlot
        c id := by
      refine ⟨_, by rw [Data.modifyClient, Heap.get?_modify_self, hc]; rfl, ?_⟩
      dsimp only
      omega
    simp [Point.InRange, hslot]
  | getsNoId c inv v hc =>
    have hslot : d.HasSlot c (-1) := ⟨v, hc, by omega⟩
    simp [Point.InRange, hslot]
  | findNode c inv v node hc hnode =>
    have hslot : (d.modifyClient c fun c =>
        { c with inviteHead := c.inviteHead.eraseP (·.invitation = inv) }).HasSlot c node.id := by
      refine ⟨_, by rw [Data.modifyClient, Heap.get?_modify_self, hc]; rfl, ?_⟩
      exact hslots c v hc node hnode
    simp [Point.InRange, hslot]
  | _ => simp [Point.InRange]

theorem slotsOk_modifyClient {c : ClientPtr} {f : Peer → Peer} (h : SlotsOk d)
    (hf : ∀ v, d.clients.get? c = some v →
      ∀ node ∈ (f v).inviteHead, node.id < (f v).currentIdSize)
    : SlotsOk (d.modifyClient c f) := by
  intro client v hv
  obtain ⟨v₀, hv₀, rfl⟩ := Heap.get?_modify_eq_some.mp hv
  split
  . next heq =>
    subst heq
    exact hf v₀ hv₀
  . exact h client v₀ hv₀

theorem Expands.slotsOk (hexpands : Expands self d point d' next) (h : SlotsOk d)
    (hpoint : point.InRange d) : SlotsOk d' := by
  cases hexpands with
  | created =>
    intro client v hv
    dsimp only at hv
    rw [Heap.get?_push] at hv
    split at hv
    . obtain rfl := Option.some.inj hv
      simp [newPeer]
    . exact h client v hv
  | growsIds c inv id v hc hid =>
    apply slotsOk_modifyClient h
    intro v₀ hv₀ node hnode
    have := h c v₀ hv₀ node hnode
    dsimp only
    omega
  | addNode c inv id =>
    obtain ⟨v, hv, hid⟩ := hpoint
    apply slotsOk_modifyClient h
    intro v₀ hv₀ node hnode
    obtain rfl := Option.some.inj (hv.symm.trans hv₀)
    rcases List.mem_cons.mp hnode with rfl | hnode
    . exact hid
    . exact h c v hv node hnode
  | findNode c inv v node hc hnode =>
    apply slotsOk_modifyClient h
    intro v₀ hv₀ node hnode
    exact h c v₀ hv₀ node (List.mem_of_mem_eraseP hnode)
  | setPlayer c | setLoggedIn c | loggedOut c | clientRef c | clientUnref c =>
    exact slotsOk_modifyClient h (h c)
  | _ => exact h

/-! ## Sessions -/

/--
What a thread knows about a client: does it serve the client, does the client point to a player, and
is it logged in?
-/
structure Status where
  mine : Bool
  named : Bool
  entered : Bool

def Data.status (self : Nat) (d : Data) (client : ClientPtr) : Status where
  mine := d.server? client = some self
  named := ((d.clients.get? client).bind Peer.player).isSome
  entered := (d.clients.get? client).map Peer.loggedIn = some .loggedIn

def Point.fits (client : ClientPtr) (s : Status) : Point → Prop
  | .service c | .processLogin c _ | .allPlayers c _ | .nameChecked c _ | .setPlayer c _
  | .cregUnregister c => c = client → s.mine = true
  | .setLoggedIn c => c = client → s.mine = true ∧ s.named = true
  | .clientLogin c _ | .clientUnref c true => c = client → s.mine = true ∧ s.entered = false
  | _ => True

def Point.after (client : ClientPtr) (s : Status) : Point → Status
  | .service c => if c = client then ⟨false, false, true⟩ else s
  | .processLogin c _ | .clientLogin c _ | .allPlayers c _ | .nameChecked c _ =>
    if c = client then { s with named := false, entered := true } else s
  | .setPlayer c _ => if c = client then { s with named := true } else s
  | .setLoggedIn c => if c = client then { s with entered := true } else s
  | .clientLogout c | .logoutLoop c | .loggedOut c =>
    if c = client then { s with entered := false } else s
  | .cregUnregister c | .clientUnref c true =>
    if c = client then { s with mine := false, entered := false } else s
  | _ => s

def Session (client : ClientPtr) : Status → List Point → Prop
  | _, [] => True
  | s, point :: ahead => point.fits client s ∧ Session client (point.after client s) ahead

variable {s s' : Status}

structure Status.Le (s s' : Status) : Prop where
  mine : s.mine = true → s'.mine = true
  named : s.mine = true → s.named = true → s'.named = true
  entered : s.mine = true → s.entered = false → s'.entered = false

theorem Status.Le.of_not_mine (h : s.mine = false) : s.Le s' := by
  constructor <;> simp [h]

theorem Status.Le.after (h : s.Le s') (point : Point)
    : (point.after client s).Le (point.after client s') := by
  obtain ⟨hmine, hnamed, hentered⟩ := h
  unfold Point.after
  split
  all_goals first
    | exact ⟨hmine, hnamed, hentered⟩
    | (split <;> constructor <;> simp_all)

theorem Point.fits_mono (h : s.Le s') (hfits : point.fits client s) : point.fits client s' := by
  unfold Point.fits at *
  split
  all_goals first
    | trivial
    | exact fun heq => h.mine (hfits heq)
    | exact fun heq => ⟨h.mine (hfits heq).1, h.named (hfits heq).1 (hfits heq).2⟩
    | exact fun heq => ⟨h.mine (hfits heq).1, h.entered (hfits heq).1 (hfits heq).2⟩

theorem Session.mono (h : s.Le s') (hsession : Session client s ahead)
    : Session client s' ahead := by
  induction ahead generalizing s s' with
  | nil => trivial
  | cons point ahead ih =>
    refine ⟨Point.fits_mono h hsession.1, ?_⟩
    exact ih (h.after point) hsession.2

namespace Data

theorem status_modifyClient {c : ClientPtr} {f : Peer → Peer} (hne : client ≠ c)
    : (d.modifyClient c f).status self client = d.status self client := by
  unfold status server? modifyClient
  dsimp only
  rw [Heap.get?_modify_ne hne]

theorem status_modifyClient_self {v : Peer} {f : Peer → Peer}
    (hc : d.clients.get? client = some v)
    : (d.modifyClient client f).status self client
        =
      ⟨(f v).server = some self, (f v).player.isSome, (f v).loggedIn = .loggedIn⟩ := by
  unfold status server? modifyClient
  simp [hc]

theorem status_of_get? {v : Peer} (hc : d.clients.get? client = some v)
    : d.status self client
        =
      ⟨v.server = some self, v.player.isSome, v.loggedIn = .loggedIn⟩ := by
  unfold status server?
  simp [hc]

end Data

theorem Status.le_refl (s : Status) : s.Le s := ⟨id, fun _ => id, fun _ => id⟩

theorem Status.le_of_eq (h : s = s') : s.Le s' := h ▸ s.le_refl

theorem Status.worst_le (s : Status) : Status.Le ⟨s.mine, false, true⟩ s := by
  constructor <;> simp

theorem after_of_mayGiveUp (h : point.mayGiveUp = true) : point.after client s = s := by
  cases point <;> simp_all [Point.mayGiveUp, Point.after]

namespace Data

theorem status_modifyClient_eq {c : ClientPtr} {f : Peer → Peer}
    (hserver : ∀ v, (f v).server = v.server) (hplayer : ∀ v, (f v).player = v.player)
    (hin : ∀ v, (f v).loggedIn = v.loggedIn)
    : (d.modifyClient c f).status self client = d.status self client := by
  by_cases heq : client = c
  . subst heq
    cases hc : d.clients.get? client with
    | none =>
      unfold status server? modifyClient
      simp [hc]
    | some v => rw [status_modifyClient_self hc, status_of_get? hc, hserver, hplayer, hin]
  . exact status_modifyClient heq

theorem get?_of_mine (h : (d.status self client).mine = true)
    : ∃ v, d.clients.get? client = some v := by
  cases hc : d.clients.get? client with
  | none => simp [status, server?, hc] at h
  | some v => exact ⟨v, rfl⟩

end Data

theorem Status.Le.ite {b : Prop} [Decidable b] (h : b → s'.Le s)
    : (if b then s' else s).Le s := by
  split
  . next hb => exact h hb
  . exact s.le_refl

namespace Data

theorem le_status_modifyClient {c : ClientPtr} {f : Peer → Peer}
    (hself : client = c → s.Le ((d.modifyClient c f).status self client))
    (hother : client ≠ c → s = d.status self client)
    : s.Le ((d.modifyClient c f).status self client) := by
  by_cases heq : client = c
  . exact hself heq
  . rw [status_modifyClient heq]
    exact Status.le_of_eq (hother heq)

theorem le_status_modifyClient_same {c : ClientPtr} {f : Peer → Peer}
    (hserver : ∀ v, (f v).server = v.server) (hplayer : ∀ v, (f v).player = v.player)
    (hin : ∀ v, (f v).loggedIn = v.loggedIn)
    : (d.status self client).Le ((d.modifyClient c f).status self client) :=
  Status.le_of_eq (status_modifyClient_eq hserver hplayer hin).symm

theorem status_of_push {other : Nat} (hpush : d'.clients = d.clients.push (newPeer self))
    (hne : client ≠ d.clients.next) : d'.status other client = d.status other client := by
  unfold status server?
  rw [hpush, Heap.get?_push, if_neg hne]

theorem not_mine_next : (d.status self d.clients.next).mine = false := by
  simp [status, server?]

end Data

theorem le_setPlayer {c : ClientPtr} {player : PlayerPtr}
    (hfits : (Point.setPlayer c player).fits client (d.status self client))
    : ((Point.setPlayer c player).after client (d.status self client)).Le
        ((d.modifyClient c fun v => { v with player := some player }).status self client) := by
  apply Data.le_status_modifyClient
  . rintro rfl
    obtain ⟨v, hv⟩ := Data.get?_of_mine (hfits rfl)
    rw [Data.status_modifyClient_self hv]
    simp [Point.after, Data.status_of_get? hv, Status.le_refl]
  . intro hne
    exact if_neg (Ne.symm hne)

theorem le_setLoggedIn {c : ClientPtr}
    (hfits : (Point.setLoggedIn c).fits client (d.status self client))
    : ((Point.setLoggedIn c).after client (d.status self client)).Le
        ((d.modifyClient c fun v => { v with loggedIn := .loggedIn }).status self client) := by
  apply Data.le_status_modifyClient
  . rintro rfl
    obtain ⟨v, hv⟩ := Data.get?_of_mine (hfits rfl).1
    rw [Data.status_modifyClient_self hv]
    simp [Point.after, Data.status_of_get? hv, Status.le_refl]
  . intro hne
    exact if_neg (Ne.symm hne)

theorem le_clientUnref {c : ClientPtr} (registry : Bool)
    : ((Point.clientUnref c registry).after client (d.status self client)).Le
        ((d.modifyClient c fun v =>
          { v with refCount := v.refCount - 1,
                   server := if registry then none else v.server }).status self client) := by
  cases registry with
  | false => exact Data.le_status_modifyClient_same (fun _ => rfl) (fun _ => rfl) fun _ => rfl
  | true =>
    apply Data.le_status_modifyClient
    . rintro rfl
      simp only [Point.after, ↓reduceIte]
      exact .of_not_mine rfl
    . intro hne
      exact if_neg (Ne.symm hne)

theorem le_loggedOut {c : ClientPtr}
    : ((Point.loggedOut c).after client (d.status self client)).Le
        ((d.modifyClient c fun v => { v with loggedIn := .loggedOut }).status self client) := by
  apply Data.le_status_modifyClient
  . rintro rfl
    cases hv : d.clients.get? client with
    | none =>
      apply Status.Le.of_not_mine
      simp [Point.after, Data.status, Data.server?, hv]
    | some v =>
      rw [Data.status_modifyClient_self hv]
      simp [Point.after, Data.status_of_get? hv, Status.le_refl]
  . intro hne
    exact if_neg (Ne.symm hne)

theorem session_created (hpush : d'.clients = d.clients.push (newPeer self))
    (hahead : Session client (d.status self client) ahead)
    : Session client (d'.status self client) (.service d.clients.next :: ahead) := by
  by_cases heq : client = d.clients.next
  . subst heq
    have hmine : (d'.status self d.clients.next).mine = true := by
      simp [Data.status, Data.server?, hpush, newPeer]
    refine ⟨fun _ => hmine, hahead.mono ?_⟩
    exact .of_not_mine Data.not_mine_next
  . rw [Data.status_of_push hpush heq]
    refine ⟨fun hc => absurd hc.symm heq, ?_⟩
    simpa only [Point.after, if_neg (Ne.symm heq)] using hahead

theorem session_serves {c : ClientPtr} {request : Request}
    (hfits : (Point.service c).fits client s)
    (hahead : Session client ((Point.service c).after client s) ahead)
    : Session client s (points (process c request ++ [run (.service c)]) ++ ahead) := by
  by_cases heq : c = client
  . cases request <;> simp_all [Session, Point.fits, Point.after]
  . cases request <;> simp_all [Session, Point.fits, Point.after]

theorem session_leaves {c : ClientPtr} (hfits : (Point.service c).fits client s)
    (hahead : Session client ((Point.service c).after client s) ahead)
    : Session client s (points (clientLogout c ++ cregUnregister c) ++ ahead) := by
  by_cases heq : c = client
  . simp_all [Session, Point.fits, Point.after]
    apply Session.mono _ hahead
    apply Status.Le.of_not_mine rfl
  . simp_all [Session, Point.fits, Point.after]

theorem session_nameFree {c : ClientPtr} {player : PlayerPtr}
    (hfits : (Point.nameChecked c player).fits client s)
    (hahead : Session client ((Point.nameChecked c player).after client s) ahead)
    : Session client s (.setPlayer c player :: .setLoggedIn c :: ahead) := by
  by_cases heq : c = client
  . subst heq
    simp [Session, Point.fits, Point.after] at hfits hahead ⊢
    refine ⟨hfits, ?_⟩
    apply Session.mono _ hahead
    constructor <;> simp
  . simp [Session, Point.fits, Point.after, heq] at hahead ⊢
    exact hahead

theorem session_unregisters {c : ClientPtr} (hfits : (Point.cregUnregister c).fits client s)
    (hahead : Session client ((Point.cregUnregister c).after client s) ahead)
    : Session client s (.clientLogout c :: .clientUnref c true :: .clientFree c :: ahead) := by
  by_cases heq : c = client
  . subst heq
    simp [Session, Point.fits, Point.after] at hfits hahead ⊢
    exact ⟨hfits, hahead⟩
  . simp [Session, Point.fits, Point.after, heq] at hahead ⊢
    exact hahead

theorem session_logsIn {c : ClientPtr} {player : PlayerPtr} {v : Peer}
    (hc : d.clients.get? c = some v) (hout : v.loggedIn = .loggedOut)
    (hfits : (Point.processLogin c player).fits client (d.status self client))
    (hahead : Session client ((Point.processLogin c player).after client (d.status self client))
      ahead)
    : Session client (d.status self client) (.clientLogin c player :: ahead) := by
  refine ⟨?_, hahead⟩
  rintro rfl
  refine ⟨hfits rfl, ?_⟩
  simp [Data.status, hc, hout]

theorem Expands.session (hexpands : Expands self d point d' next)
    (hnamed : ∀ c v, d.clients.get? c = some v → v.loggedIn = .loggedIn → v.player ≠ none)
    (h : Session client (d.status self client) (point :: ahead))
    : Session client (d'.status self client) (points next ++ ahead) := by
  obtain ⟨hfits, hahead⟩ := h
  cases hexpands with
  | created =>
    simp only [withClient, points_acquire, points_release, points_run, points_nil, List.nil_append,
      List.cons_append]
    exact session_created rfl hahead
  | serves c request => exact session_serves hfits hahead
  | leaves c => exact session_leaves hfits hahead
  | refuses c player | nameTaken c player | relogin c player =>
    simp
    exact hahead.mono (.ite fun _ => Status.worst_le _)
  | logsIn c player v hc hplayer =>
    have hout : v.loggedIn = .loggedOut := by
      cases hin : v.loggedIn with
      | loggedOut => rfl
      | loggedIn => exact absurd hplayer (hnamed c v hc hin)
    simpa using session_logsIn hc hout hfits hahead
  | login c player =>
    simp
    exact ⟨fun heq => (hfits heq).1, hahead⟩
  | allPlayers c player players =>
    simp
    exact ⟨hfits, hahead⟩
  | nameFree c player => simpa using session_nameFree hfits hahead
  | setPlayer c player => exact hahead.mono (le_setPlayer hfits)
  | setLoggedIn c => exact hahead.mono (le_setLoggedIn hfits)
  | givesUp point hpoint =>
    rw [after_of_mayGiveUp hpoint] at hahead
    exact hahead
  | clientUnref c registry v hc => exact hahead.mono (le_clientUnref registry)
  | clientRef c | growsIds c | addNode c | findNode c =>
    simp [Session, Point.fits, Point.after]
    exact hahead.mono (Data.le_status_modifyClient_same (fun _ => rfl) (fun _ => rfl) fun _ => rfl)
  | logsOutFirst c v hc hcount hin =>
    refine ⟨trivial, hahead.mono ?_⟩
    simp only [Point.after]
    split
    . exact ⟨id, fun _ => id, fun _ _ => rfl⟩
    . exact Status.le_refl _
  | notLoggedIn c v hc hin =>
    apply hahead.mono
    apply Status.Le.ite
    rintro rfl
    refine ⟨id, fun _ => id, fun _ _ => ?_⟩
    simp [Data.status, hc, hin]
  | logoutNode c op id => exact ⟨trivial, trivial, hahead⟩
  | clientLogout c | logoutTail c => exact ⟨trivial, hahead⟩
  | loggedOut c => exact hahead.mono le_loggedOut
  | notRegistered c =>
    simp
    exact hahead.mono (.ite fun _ => .of_not_mine rfl)
  | unregisters c =>
    simp
    exact session_unregisters hfits hahead
  | _ =>
    simp [Session, Point.fits, Point.after]
    exact hahead

/-! ## The other threads -/

theorem Expands.status_le (hexpands : Expands self d point d' next)
    (hfits : ∀ client, point.fits client (d.status self client)) {other : Nat} (hne : other ≠ self)
    : (d.status other client).Le (d'.status other client) := by
  -- what one thread serves no other does
  have hother (c : ClientPtr) (hmine : (d.status self c).mine = true)
      : (d.status other c).mine = false := by
    simp only [Data.status, decide_eq_true_eq] at hmine
    simp [Data.status, hmine, Ne.symm hne]
  cases hexpands with
  | created =>
    by_cases heq : client = d.clients.next
    . subst heq
      exact .of_not_mine Data.not_mine_next
    . apply Status.le_of_eq
      symm
      exact Data.status_of_push rfl heq
  | setPlayer c player =>
    apply Data.le_status_modifyClient _ fun _ => rfl
    rintro rfl
    exact .of_not_mine (hother client (hfits client rfl))
  | setLoggedIn c =>
    apply Data.le_status_modifyClient _ fun _ => rfl
    rintro rfl
    exact .of_not_mine (hother client (hfits client rfl).1)
  | clientUnref c registry v hc =>
    cases registry with
    | true =>
      apply Data.le_status_modifyClient _ fun _ => rfl
      rintro rfl
      exact .of_not_mine (hother client (hfits client rfl).1)
    | false => exact Data.le_status_modifyClient_same (fun _ => rfl) (fun _ => rfl) fun _ => rfl
  | loggedOut c =>
    apply Data.le_status_modifyClient _ fun _ => rfl
    rintro rfl
    cases hv : d.clients.get? client with
    | none =>
      apply Status.Le.of_not_mine
      simp [Data.status, Data.server?, hv]
    | some v =>
      rw [Data.status_modifyClient_self hv, Data.status_of_get? hv]
      exact ⟨id, fun _ => id, fun _ _ => rfl⟩
  | clientRef | growsIds | addNode | findNode =>
    exact Data.le_status_modifyClient_same (fun _ => rfl) (fun _ => rfl) fun _ => rfl
  | _ => exact Status.le_refl _

def Entered (d : Data) : Prop :=
  ∀ client c, d.clients.get? client = some c → c.loggedIn = .loggedIn →
    c.player ≠ none ∧ c.server ≠ none

theorem entered_modifyClient {c : ClientPtr} {f : Peer → Peer} (h : Entered d)
    (hf : ∀ v, d.clients.get? c = some v → (f v).loggedIn = .loggedIn →
      (f v).player ≠ none ∧ (f v).server ≠ none)
    : Entered (d.modifyClient c f) := by
  intro client v hv
  obtain ⟨v₀, hv₀, rfl⟩ := Heap.get?_modify_eq_some.mp hv
  split
  . next heq =>
    subst heq
    exact hf v₀ hv₀
  . exact h client v₀ hv₀

theorem Expands.entered (hexpands : Expands self d point d' next) (h : Entered d)
    (hfits : ∀ client, point.fits client (d.status self client)) : Entered d' := by
  cases hexpands with
  | created =>
    intro client v hv
    dsimp only at hv
    rw [Heap.get?_push] at hv
    split at hv
    . obtain rfl := Option.some.inj hv
      simp [newPeer]
    . exact h client v hv
  | setPlayer c player =>
    apply entered_modifyClient h
    intro v hv hin
    exact ⟨by simp, (h c v hv hin).2⟩
  | setLoggedIn c =>
    apply entered_modifyClient h
    intro v hv _
    obtain ⟨hmine, hnamed⟩ := hfits c rfl
    rw [Data.status_of_get? hv] at hmine hnamed
    simp only [decide_eq_true_eq] at hmine
    exact ⟨Option.isSome_iff_ne_none.mp hnamed, by simp [hmine]⟩
  | clientUnref c registry v hc =>
    apply entered_modifyClient h
    intro v hv hin
    cases registry with
    | false => exact h c v hv hin
    | true =>
      obtain ⟨-, hout⟩ := hfits c rfl
      rw [Data.status_of_get? hv] at hout
      exact absurd hin (of_decide_eq_false hout)
  | loggedOut c =>
    apply entered_modifyClient h
    intro v _ hin
    simp at hin
  | clientRef c | growsIds c | addNode c | findNode c => exact entered_modifyClient h (h c)
  | _ => exact h

end Locking

end Jeux
