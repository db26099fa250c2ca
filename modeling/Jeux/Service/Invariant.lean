import Jeux.Service.Served

/-!
What one event can do to the server, and what holds whenever no event is being handled.
-/

namespace Jeux

open ServerM

variable {env : Env} {w w' : World} {client : ClientPtr} {c : Client} {σ σ' : Server} {e : Event}

/-! ## The steps of the server -/

/--
`Departs env client w w'`: `client_logout`, which does nothing for a client that is logged out, and
then `creg_unregister`.
-/
inductive Departs (env : Env) (client : ClientPtr) (w : World) : World → Prop
  | loggedOut {c : Client} {i : Nat} (hc : w.store.clients.get? client = some c)
      (hout : c.loggedIn = .loggedOut) (hi : w.store.clientRegistry.slotOf? client = some i)
      : Departs env client w { w with store := w.store.unregister client i }
  | loggedIn {c : Client} {w₁ : World} {player : PlayerPtr} {i : Nat}
      (hc : w.store.clients.get? client = some c) (hin : c.loggedIn = .loggedIn)
      (hplayer : c.player = some player) (hlogout : LogoutRun env client w c.inviteHead w₁)
      (hi : w₁.store.clientRegistry.slotOf? client = some i)
      : Departs env client w { w₁ with store := (w₁.store.leave client player).unregister client i }

namespace Server

def admitted (connections : ClientPtr → Option Int) : Option ClientPtr → ClientPtr → Option Int
  | some client => Function.update connections client (some 0)
  | none => connections

/--
`Steps env σ e σ'`: the event `e` can take the server from `σ` to `σ'`.
-/
inductive Steps (env : Env) (σ : Server) : Event → Server → Prop
  | idle (e : Event) : Steps env σ e σ
  | connects {fd : Int} {o : Option ClientPtr} {w : World} (h : Connects fd σ.world o w)
      : Steps env σ (.connect fd) { world := w, connections := admitted σ.connections o }
  | serves {client : ClientPtr} {pkt : Packet} {gate gate' : Int} {w : World}
      (hgate : σ.connections client = some gate)
      (h : Served env σ.world client gate pkt gate' w)
      : Steps env σ (.packet client pkt) {
          world := w
          connections := Function.update σ.connections client (some gate') }
  | departs {e : Event} {client : ClientPtr} {w : World}
      (he : e = .hangUp client
        ∨ ∃ pkt, e = .packet client pkt ∧ PacketType.ofByte? pkt.hdr.type = some .no)
      (hconnected : σ.connections client ≠ none) (h : Departs env client σ.world w)
      : Steps env σ e { world := w, connections := Function.update σ.connections client none }
  | calls {client : ClientPtr} {op : Operation} {r : Int} {w : World}
      (hconnected : σ.connections client ≠ none) (hcall : σ.world.store.Callable client op)
      (h : Effect env σ.world client op r w) : Steps env σ (.call client op) { σ with world := w }

structure Ok (σ : Server) : Prop where
  steady : σ.world.store.Steady
  connected : ∀ client, σ.connections client ≠ none ↔ 0 < σ.world.store.registered client
  sem : ∀ client, σ.connections client ≠ none → σ.world.store.loginSem = 1
  gate : ∀ client c, σ.connections client = some 0 → σ.world.store.clients.get? client = some c →
    c.player = none

theorem initial_ok : initialServer.Ok where
  steady := {
    valid := {
      registry := by constructor <;> decide
      held_live := by
        intro client hpos
        exact absurd hpos (by simp [initialServer, initialWorld, initialStore, Store.registered,
          ClientRegistry.members, ClientRegistry.slots])
      client := by simp [initialServer, initialWorld, initialStore]
      invitation := by simp [initialServer, initialWorld, initialStore]
      owned := by simp [initialServer, initialWorld, initialStore]
      players_nodup := List.nodup_nil
      player := by simp [initialServer, initialWorld, initialStore] }
    settled := {
      both := by simp [initialServer, initialWorld, initialStore]
      positive := by simp [initialServer, initialWorld, initialStore]
      online := by simp [initialServer, initialWorld, initialStore] }
    session := by simp [initialServer, initialWorld, initialStore] }
  connected := by
    intro client
    simp [initialServer, initialWorld, initialStore, Store.registered, ClientRegistry.members,
      ClientRegistry.slots]
  sem := by simp [initialServer]
  gate := by simp [initialServer]

theorem Ok.serves (h : σ.Ok) (hconnected : σ.connections client ≠ none)
    : σ.world.store.Serves (fun _ => 0) client :=
  h.steady.serves ((h.connected client).mp hconnected)

/-! ## Every event is one of the steps -/

theorem close_run {i : Nat} (connections : ClientPtr → Option Int)
    (hi : w.store.clientRegistry.slotOf? client = some i)
    (hc : w.store.clients.get? client = some c) (hout : c.loggedIn = .loggedOut)
    : close env w connections client
        =
      .ok {
        world := { w with store := w.store.unregister client i }
        connections := Function.update connections client none } := by
  simp only [close, cregUnregister_run hi hc hout]

theorem departs_run (env : Env) (connections : ClientPtr → Option Int)
    (hserves : w.store.Serves (fun _ => 0) client)
    : ∃ r w₁ w', (clientLogout client).run env w = .ok (r, w₁)
        ∧ close env w₁ connections client
            = .ok { world := w', connections := Function.update connections client none }
        ∧ Departs env client w w' := by
  obtain ⟨c, hc⟩ := hserves.exists_client
  cases hstate : c.loggedIn with
  | loggedOut =>
    obtain ⟨i, hi⟩ := slotOf?_of_registered hserves.registered
    exact ⟨_, _, _, clientLogout_run_loggedOut hc hstate, close_run connections hi hc hstate,
      .loggedOut hc hstate hi⟩
  | loggedIn =>
    obtain ⟨w₁, player, hplayer, hlogout, hrun⟩ := clientLogout_run env hserves hc hstate
    have hserves₁ := hlogout.serves hserves
    obtain ⟨c₁, hc₁⟩ := hserves₁.exists_client
    obtain ⟨i, hi⟩ := slotOf?_of_registered hserves₁.registered
    refine ⟨_, _, _, hrun, close_run (c := { c₁ with loggedIn := .loggedOut }) connections hi ?_ rfl,
      .loggedIn hc hstate hplayer hlogout hi⟩
    simp [hc₁]

theorem Ok.callable (h : σ.Ok) {op : Operation} (hconnected : σ.connections client ≠ none)
    (hfits : op.Fits σ.world.store client) : σ.world.store.Callable client op where
  registered := (h.connected client).mp hconnected
  session := (h.serves hconnected).session
  invited := by
    rintro target sourceRole targetRole rfl
    obtain ⟨hne, hregistered, hin, hroles⟩ := hfits
    obtain ⟨ct, hct⟩ := h.steady.valid.held_live target (by omega)
    refine ⟨hne, ⟨ct, hct, ?_⟩, hroles⟩
    simpa [Store.isLoggedIn, hct] using hin

theorem Ok.steps (h : σ.Ok) (hrun : exec env σ e = .ok σ') : Steps env σ e σ' := by
  cases e with
  | connect fd =>
    obtain ⟨o, w, hrun', hconnects⟩ := cregRegister_run env h.steady.valid.registry fd
    simp only [exec, hrun'] at hrun
    cases o with
    | none =>
      simp only [Except.ok.injEq] at hrun
      exact hrun ▸ .connects hconnects
    | some client =>
      simp only [Except.ok.injEq] at hrun
      exact hrun ▸ .connects hconnects
  | packet client pkt =>
    cases hgate : σ.connections client with
    | none =>
      simp only [exec, hgate, Except.ok.injEq] at hrun
      exact hrun ▸ .idle _
    | some gate =>
      have hconnected : σ.connections client ≠ none := by simp [hgate]
      simp only [exec, hgate] at hrun
      split at hrun
      . next gate' w hserve =>
        rw [Except.ok.injEq] at hrun
        exact hrun ▸ .serves hgate (servicePacket_served h.steady ((h.connected client).mp hconnected)
          (by rw [h.sem client hconnected]; decide) hserve)
      . next gate' w hserve =>
        obtain ⟨htype, r, hlogout⟩ := servicePacket_last hserve
        obtain ⟨r', w₁, w', hlogout', hclose, hdeparts⟩ :=
          departs_run env σ.connections (h.serves hconnected)
        rw [hlogout', Except.ok.injEq, Prod.mk.injEq] at hlogout
        obtain ⟨rfl, rfl⟩ := hlogout
        rw [hclose, Except.ok.injEq] at hrun
        exact hrun ▸ .departs (.inr ⟨pkt, rfl, htype⟩) hconnected hdeparts
      . simp at hrun
  | hangUp client =>
    cases hgate : σ.connections client with
    | none =>
      simp only [exec, hgate, Except.ok.injEq] at hrun
      exact hrun ▸ .idle _
    | some gate =>
      have hconnected : σ.connections client ≠ none := by simp [hgate]
      obtain ⟨r, w₁, w', hlogout, hclose, hdeparts⟩ :=
        departs_run env σ.connections (h.serves hconnected)
      simp only [exec, hgate, hlogout, hclose, Except.ok.injEq] at hrun
      exact hrun ▸ .departs (.inl rfl) hconnected hdeparts
  | call client op =>
    simp only [exec] at hrun
    split at hrun
    . next hcond =>
      obtain ⟨hconnected, -, hfits⟩ := hcond
      have hcall := h.callable hconnected hfits
      split at hrun
      . next r w hop =>
        rw [Except.ok.injEq] at hrun
        exact hrun ▸ .calls hconnected hcall ((h.serves hconnected).effect hcall hop)
      . simp at hrun
    . rw [Except.ok.injEq] at hrun
      exact hrun ▸ .idle _

/-! ## Every step keeps the invariant -/

end Server

namespace Store

variable {s s' : Store} {name : CString} {player : PlayerPtr}

theorem Steady.keeps (h : s.Steady) (hkeeps : s.KeepsSessions s') (hv : s'.Valid fun _ => 0)
    (hs : s'.Settled) : s'.Steady where
  valid := hv
  settled := hs
  session := by
    intro x c' hregistered hc' hplayer
    obtain ⟨c, hc, hplayer', hin⟩ := hkeeps.get?_of_get? hc'
    rw [hin]
    rw [hkeeps.registered] at hregistered
    exact h.session x c hregistered hc (hplayer' ▸ hplayer)

theorem Steady.effect {r : Int} {op : Operation} (h : w.store.Steady)
    (heffect : Effect env w client op r w') (hcall : w.store.Callable client op) : w'.store.Steady :=
  h.keeps heffect.keepsSessions (heffect.valid h.valid h.settled.linked (hcall.allowed h.valid))
    (heffect.settled h.valid h.settled hcall)

theorem enlist_clients (s : Store) (name : CString) : (s.enlist name).clients = s.clients := by
  unfold enlist
  split <;> rfl

theorem enlist_clientRegistry (s : Store) (name : CString)
    : (s.enlist name).clientRegistry = s.clientRegistry := by
  unfold enlist
  split <;> rfl

theorem enlist_invitations (s : Store) (name : CString)
    : (s.enlist name).invitations = s.invitations := by
  unfold enlist
  split <;> rfl

theorem enlist_loginSem (s : Store) (name : CString)
    : (s.enlist name).loginSem = s.loginSem := by
  unfold enlist
  split <;> rfl

theorem Steady.enlist (h : s.Steady) (name : CString) : (s.enlist name).Steady where
  valid := h.valid.enlist name
  settled := h.settled.congr (enlist_clients s name) (enlist_invitations s name)
  session := by
    rw [enlist_clients]
    unfold registered
    rw [enlist_clientRegistry]
    exact h.session

theorem Steady.pushPlayer (h : s.Steady) (p : Player)
    : { s with players := s.players.push p }.Steady where
  valid := h.valid.pushPlayer p
  settled := h.settled.congr rfl rfl
  session := h.session

theorem Steady.login (h : s.Steady) (hc : s.clients.get? client = some c)
    (hout : c.loggedIn = .loggedOut) (hregistered : 0 < s.registered client)
    (hplayer : player ∈ s.playerRegistry.players) : (s.login client player).Steady where
  valid := h.valid.login hc hout (by omega) hplayer
  settled := h.settled.login client player
  session := by
    intro x c' hx hc' hplayer'
    rw [login_clients] at hc'
    obtain ⟨cx, hcx, rfl⟩ := Heap.get?_modify_eq_some.mp hc'
    split
    . rfl
    . next hne =>
      rw [if_neg hne] at hplayer'
      exact h.session x cx hx hcx hplayer'

theorem Steady.connectFailed (h : s.Steady) (hqueue : s.clientRegistry.loginQueue ≠ 0)
    : s.connectFailed.Steady where
  valid := h.valid.connectFailed hqueue
  settled := h.settled.congr rfl rfl
  session := by
    intro x cx hregistered
    apply h.session
    unfold Store.connectFailed registered at hregistered
    dsimp only at hregistered
    rw [h.valid.registry.members_enrol hqueue] at hregistered
    simpa [registered] using hregistered

theorem registered_connect (h : s.Steady) (hqueue : s.clientRegistry.loginQueue ≠ 0) (fd : Int)
    (x : ClientPtr)
    : (s.connect fd).registered x = s.registered x + if x = s.clients.next then 1 else 0 := by
  unfold connect registered
  dsimp only
  rw [h.valid.registry.members_enrol hqueue, List.count_append]
  by_cases heq : x = s.clients.next
  . simp [heq]
  . simp [heq, Ne.symm heq]

theorem Steady.connect (h : s.Steady) (hqueue : s.clientRegistry.loginQueue ≠ 0) (fd : Int)
    : (s.connect fd).Steady where
  valid := h.valid.connect hqueue fd
  settled := h.settled.connect h.valid fd
  session := by
    intro x cx hx hcx hplayer
    rw [registered_connect h hqueue] at hx
    unfold Store.connect at hcx
    dsimp only at hcx
    rw [Heap.get?_push] at hcx
    split at hcx
    . rw [Option.some.injEq] at hcx
      simp [← hcx, newClient] at hplayer
    . next hne =>
      rw [if_neg hne] at hx
      exact h.session x cx hx hcx hplayer

theorem registered_unregister {i : Nat} (h : s.Valid fun _ => 0)
    (hi : s.clientRegistry.slotOf? client = some i) (x : ClientPtr)
    : (s.unregister client i).registered x
        =
      s.registered x - if x = client then 1 else 0 := by
  have hlen : s.clientRegistry.length ≤ s.clientRegistry.clients.length := by
    have := h.registry.room
    rw [h.registry.clients_length]
    omega
  have hregistry : (s.unregister client i).clientRegistry = (s.clientRegistry.shift i).release := by
    unfold unregister unrefClient
    split
    . split <;> rfl
    . rfl
  unfold registered
  rw [hregistry, ClientRegistry.members_release_shift hi hlen, List.count_erase]
  by_cases heq : x = client
  . simp [heq]
  . simp [heq, Ne.symm heq]

theorem registered_le_one {extra : ClientPtr → Nat} (h : s.Valid extra) (x : ClientPtr) : s.registered x ≤ 1 :=
  List.nodup_iff_count_le_one.mp h.registry.nodup x

theorem unregister_clients_ne {i : Nat} {x : ClientPtr} (hne : x ≠ client)
    : (s.unregister client i).clients.get? x = s.clients.get? x := by
  unfold unregister unrefClient
  split
  . split
    . simp [hne]
    . simp [hne]
  . rfl

/--
Once it is unregistered it does not matter that the client still has its player.
-/
theorem Steady.of_unregister {i : Nat} (hv : s.Valid fun _ => 0) (hs : s.Settled)
    (hsession : ∀ x c, x ≠ client → 0 < s.registered x → s.clients.get? x = some c →
      c.player ≠ none → c.loggedIn = .loggedIn)
    (hc : s.clients.get? client = some c) (hout : c.loggedIn = .loggedOut)
    (hi : s.clientRegistry.slotOf? client = some i) : (s.unregister client i).Steady := by
  have hmem : client ∈ s.clientRegistry.members := by
    refine Classical.byContradiction fun hnot => ?_
    rw [ClientRegistry.slotOf?_eq_none.mpr hnot] at hi
    simp at hi
  constructor
  . exact hv.unregister hi hc hout
  . exact hs.unregister hv hmem
  . intro x cx hx hcx hplayer
    rw [registered_unregister hv hi] at hx
    by_cases heq : x = client
    . subst heq
      have := registered_le_one hv x
      rw [if_pos rfl] at hx
      omega
    . rw [unregister_clients_ne heq] at hcx
      rw [if_neg heq] at hx
      exact hsession x cx heq hx hcx hplayer

theorem unregister_loginSem {i : Nat} : (s.unregister client i).loginSem = s.loginSem := by
  unfold unregister unrefClient
  split
  . split <;> rfl
  . rfl

end Store

theorem leave_clients_ne {s : Store} {x : ClientPtr} (player : PlayerPtr) (hne : x ≠ client)
    : (s.leave client player).clients.get? x = s.clients.get? x := by
  rw [Store.leave_clients, Heap.get?_modify_ne hne]

theorem Departs.steady (h : Departs env client w w') (hsteady : w.store.Steady)
    (hregistered : 0 < w.store.registered client) : w'.store.Steady := by
  have hserves := hsteady.serves hregistered
  cases h with
  | loggedOut hc hout hi =>
    exact .of_unregister hsteady.valid hsteady.settled
      (fun x c _ hx hcx => hsteady.session x c hx hcx) hc hout hi
  | @loggedIn c w₁ player i hc hin hplayer hlogout hi =>
    obtain ⟨c₁, hc₁, hplayer₁, hin₁⟩ := hlogout.keepsSessions.get? hc
    have hserves₁ := hlogout.serves hserves
    have hsteady₁ := hsteady.keeps hlogout.keepsSessions hserves₁.valid hserves₁.settled
    have hvalid := hserves₁.valid.leave hc₁ (hin₁.trans hin) (hplayer₁.trans hplayer)
    have hsettled := hserves₁.settled.leave player (hlogout.idle hserves hc)
    refine .of_unregister (c := { c₁ with loggedIn := .loggedOut }) hvalid hsettled ?_
      (by simp [hc₁]) rfl hi
    intro x cx hne hx hcx
    rw [leave_clients_ne player hne] at hcx
    exact hsteady₁.session x cx hx hcx

theorem Departs.registered (h : Departs env client w w') (hsteady : w.store.Steady)
    (hregistered : 0 < w.store.registered client) (x : ClientPtr)
    : w'.store.registered x = w.store.registered x - if x = client then 1 else 0 := by
  have hserves := hsteady.serves hregistered
  cases h with
  | loggedOut hc hout hi => exact Store.registered_unregister hsteady.valid hi x
  | @loggedIn c w₁ player i hc hin hplayer hlogout hi =>
    obtain ⟨c₁, hc₁, hplayer₁, hin₁⟩ := hlogout.keepsSessions.get? hc
    have hserves₁ := hlogout.serves hserves
    have hvalid := hserves₁.valid.leave hc₁ (hin₁.trans hin) (hplayer₁.trans hplayer)
    rw [← hlogout.keepsSessions.registered]
    exact Store.registered_unregister hvalid hi x

theorem Departs.session_ne (h : Departs env client w w') {x : ClientPtr} (hne : x ≠ client)
    : (w'.store.clients.get? x).map Client.session = (w.store.clients.get? x).map Client.session := by
  cases h with
  | loggedOut => rw [Store.unregister_clients_ne hne]
  | loggedIn _ _ _ hlogout =>
    rw [Store.unregister_clients_ne hne, leave_clients_ne _ hne]
    exact hlogout.keepsSessions.session x

theorem Departs.loginSem (h : Departs env client w w') : w'.store.loginSem = w.store.loginSem := by
  cases h with
  | loggedOut => exact Store.unregister_loginSem
  | loggedIn _ _ _ hlogout =>
    rw [Store.unregister_loginSem]
    exact hlogout.keepsSessions.loginSem

namespace Server

theorem Ok.keeps (h : σ.Ok) (hkeeps : σ.world.store.KeepsSessions w.store)
    (hsteady : w.store.Steady) : Ok { σ with world := w } where
  steady := hsteady
  connected := by
    intro x
    rw [hkeeps.registered]
    exact h.connected x
  sem := by
    intro x hx
    exact hkeeps.loginSem.trans (h.sem x hx)
  gate := by
    intro x c' hx hc'
    obtain ⟨c, hc, hplayer, -⟩ := hkeeps.get?_of_get? hc'
    exact hplayer.trans (h.gate x c hx hc)

theorem Ok.opened (h : σ.Ok) {gate : Int} (hgate : gate ≠ 0)
    (hconnected : σ.connections client ≠ none) (hsteady : w.store.Steady)
    (hregistry : w.store.clientRegistry = σ.world.store.clientRegistry)
    (hsem : w.store.loginSem = σ.world.store.loginSem)
    (hclients : ∀ x, x ≠ client → w.store.clients.get? x = σ.world.store.clients.get? x)
    : Ok { world := w, connections := Function.update σ.connections client (some gate) } where
  steady := hsteady
  connected := by
    intro x
    unfold Store.registered
    rw [hregistry]
    dsimp only
    rw [Function.update_apply]
    split
    . next heq =>
      subst heq
      exact iff_of_true (by simp) ((h.connected x).mp hconnected)
    . exact h.connected x
  sem := by
    intro x _
    exact hsem.trans (h.sem client hconnected)
  gate := by
    intro x c hx hc
    dsimp only at hx
    rw [Function.update_apply] at hx
    split at hx
    . rw [Option.some.injEq] at hx
      exact absurd hx hgate
    . next hne =>
      rw [hclients x hne] at hc
      exact h.gate x c hx hc

theorem Ok.served {pkt : Packet} {gate gate' : Int} (h : σ.Ok)
    (hgate : σ.connections client = some gate) (hserved : Served env σ.world client gate pkt gate' w)
    : Ok { world := w, connections := Function.update σ.connections client (some gate') } := by
  have hconnected : σ.connections client ≠ none := by simp [hgate]
  have hregistered := (h.connected client).mp hconnected
  have hsame : Function.update σ.connections client (some gate) = σ.connections := by
    rw [← hgate, Function.update_eq_self]
  cases hserved with
  | ignored =>
    rw [hsame]
    exact h
  | shut =>
    rw [hsame]
    exact h.keeps (.refl _) h.steady
  | users =>
    rw [hsame]
    exact h.keeps (.refl _) h.steady
  | unfit =>
    rw [hsame]
    exact h.keeps (.refl _) h.steady
  | invited _ _ _ hcall heffect =>
    have hsteady := h.steady.effect heffect hcall
    rw [hsame]
    exact h.keeps heffect.keepsSessions hsteady
  | @answered _ _ r _ _ _ _ _ _ _ hcall heffect =>
    have hsteady := h.steady.effect heffect hcall
    rw [hsame]
    unfold World.answered
    split
    . exact h.keeps heffect.keepsSessions hsteady
    . exact h.keeps heffect.keepsSessions hsteady
  | loginRefused =>
    exact h.opened (by decide) hconnected h.steady rfl rfl (fun _ _ => rfl)
  | @loginNoRoom _ _ w₁ _ _ _ _ _ hstore =>
    cases hstore with
    | inl heq =>
      refine h.opened (by decide) hconnected ?_ ?_ ?_ (fun _ _ => ?_)
      all_goals rw [World.nacked_store, heq]
      exact h.steady
    | inr hpush =>
      obtain ⟨p, heq⟩ := hpush
      refine h.opened (by decide) hconnected ?_ ?_ ?_ (fun _ _ => ?_)
      all_goals rw [World.nacked_store, heq]
      exact h.steady.pushPlayer p
  | @loginTaken _ name =>
    exact h.opened (by decide) hconnected (h.steady.enlist name)
      (Store.enlist_clientRegistry _ name) (Store.enlist_loginSem _ name)
      (fun _ _ => by rw [World.acked_store, World.nacked_store, World.enlisted_store,
        Store.enlist_clients])
  | @loggedIn c name _ hc _ hrefused =>
    have hout := h.steady.valid.loggedOut hc hrefused
    refine h.opened (by decide) hconnected ((h.steady.enlist name).login
      (by rwa [Store.enlist_clients]) hout ?_ (Store.Valid.playerFor_mem name)) ?_ ?_ ?_
    . unfold Store.registered
      rw [Store.enlist_clientRegistry]
      exact hregistered
    . exact Store.enlist_clientRegistry _ name
    . exact Store.enlist_loginSem _ name
    . intro x hne
      rw [World.acked_store, Store.login_clients, Heap.get?_modify_ne hne, Store.enlist_clients]

theorem Ok.connected_next (h : σ.Ok) : σ.connections σ.world.store.clients.next = none := by
  refine Classical.byContradiction fun hne => ?_
  obtain ⟨c, hc⟩ := (h.serves hne).exists_client
  simp at hc

theorem Ok.connects {fd : Int} {o : Option ClientPtr} (h : σ.Ok)
    (hconnects : Connects fd σ.world o w)
    : Ok { world := w, connections := admitted σ.connections o } := by
  cases hconnects with
  | refused => exact h
  | failed n hqueue =>
    refine ⟨h.steady.connectFailed hqueue, ?_, fun _ _ => rfl, h.gate⟩
    intro x
    have hregistered : σ.world.store.connectFailed.registered x = σ.world.store.registered x := by
      unfold Store.connectFailed Store.registered
      dsimp only
      rw [h.steady.valid.registry.members_enrol hqueue]
      simp
    rw [hregistered]
    exact h.connected x
  | connected n hqueue =>
    refine ⟨h.steady.connect hqueue fd, ?_, fun _ _ => rfl, ?_⟩
    . intro x
      rw [Store.registered_connect h.steady hqueue]
      dsimp only [admitted]
      rw [Function.update_apply]
      split
      . simp
      . simpa using h.connected x
    . intro x c hx hc
      dsimp only [admitted] at hx
      unfold Store.connect at hc
      dsimp only at hc
      rw [Heap.get?_push] at hc
      rw [Function.update_apply] at hx
      split at hc
      . rw [Option.some.injEq] at hc
        rw [← hc]
        rfl
      . next hne =>
        rw [if_neg hne] at hx
        exact h.gate x c hx hc

theorem Ok.departs (h : σ.Ok) (hconnected : σ.connections client ≠ none)
    (hdeparts : Departs env client σ.world w)
    : Ok { world := w, connections := Function.update σ.connections client none } := by
  have hregistered := (h.connected client).mp hconnected
  refine ⟨hdeparts.steady h.steady hregistered, ?_, ?_, ?_⟩
  . intro x
    rw [hdeparts.registered h.steady hregistered]
    dsimp only
    rw [Function.update_apply]
    split
    . next heq =>
      subst heq
      have := Store.registered_le_one h.steady.valid x
      simp only [ne_eq, not_true_eq_false, false_iff]
      omega
    . simpa using h.connected x
  . intro x _
    exact hdeparts.loginSem.trans (h.sem client hconnected)
  . intro x c' hx hc'
    dsimp only at hx
    rw [Function.update_apply] at hx
    split at hx
    . simp at hx
    . next hne =>
      have hsession := (hdeparts.session_ne hne).symm
      rw [hc', Option.map_some, Option.map_eq_some_iff] at hsession
      obtain ⟨c, hc, heq⟩ := hsession
      simp only [Client.session, Prod.mk.injEq] at heq
      exact heq.1.symm.trans (h.gate x c hx hc)

theorem Steps.ok (hsteps : Steps env σ e σ') (h : σ.Ok) : σ'.Ok := by
  cases hsteps with
  | idle => exact h
  | connects hconnects => exact h.connects hconnects
  | serves hgate hserved => exact h.served hgate hserved
  | departs _ hconnected hdeparts => exact h.departs hconnected hdeparts
  | calls _ hcall heffect =>
    exact h.keeps heffect.keepsSessions (h.steady.effect heffect hcall)

theorem exec_of_step (h : (machine env).step σ e = some σ') : exec env σ e = .ok σ' :=
  Except.eq_ok_of_toOption h

/--
The invariant holds in every state the server can reach, whatever fails on the way.
-/
theorem ok_of_reach {guard : Server → Event → Prop} {σ₀ : Server} (h₀ : σ₀.Ok)
    (h : (machine env).Reach guard σ₀ σ) : σ.Ok :=
  h.invariant _ h₀ fun _ _ _ hok _ hstep => (hok.steps (exec_of_step hstep)).ok hok

/--
Every step of a run is one of the steps described, from a state in which the invariant holds.
-/
theorem steps_of_step (h : σ.Ok) (hstep : (machine env).step σ e = some σ') : Steps env σ e σ' :=
  h.steps (exec_of_step hstep)

end Server

end Jeux
