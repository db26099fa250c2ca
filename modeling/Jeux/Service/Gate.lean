import Jeux.Service.Invariant

/-!
The gate of `jeux_client_service`. A request is let through to its handler once the local variable
`process_login_packet` is not zero, and that is whatever `process_login` last returned.
-/

namespace Jeux

open ServerM

variable {env : Env} {w w' : World} {s s' : Store} {client : ClientPtr} {σ σ' : Server} {e : Event}
  {pkt : Packet} {gate gate' : Int}

def Store.InSession (s : Store) (client : ClientPtr) : Prop :=
  ∃ c, s.clients.get? client = some c ∧ c.loggedIn = .loggedIn ∧ c.player ≠ none

def LoginSucceeds (env : Env) (w : World) : Option CString → Prop
  | some name => name ≠ [] ∧ PlayerAvailable env w name ∧ w.store.lookup name = none
  | none => False

instance (env : Env) (w : World) (payload : Option CString)
    : Decidable (LoginSucceeds env w payload) := by
  unfold LoginSucceeds
  split <;> infer_instance

/--
No LOGIN of the client fails while it has no player.
-/
def LoginsSucceed (env : Env) (client : ClientPtr) (σ : Server) : Event → Prop
  | .packet x pkt => x = client → σ.connections client ≠ none →
    PacketType.ofByte? pkt.hdr.type = some .login → σ.world.store.playerOf client = none →
    LoginSucceeds env σ.world pkt.text
  | _ => True

instance (env : Env) (client : ClientPtr) (σ : Server) (e : Event)
    : Decidable (LoginsSucceed env client σ e) := by
  unfold LoginsSucceed
  split <;> infer_instance

/--
The handlers, `client_make_invitation` among what they call, are reached only in a session. Any other
request is answered with NACK, and that is all.
-/
structure Gated (env : Env) (client : ClientPtr) (σ : Server) : Prop where
  dispatched : ∀ gate, σ.connections client = some gate → gate ≠ 0 →
    σ.world.store.InSession client
  refused : ∀ gate pkt type, σ.connections client = some gate →
    PacketType.ofByte? pkt.hdr.type = some type → type.IsRequest →
    ¬ σ.world.store.InSession client →
    (servicePacket client gate pkt).run env σ.world
      = .ok ((gate, true), σ.world.nacked env client)
  invites : ∀ gate pkt target sourceRole targetRole, σ.connections client = some gate → gate ≠ 0 →
    requestOp? σ.world.store client pkt = some (.make target sourceRole targetRole) →
    σ.world.store.playerOf client ≠ none

/-! ## Sessions of others -/

theorem Store.inSession_iff : s.InSession client
    ↔ ∃ player, (s.clients.get? client).map Client.session = some (some player, .loggedIn) := by
  unfold InSession Client.session
  constructor
  . rintro ⟨c, hc, hin, hplayer⟩
    obtain ⟨player, hplayer⟩ := Option.ne_none_iff_exists'.mp hplayer
    exact ⟨player, by rw [hc, Option.map_some, hplayer, hin]⟩
  . rintro ⟨player, hsession⟩
    obtain ⟨c, hc, heq⟩ := Option.map_eq_some_iff.mp hsession
    rw [Prod.mk.injEq] at heq
    exact ⟨c, hc, heq.2, by simp [heq.1]⟩

theorem Store.InSession.congr (h : s.InSession client)
    (hsession : (s'.clients.get? client).map Client.session
      = (s.clients.get? client).map Client.session) : s'.InSession client := by
  rw [inSession_iff] at h ⊢
  rwa [hsession]

theorem Served.session_ne (h : Served env w client gate pkt gate' w') {x : ClientPtr}
    (hne : x ≠ client)
    : (w'.store.clients.get? x).map Client.session = (w.store.clients.get? x).map Client.session := by
  cases h with
  | ignored => rfl
  | shut => rfl
  | users => rfl
  | unfit => rfl
  | invited _ _ _ _ heffect => exact heffect.keepsSessions.session x
  | answered _ _ _ _ _ _ heffect =>
    unfold World.answered
    split
    . exact heffect.keepsSessions.session x
    . exact heffect.keepsSessions.session x
  | loginRefused => rfl
  | loginNoRoom _ _ _ _ _ hstore =>
    rcases hstore with heq | ⟨p, heq⟩
    . rw [World.nacked_store, heq]
    . rw [World.nacked_store, heq]
  | loginTaken =>
    rw [World.acked_store, World.nacked_store, World.enlisted_store, Store.enlist_clients]
  | loggedIn =>
    rw [World.acked_store, Store.login_clients, Heap.get?_modify_ne hne, Store.enlist_clients]

/-! ## The gate -/

namespace Server

def OpenInSession (client : ClientPtr) (σ : Server) : Prop :=
  ∀ gate, σ.connections client = some gate → gate ≠ 0 → σ.world.store.InSession client

theorem OpenInSession.served (h : OpenInSession client σ) (hok : σ.Ok) {w : World}
    (hgate : σ.connections client = some gate)
    (hlogins : PacketType.ofByte? pkt.hdr.type = some .login →
      σ.world.store.playerOf client = none → LoginSucceeds env σ.world pkt.text)
    (hserved : Served env σ.world client gate pkt gate' w) (hopen : gate' ≠ 0)
    : w.store.InSession client := by
  have hregistered := (hok.connected client).mp (by simp [hgate])
  cases hserved with
  | ignored => exact h gate hgate hopen
  | shut _ _ hshut => exact absurd hshut hopen
  | users => exact h gate hgate hopen
  | unfit => exact h gate hgate hopen
  | invited _ _ _ _ heffect =>
    exact (h gate hgate hopen).congr (heffect.keepsSessions.session client)
  | answered _ _ _ _ _ _ heffect =>
    have hsession := (h gate hgate hopen).congr (heffect.keepsSessions.session client)
    unfold World.answered
    split
    . exact hsession
    . exact hsession
  | @loginRefused c htype hc hrefused =>
    -- the client must be logged in already, for otherwise the login would not be refused
    have hplayer : c.player ≠ none := by
      intro hnone
      have hsucceeds := hlogins htype (by simp [Store.playerOf, hc, hnone])
      rcases hrefused with hplayer | htext | htext
      . exact hplayer hnone
      . simp [htext, LoginSucceeds] at hsucceeds
      . simp [htext, LoginSucceeds] at hsucceeds
    exact ⟨c, hc, hok.steady.session client c hregistered hc hplayer, hplayer⟩
  | @loginNoRoom c name w₁ htype hc htext hrefused havail =>
    have hnone : c.player = none := by
      by_contra hplayer
      exact hrefused (.inl hplayer)
    have hsucceeds := hlogins htype (by simp [Store.playerOf, hc, hnone])
    rw [htext] at hsucceeds
    exact absurd hsucceeds.2.1 havail
  | @loginTaken c name htype hc htext hrefused havail htaken =>
    have hnone : c.player = none := by
      by_contra hplayer
      exact hrefused (.inl hplayer)
    have hsucceeds := hlogins htype (by simp [Store.playerOf, hc, hnone])
    rw [htext] at hsucceeds
    exact absurd hsucceeds.2.2 htaken
  | @loggedIn c name htype hc =>
    refine ⟨{ c with player := some (σ.world.store.playerFor name), loggedIn := .loggedIn }, ?_, rfl,
      by simp⟩
    rw [World.acked_store, Store.login_clients, Heap.get?_modify_self, Store.enlist_clients, hc,
      Option.map_some]

theorem OpenInSession.step (h : OpenInSession client σ) (hok : σ.Ok)
    (hguard : LoginsSucceed env client σ e) (hsteps : Steps env σ e σ')
    : OpenInSession client σ' := by
  cases hsteps with
  | idle => exact h
  | connects hconnects =>
    cases hconnects with
    | refused => exact h
    | failed => exact h
    | connected =>
      intro gate hgate hopen
      dsimp only [admitted] at hgate
      rw [Function.update_apply] at hgate
      split at hgate
      . simp only [Option.some.injEq] at hgate
        exact absurd hgate.symm hopen
      . obtain ⟨c, hc, hsession⟩ := h gate hgate hopen
        exact ⟨c, Heap.get?_push_of_get? hc, hsession⟩
  | @serves x pkt gate₀ gate₁ w hgate₀ hserved =>
    intro gate hgate hopen
    dsimp only at hgate
    rw [Function.update_apply] at hgate
    split at hgate
    . next heq =>
      subst heq
      rw [Option.some.injEq] at hgate
      subst hgate
      exact h.served hok hgate₀ (hguard rfl (by simp [hgate₀])) hserved hopen
    . next hne => exact (h gate hgate hopen).congr (hserved.session_ne hne)
  | departs _ _ hdeparts =>
    intro gate hgate hopen
    dsimp only at hgate
    rw [Function.update_apply] at hgate
    split at hgate
    . simp at hgate
    . next hne => exact (h gate hgate hopen).congr (hdeparts.session_ne hne)
  | calls _ _ heffect =>
    intro gate hgate hopen
    exact (h gate hgate hopen).congr (heffect.keepsSessions.session client)

theorem openInSession_of_reach
    (h : (machine env).Reach (LoginsSucceed env client) initialServer σ)
    : σ.Ok ∧ OpenInSession client σ := by
  apply h.invariant (fun σ => σ.Ok ∧ OpenInSession client σ)
  . exact ⟨initial_ok, fun gate hgate => by simp [initialServer] at hgate⟩
  . rintro σ e σ' ⟨hok, hopen⟩ hguard hstep
    have hsteps := steps_of_step hok hstep
    exact ⟨hsteps.ok hok, hopen.step hok hguard hsteps⟩

end Server

theorem servicePacket_run_shut {c : Client} {type : PacketType}
    (hc : w.store.clients.get? client = some c)
    (htype : PacketType.ofByte? pkt.hdr.type = some type) (hrequest : type.IsRequest)
    : (servicePacket client 0 pkt).run env w = .ok ((0, true), w.nacked env client) := by
  obtain ⟨handler, -, heq⟩ := servicePacket_request client 0 htype hrequest
  rw [heq, if_pos rfl]
  simp only [run_bind, clientSendNack_run hc, run_pure]

theorem requests_gated (h : (Server.machine env).Reach (LoginsSucceed env client) initialServer σ)
    : Gated env client σ := by
  obtain ⟨hok, hopen⟩ := Server.openInSession_of_reach h
  refine ⟨hopen, ?_, ?_⟩
  . intro gate pkt type hgate htype hrequest hnot
    have hconnected : σ.connections client ≠ none := by simp [hgate]
    obtain ⟨c, hc⟩ := (hok.serves hconnected).exists_client
    have hshut : gate = 0 := by
      by_contra hne
      exact hnot (hopen gate hgate hne)
    rw [hshut]
    exact servicePacket_run_shut hc htype hrequest
  . intro gate pkt target sourceRole targetRole hgate hne _
    obtain ⟨c, hc, -, hplayer⟩ := hopen gate hgate hne
    simpa [Store.playerOf, hc] using hplayer

theorem requests_gated_of_twoPlayers
    : ∃ σ, (Server.machine calmEnv).Reach (LoginsSucceed calmEnv 0) initialServer σ
      ∧ σ.connections 0 = some 1 ∧ Gated calmEnv 0 σ := by
  obtain ⟨σ, hreach, hgate⟩ := Machine.Reach.of_any_run (Server.machine calmEnv)
    (LoginsSucceed calmEnv 0) initialServer twoPlayers (fun σ => decide (σ.connections 0 = some 1))
    (by decide +kernel)
  exact ⟨σ, hreach, of_decide_eq_true hgate, requests_gated hreach⟩

/--
A LOGIN without a name is answered with NACK, and opens the gate. USERS is answered then, and an
INVITE leads `client_make_invitation` to use a player that is not there.
-/
theorem not_requests_gated
    : ∃ σ, (Server.machine calmEnv).Reach (fun _ _ => True) initialServer σ
      ∧ ¬ Gated calmEnv 0 σ := by
  obtain ⟨σ, hreach, hcheck⟩ := Machine.Reach.of_any_run (Server.machine calmEnv)
    (fun _ _ => True) initialServer
    [.connect 4, .connect 5, .packet 1 (request .login 0 .nullRole [66] fits_B),
      .packet 0 (request .login 0 .nullRole [] fits_nil)]
    (fun σ => decide (σ.connections 0 = some (-1)
      ∧ requestOp? σ.world.store 0 (request .invite 0 .firstPlayerRole [66] fits_B)
          = some (.make 1 .secondPlayerRole .firstPlayerRole)
      ∧ σ.world.store.playerOf 0 = none))
    (by decide +kernel)
  obtain ⟨hgate, hop, hplayer⟩ := of_decide_eq_true hcheck
  exact ⟨σ, hreach, fun hgated =>
    hgated.invites _ _ _ _ _ hgate (by decide) hop hplayer⟩

end Jeux
