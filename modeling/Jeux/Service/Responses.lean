import Jeux.Lemmas.News
import Jeux.Service.Failures
import Jeux.Service.Usernames
import Jeux.Service.UsersList

/-!
The synchronous responses: what a client is told when its request has been handled, and whether that
is what has become of the request.
-/

namespace Jeux

open ServerM

def IsResponse (type : Byte) : Prop :=
  type = PacketType.ack.toByte ∨ type = PacketType.nack.toByte

instance (type : Byte) : Decidable (IsResponse type) := inferInstanceAs (Decidable (_ ∨ _))

def World.responses (w w' : World) (client : ClientPtr) : List SentPacket :=
  (w.sentSince w').filter fun sent => sent.receiver = client ∧ IsResponse sent.hdr.type

section

variable (env : Env) (w w' : World) (client : ClientPtr)

def LoggedInAs (s : Store) (pkt : Packet) : Prop :=
  s.isLoggedIn client = true ∧ ∃ name, pkt.text = some name ∧ s.nameOf client = some name

/--
What a request asks for has been done: LOGIN asks for a session, USERS for the list of the players,
and everything else for something to change in the game service.
-/
def TookEffect (pkt : Packet) (response : SentPacket) : Prop :=
  match PacketType.ofByte? pkt.hdr.type with
  | some .login => LoggedInAs client w'.store pkt
  | some .users => response.data = some (listing w.store.loggedInPairs)
  | _ => ¬ w.store.SameService w'.store

/--
There is one response, and it is an ACK if the request has been carried out, and otherwise a NACK.
-/
def Responds (pkt : Packet) : Prop :=
  ∃ response, w.responses w' client = [response]
    ∧ (response.hdr.type = PacketType.ack.toByte ↔ TookEffect w w' client pkt response)

/--
The operation comes back. An invitation is not made without the name of the source or room for both
ids, and a game is not ended while its opponent is held by nothing but the invitation.
-/
def Operation.Survives : Operation → Prop
  | .make target _ _ => env.allocOk w.trace.allocs = true → ∃ cs ct,
      w.store.clients.get? client = some cs ∧ w.store.clients.get? target = some ct
        ∧ cs.player ≠ none ∧ makeStuck env w cs ct = false
  | .move id text => env.allocOk w.trace.allocs = true → ∀ inv i game g move co,
      w.store.Move client id text inv i game g move → EndsGame env w g move →
      w.store.clients.get? (i.opponentOf client) = some co → co.refCount ≠ 1
  | _ => True

/--
The handler comes back. LOGIN and USERS do not without room for the array of `creg_all_players`, and
USERS not with a line that does not fit into its buffer.
-/
def Packet.Survives (gate : Int) (pkt : Packet) : Prop :=
  match PacketType.ofByte? pkt.hdr.type with
  | some .login => ∀ c name, w.store.clients.get? client = some c → pkt.text = some name →
      ¬ LoginRefused c (some name) → PlayerAvailable env w name →
      env.allocOk (w.trace.allocs + w.store.enlistAllocs name) = true
  | some .users => gate ≠ 0 → env.allocOk w.trace.allocs = true
      ∧ linesFit w.store.players w.store.onlinePlayers = true
  | _ => gate ≠ 0 → ∀ op, requestOp? w.store client pkt = some op → op.Survives env w client

def Operation.Misreported : Operation → Prop
  | .make _ _ _ => env.allocOk w.trace.allocs = false
  | op => op.Leaks env w client

/--
The response is wrong: `process_login` says NACK and ACK about a name that is in use, and NACK to a
client that is logged in under its name already.
-/
def Packet.Misreported (gate : Int) (pkt : Packet) : Prop :=
  match PacketType.ofByte? pkt.hdr.type with
  | some .login => LoggedInAs client w.store pkt
      ∨ ∃ c name, w.store.clients.get? client = some c ∧ pkt.text = some name
        ∧ ¬ LoginRefused c (some name) ∧ PlayerAvailable env w name ∧ w.store.lookup name ≠ none
  | some .users => False
  | _ => gate ≠ 0 ∧ ∃ op, requestOp? w.store client pkt = some op ∧ op.Misreported env w client

end

variable {env : Env} {w w' : World} {client : ClientPtr} {c : Client} {gate gate' : Int}
  {pkt : Packet} {σ : Server} {op : Operation} {r : Int} {type : PacketType} {sent : SentPacket}

/-! ## Operations that come back -/

theorem Operation.survives_iff (env : Env) (op : Operation)
    (hserves : w.store.Serves (fun _ => 0) client) (hcall : w.store.Callable client op)
    : (∃ r w', (op.call client).run env w = .ok (r, w')) ↔ op.Survives env w client := by
  have hv := hserves.valid
  have hs := hserves.settled
  have hheld := hserves.holds.held
  have hsettled : ∀ {id : Int}, Outcome env w client op id ((op.call client).run env w) →
      (∀ text, op ≠ .move id text) → ∃ r w', (op.call client).run env w = .ok (r, w') := by
    intro id houtcome hne
    obtain ⟨r, w', hrun, -⟩ := houtcome.settled hv hs hne
    exact ⟨r, w', hrun⟩
  cases op with
  | make target sourceRole targetRole =>
    obtain ⟨hne, ⟨ct, hct, -⟩, -⟩ := hcall.invited target sourceRole targetRole rfl
    obtain ⟨cs, hcs⟩ := hv.held_live client hheld
    unfold Operation.call Operation.Survives
    cases halloc : env.allocOk w.trace.allocs with
    | false =>
      rw [clientMakeInvitation_run_no_room hcs hct hne.symm halloc]
      simp
    | true =>
      cases hplayer : cs.player with
      | none =>
        rw [clientMakeInvitation_run_no_player hv hcs hct hne.symm hplayer halloc]
        simp [hcs, hct, hplayer]
      | some player =>
        obtain ⟨p, hp⟩ := hv.player_live hcs hplayer
        rw [clientMakeInvitation_run hv hcs hct hne.symm hplayer hp halloc]
        cases hstuck : makeStuck env w cs ct <;> simp [hcs, hct, hplayer, hstuck]
  | revoke id =>
    exact iff_of_true (hsettled (outcome_revoke env id hv hs.linked hheld) (by simp)) trivial
  | decline id =>
    exact iff_of_true (hsettled (outcome_decline env id hv hs.linked hheld) (by simp)) trivial
  | resign id =>
    exact iff_of_true (hsettled (outcome_resign env id hv hs.linked hheld) (by simp)) trivial
  | accept id =>
    obtain ⟨r, w', state, hrun, -⟩ := run_accept env id hv hheld
    refine iff_of_true ⟨r, w', ?_⟩ trivial
    rw [Operation.call, run_bind, hrun]
    rfl
  | move id text =>
    constructor
    . rintro ⟨r, w', hrun⟩ halloc inv i game g move co hmove hends hco hone
      obtain ⟨c, co', player, playero, -, hco', -, -, hrun'⟩ :=
        clientMakeMove_run_ends hv hs.linked hheld hmove hends halloc
      obtain rfl := Option.some.inj (hco.symm.trans hco')
      rw [Operation.call, hrun', if_pos hone] at hrun
      simp at hrun
    . intro hsurvives
      have hout := outcome_move env id text hv hs.linked hheld
      unfold Operation.call
      generalize (clientMakeMove client id text).run env w = x at hout
      cases hout with
      | returns => exact ⟨_, _, rfl⟩
      | orphaned horphan => exact absurd horphan (hs.not_orphan hv _)
      | stranded hop hmove hco hone hends halloc =>
        obtain ⟨-, rfl⟩ := Operation.move.inj hop
        exact absurd hone (hsurvives halloc _ _ _ _ _ _ hmove hends hco)

/-! ## Handlers that come back -/

theorem requestHandler_run_none {handler : ServerM Int} (hv : w.store.Valid fun _ => 0)
    (hc : w.store.clients.get? client = some c)
    (htype : PacketType.ofByte? pkt.hdr.type = some type) (husers : type ≠ .users)
    (hhandler : requestHandler? type client pkt = some handler)
    (hop : requestOp? w.store client pkt = none)
    : handler.run env w = .ok (-1, w.nacked env client) := by
  unfold requestOp? at hop
  simp only [htype] at hop
  cases type
  all_goals simp only [requestHandler?, reduceCtorEq, Option.some.injEq] at hhandler hop
  case users => exact absurd rfl husers
  case invite =>
    subst hhandler
    exact processInvite_run_none hv hc hop
  case move =>
    subst hhandler
    rw [Option.map_eq_none_iff.mp hop]
    exact processMove_run_none hc

theorem requestHandler_returns_iff {handler : ServerM Int} (hsteady : w.store.Steady)
    (hregistered : 0 < w.store.registered client)
    (htype : PacketType.ofByte? pkt.hdr.type = some type) (husers : type ≠ .users)
    (hhandler : requestHandler? type client pkt = some handler)
    : (∃ n w', handler.run env w = .ok (n, w'))
        ↔ ∀ op, requestOp? w.store client pkt = some op → op.Survives env w client := by
  have hserves := hsteady.serves hregistered
  obtain ⟨c, hc⟩ := hserves.exists_client
  cases hop : requestOp? w.store client pkt with
  | none =>
    rw [requestHandler_run_none hserves.valid hc htype husers hhandler hop]
    simp
  | some op =>
    have hcall := hsteady.callable hregistered hop
    simp only [Option.some.injEq, forall_eq']
    rw [← op.survives_iff env hserves hcall]
    cases hrun : (op.call client).run env w with
    | error f =>
      rw [requestHandler_run_error hserves.valid htype hhandler hop hrun]
    | ok p =>
      obtain ⟨r, w₁⟩ := p
      have hreturned := Operation.returned hserves.valid hserves.settled.linked
        (hcall.allowed hserves.valid) hrun
      obtain ⟨c₁, hc₁, -⟩ := hreturned.effect.keepsSessions.get? hc
      obtain ⟨n, data, hrun'⟩ := requestHandler_run hserves.valid htype hhandler hop hrun hc₁
      exact iff_of_true ⟨_, _, hrun'⟩ ⟨_, _, rfl⟩

theorem processLogin_returns_iff (env : Env) (pkt : Packet)
    (hserves : w.store.Serves (fun _ => 0) client)
    (hsem : w.store.loginSem ≠ 0) (hc : w.store.clients.get? client = some c)
    : (∃ n w', (processLogin pkt.text client).run env w = .ok (n, w'))
        ↔ ∀ name, pkt.text = some name → ¬ LoginRefused c (some name) →
          PlayerAvailable env w name →
          env.allocOk (w.trace.allocs + w.store.enlistAllocs name) = true := by
  by_cases hrefused : LoginRefused c pkt.text
  . rw [processLogin_run_refused hc hrefused]
    refine iff_of_true ⟨_, _, rfl⟩ ?_
    intro name htext hno
    exact absurd (htext ▸ hrefused) hno
  . cases htext : pkt.text with
    | none => exact absurd (.inr (.inl htext)) hrefused
    | some name =>
      rw [htext] at hrefused
      simp only [Option.some.injEq, forall_eq', hrefused, not_false_eq_true, true_implies]
      by_cases havail : PlayerAvailable env w name
      . have hout := hserves.valid.loggedOut hc hrefused
        rw [processLogin_run hserves.valid hc hout hrefused havail hsem]
        cases env.allocOk (w.trace.allocs + w.store.enlistAllocs name) <;> simp [havail]
      . obtain ⟨w₁, hrun, -⟩ := processLogin_run_no_room hserves.valid hc hrefused havail
        rw [hrun]
        exact iff_of_true ⟨_, _, rfl⟩ fun h => absurd h havail

theorem Packet.survives_request (htype : PacketType.ofByte? pkt.hdr.type = some type)
    (hrequest : type.IsRequest) (husers : type ≠ .users)
    : pkt.Survives env w client gate
        ↔ (gate ≠ 0 → ∀ op, requestOp? w.store client pkt = some op →
          op.Survives env w client) := by
  unfold Packet.Survives
  rw [htype]
  cases type <;> first | rfl | exact absurd hrequest (by decide) | exact absurd rfl husers

theorem servicePacket_returns_iff (hsteady : w.store.Steady)
    (hregistered : 0 < w.store.registered client) (hsem : w.store.loginSem ≠ 0)
    (htype : PacketType.ofByte? pkt.hdr.type = some type) (hasks : type = .login ∨ type.IsRequest)
    : (∃ gate' w', (servicePacket client gate pkt).run env w = .ok ((gate', true), w'))
        ↔ pkt.Survives env w client gate := by
  have hserves := hsteady.serves hregistered
  obtain ⟨c, hc⟩ := hserves.exists_client
  rcases hasks with rfl | hrequest
  . have hiff := processLogin_returns_iff env pkt hserves hsem hc
    have hlogin : (∃ gate' w', (servicePacket client gate pkt).run env w = .ok ((gate', true), w'))
        ↔ ∃ n w', (processLogin pkt.text client).run env w = .ok (n, w') := by
      rw [servicePacket, htype]
      simp only [run_bind, run_pure]
      cases (processLogin pkt.text client).run env w with
      | error f => simp
      | ok p => exact iff_of_true ⟨_, _, rfl⟩ ⟨_, _, rfl⟩
    rw [hlogin, hiff, Packet.Survives, htype]
    constructor
    . intro h c' name hc'
      exact Option.some.inj (hc.symm.trans hc') ▸ h name
    . intro h name
      exact h c name hc
  . obtain ⟨handler, hhandler, heq⟩ := servicePacket_request client gate htype hrequest
    rw [heq]
    by_cases hgate : gate = 0
    . rw [if_pos hgate]
      simp only [run_bind, clientSendNack_run hc, run_pure]
      refine iff_of_true ⟨_, _, rfl⟩ ?_
      by_cases husers : type = .users
      . subst husers
        rw [Packet.Survives, htype]
        exact fun hopen => absurd hgate hopen
      . rw [Packet.survives_request htype hrequest husers]
        exact fun hopen => absurd hgate hopen
    . have hhandled : (∃ gate' w', (do let _ ← handler; return (gate, true) : ServerM _).run env w
          = .ok ((gate', true), w')) ↔ ∃ n w', handler.run env w = .ok (n, w') := by
        simp only [run_bind, run_pure]
        cases handler.run env w with
        | error f => simp
        | ok p => exact iff_of_true ⟨_, _, rfl⟩ ⟨_, _, rfl⟩
      rw [if_neg hgate, hhandled]
      by_cases husers : type = .users
      . subst husers
        simp only [requestHandler?, Option.some.injEq] at hhandler
        subst hhandler
        rw [Packet.Survives, htype, processUsers_run env hserves.valid hc]
        cases env.allocOk w.trace.allocs <;>
          cases linesFit w.store.players w.store.onlinePlayers <;> simp [hgate]
      . rw [Packet.survives_request htype hrequest husers,
          requestHandler_returns_iff hsteady hregistered htype husers hhandler]
        exact ⟨fun h _ => h, fun h => h hgate⟩

/-! ## Which responses there are -/

theorem Effect.not_isResponse (h : Effect env w client op r w') (hsent : sent ∈ w.sentSince w')
    : ¬ IsResponse sent.hdr.type := by
  unfold World.sentSince at hsent
  cases h with
  | refused | acceptNoRoom => simp at hsent
  | made =>
    simp only [Trace.send, List.drop_left, List.mem_singleton] at hsent
    subst hsent
    exact (by decide : ¬ IsResponse PacketType.invited.toByte)
  | revokeUnsent | revoked | revokedByTarget =>
    simp only [Trace.send, List.drop_left, List.mem_singleton] at hsent
    subst hsent
    exact (by decide : ¬ IsResponse PacketType.revoked.toByte)
  | declined | declinedBySource =>
    simp only [Trace.send, List.drop_left, List.mem_singleton] at hsent
    subst hsent
    exact (by decide : ¬ IsResponse PacketType.declined.toByte)
  | accepted =>
    simp only [Trace.send, List.drop_left, List.mem_singleton] at hsent
    subst hsent
    exact (by decide : ¬ IsResponse PacketType.accepted.toByte)
  | resignUnsent | resigned =>
    simp only [World.conclude, Trace.send, List.drop_left, List.mem_singleton] at hsent
    subst hsent
    exact (by decide : ¬ IsResponse PacketType.resigned.toByte)
  | moveUnsent | moved =>
    simp only [World.moved, Trace.send, List.drop_left, List.mem_singleton] at hsent
    subst hsent
    exact (by decide : ¬ IsResponse PacketType.moved.toByte)
  | endUnsent =>
    simp only [endedOnce, World.ended, World.moved, Trace.send, List.append_assoc, List.drop_left,
      List.mem_append, List.mem_singleton] at hsent
    rcases hsent with rfl | rfl
    . exact (by decide : ¬ IsResponse PacketType.moved.toByte)
    . exact (by decide : ¬ IsResponse PacketType.ended.toByte)
  | endUnsentSelf | finished =>
    simp only [World.conclude, endedTwice, endedOnce, World.ended, World.moved, Trace.send,
      List.append_assoc, List.drop_left, List.mem_append, List.mem_singleton] at hsent
    rcases hsent with rfl | rfl | rfl
    . exact (by decide : ¬ IsResponse PacketType.moved.toByte)
    . exact (by decide : ¬ IsResponse PacketType.ended.toByte)
    . exact (by decide : ¬ IsResponse PacketType.ended.toByte)

theorem Effect.responses (h : Effect env w client op r w') (x : ClientPtr)
    : w.responses w' x = [] := by
  apply List.filter_eq_nil_iff.mpr
  intro sent hsent hresponse
  simp only [decide_eq_true_eq] at hresponse
  exact h.not_isResponse hsent hresponse.2

theorem World.responses_of_sent_eq (h : w'.trace.sent = w.trace.sent) (x : ClientPtr)
    : w.responses w' x = [] := by
  simp [responses, sentSince, h]

theorem World.responses_send {w'' : World} {hdr : PacketHeader} {data : Option CString}
    {written : Bool} (hpre : w.trace.sent <+: w'.trace.sent) (hresponse : IsResponse hdr.type)
    (hsent : w''.trace.sent = w'.trace.sent ++ [⟨client, hdr, data, written⟩])
    : w.responses w'' client = w.responses w' client ++ [⟨client, hdr, data, written⟩] := by
  have hsince : w.sentSince w'' = w.sentSince w' ++ [⟨client, hdr, data, written⟩] := by
    rw [sentSince, sentSince, hsent, List.drop_append_of_le_length hpre.length_le]
  rw [responses, responses, hsince, List.filter_append]
  simp [hresponse]

theorem World.responses_acked {w₁ : World} (env : Env) (client : ClientPtr) (id : Int)
    (data : Option CString) (hpre : w.trace.sent <+: w₁.trace.sent)
    : w.responses (w₁.acked env client id data) client
        =
      w.responses w₁ client ++ [⟨client, ackPacket env w₁ id (data.getD []).length, data,
        env.sendOk w₁.trace.sent.length⟩] :=
  responses_send hpre (.inl rfl) rfl

theorem World.responses_nacked {w₁ : World} (env : Env) (client : ClientPtr)
    (hpre : w.trace.sent <+: w₁.trace.sent)
    : w.responses (w₁.nacked env client) client
        =
      w.responses w₁ client ++ [⟨client, nackPacket env w₁, none,
        env.sendOk w₁.trace.sent.length⟩] :=
  responses_send hpre (.inr rfl) rfl

theorem responds_iff_of_responses (h : w.responses w' client = [sent])
    : Responds w w' client pkt
        ↔ (sent.hdr.type = PacketType.ack.toByte ↔ TookEffect w w' client pkt sent) := by
  unfold Responds
  rw [h]
  constructor
  . rintro ⟨response, heq, hiff⟩
    obtain rfl := List.singleton_inj.mp heq
    exact hiff
  . intro hiff
    exact ⟨sent, rfl, hiff⟩

theorem responds_acked {w₁ : World} (env : Env) (id : Int) (data : Option CString)
    (hpre : w.trace.sent <+: w₁.trace.sent) (hnone : w.responses w₁ client = [])
    : Responds w (w₁.acked env client id data) client pkt
        ↔ TookEffect w (w₁.acked env client id data) client pkt
          ⟨client, ackPacket env w₁ id (data.getD []).length, data,
            env.sendOk w₁.trace.sent.length⟩ := by
  have hresponses := World.responses_acked env client id data hpre
  rw [hnone, List.nil_append] at hresponses
  rw [responds_iff_of_responses hresponses]
  exact ⟨fun h => h.mp rfl, fun h => iff_of_true rfl h⟩

theorem responds_nacked {w₁ : World} (env : Env) (hpre : w.trace.sent <+: w₁.trace.sent)
    (hnone : w.responses w₁ client = [])
    : Responds w (w₁.nacked env client) client pkt
        ↔ ¬ TookEffect w (w₁.nacked env client) client pkt
          ⟨client, nackPacket env w₁, none, env.sendOk w₁.trace.sent.length⟩ := by
  have hresponses := World.responses_nacked env client hpre
  rw [hnone, List.nil_append] at hresponses
  rw [responds_iff_of_responses hresponses]
  have hne : (nackPacket env w₁).type ≠ PacketType.ack.toByte :=
    (by decide : PacketType.nack.toByte ≠ PacketType.ack.toByte)
  exact ⟨fun h heffect => hne (h.mpr heffect), fun h => iff_of_false hne h⟩

/-! ## Whether the response is right -/

theorem tookEffect_request (htype : PacketType.ofByte? pkt.hdr.type = some type)
    (hrequest : type.IsRequest) (husers : type ≠ .users)
    : TookEffect w w' client pkt sent ↔ ¬ w.store.SameService w'.store := by
  unfold TookEffect
  rw [htype]
  cases type <;> first | rfl | exact absurd hrequest (by decide) | exact absurd rfl husers

theorem Packet.misreported_request (htype : PacketType.ofByte? pkt.hdr.type = some type)
    (hrequest : type.IsRequest) (husers : type ≠ .users)
    : pkt.Misreported env w client gate
        ↔ gate ≠ 0 ∧ ∃ op, requestOp? w.store client pkt = some op
          ∧ op.Misreported env w client := by
  unfold Packet.Misreported
  rw [htype]
  cases type <;> first | rfl | exact absurd hrequest (by decide) | exact absurd rfl husers

theorem Operation.misreported_iff_leaks
    (hop : ∀ target sourceRole targetRole, op ≠ .make target sourceRole targetRole)
    : op.Misreported env w client ↔ op.Leaks env w client := by
  cases op with
  | make => exact absurd rfl (hop _ _ _)
  | _ => rfl

theorem Store.Steady.listed {s : Store} (h : s.Steady) : s.Listed fun _ => True where
  valid := ⟨_, h.valid⟩
  session := h.session
  names := fun _ _ => trivial

theorem Store.Valid.not_loggedInAs {s : Store} {extra : ClientPtr → Nat} (hv : s.Valid extra)
    (hc : s.clients.get? client = some c) (hrefused : ¬ LoginRefused c pkt.text)
    : ¬ LoggedInAs client s pkt := by
  rintro ⟨hin, -⟩
  simp [Store.isLoggedIn, hc, hv.loggedOut hc hrefused] at hin

theorem Store.Valid.loggedInAs_login {s : Store} {extra : ClientPtr → Nat} {name : CString}
    (hv : s.Valid extra) (hc : s.clients.get? client = some c) (htext : pkt.text = some name)
    : LoggedInAs client ((s.enlist name).login client (s.playerFor name)) pkt := by
  obtain ⟨p, hp, rfl⟩ := hv.playerFor_name name
  have hc' : ((s.enlist p.name).login client (s.playerFor p.name)).clients.get? client
      = some { c with player := some (s.playerFor p.name), loggedIn := .loggedIn } := by
    simp [Store.enlist_clients, hc]
  have hp' : ((s.enlist p.name).login client (s.playerFor p.name)).players.get?
      (s.playerFor p.name) = some p.addRef := by
    simp [hp]
  have hname := Store.nameOf_eq hc' rfl hp'
  exact ⟨(Store.isLoggedIn_eq hc').mpr rfl, p.name, htext, hname⟩

/--
When the name is in use, the NACK is followed by an ACK.
-/
theorem not_responds_twice (env : Env) (name : CString)
    : ¬ Responds w (((w.enlisted name).nacked env client).acked env client 0 none) client pkt := by
  rintro ⟨response, hresponses, -⟩
  have hfirst : w.trace.sent <+: (w.enlisted name).trace.sent := List.prefix_rfl
  have hsecond := hfirst.trans (List.prefix_append _
    [⟨client, nackPacket env (w.enlisted name), none, env.sendOk w.trace.sent.length⟩])
  rw [World.responses_acked env client 0 none hsecond,
    World.responses_nacked env client hfirst] at hresponses
  have hlength := congrArg List.length hresponses
  simp at hlength

theorem Effect.responds_answered {data : Option CString} (h : Effect env w client op r w')
    (hserves : w.store.Serves (fun _ => 0) client)
    (htype : PacketType.ofByte? pkt.hdr.type = some type) (hrequest : type.IsRequest)
    (husers : type ≠ .users)
    : Responds w (w'.answered env client r data) client pkt ↔ ¬ op.Leaks env w client := by
  have hiff := h.sameService_iff hserves
  unfold World.answered
  split
  . next hr =>
    rw [responds_nacked env h.sent_prefix (h.responses client),
      tookEffect_request htype hrequest husers, not_not, World.nacked_store, hiff]
    exact and_iff_right hr
  . next hr =>
    rw [responds_acked env 0 data h.sent_prefix (h.responses client),
      tookEffect_request htype hrequest husers, World.acked_store, hiff]
    exact iff_of_true (fun hsame => hr hsame.1) fun hleaks => hr (h.eq_of_leaks hleaks)

theorem Effect.responds_made {target : ClientPtr} {sourceRole targetRole : GameRole}
    (h : Effect env w client (.make target sourceRole targetRole) r w')
    (hserves : w.store.Serves (fun _ => 0) client)
    (htype : PacketType.ofByte? pkt.hdr.type = some .invite)
    : Responds w (w'.acked env client r none) client pkt
        ↔ env.allocOk w.trace.allocs = true := by
  rw [responds_acked env r none h.sent_prefix (h.responses client),
    tookEffect_request htype (by decide) (by decide), World.acked_store,
    h.sameService_iff hserves]
  cases h with
  | refused _ _ hno => exact iff_of_false (fun h => h ⟨rfl, id⟩) hno
  | made n halloc hcs =>
    have := (hserves.valid.client _ _ hcs).ids.nextId_spec.1
    refine iff_of_true ?_ halloc
    rintro ⟨hr, -⟩
    omega

theorem Served.responds_unless (h : Served env w client gate pkt gate' w') (hsteady : w.store.Steady)
    (hregistered : 0 < w.store.registered client)
    (htype : PacketType.ofByte? pkt.hdr.type = some type) (hasks : type = .login ∨ type.IsRequest)
    : Responds w w' client pkt ↔ ¬ pkt.Misreported env w client gate := by
  have hserves := hsteady.serves hregistered
  have hv := hsteady.valid
  have hnone : ∀ {w₁ : World}, w₁.trace.sent = w.trace.sent → w.responses w₁ client = [] :=
    fun hsent => World.responses_of_sent_eq hsent client
  cases h with
  | ignored hlogin hother =>
    rcases hasks with rfl | hrequest
    . exact absurd htype hlogin
    . exact absurd hrequest (hother _ htype)
  | shut htype' hrequest hgate =>
    obtain rfl := Option.some.inj (htype.symm.trans htype')
    rw [responds_nacked env List.prefix_rfl (hnone rfl)]
    by_cases husers : type = .users
    . subst husers
      rw [TookEffect, Packet.Misreported, htype]
      simp
    . rw [tookEffect_request htype hrequest husers,
        Packet.misreported_request htype hrequest husers]
      exact iff_of_true (not_not_intro (.refl _)) fun h => h.1 hgate
  | users htype' hgate halloc hfit =>
    rw [responds_acked env 0, TookEffect, Packet.Misreported, htype']
    . exact iff_of_true (congrArg some hsteady.listed.usersText_eq) id
    . exact List.prefix_rfl
    . exact hnone rfl
  | @unfit type' htype' hor hgate hop =>
    have hrequest : type'.IsRequest ∧ type' ≠ .users := by
      rcases hor with rfl | rfl <;> decide
    rw [responds_nacked env List.prefix_rfl (hnone rfl),
      tookEffect_request htype' hrequest.1 hrequest.2,
      Packet.misreported_request htype' hrequest.1 hrequest.2, hop]
    exact iff_of_true (not_not_intro (.refl _)) (by simp)
  | invited htype' hgate hop hcall heffect =>
    obtain ⟨target, sourceRole, targetRole, rfl⟩ := requestOp?_eq_make hop htype'
    rw [heffect.responds_made hserves htype',
      Packet.misreported_request htype' (by decide) (by decide), hop]
    simp [hgate, Operation.Misreported]
  | answered htype' hrequest hinvite hgate hop hcall heffect =>
    obtain ⟨type', htype'', -, husers⟩ := requestOp?_type hop
    obtain rfl := Option.some.inj (htype'.symm.trans htype'')
    have hmake := requestOp?_ne_make hop (by simpa [htype'] using hinvite)
    rw [heffect.responds_answered hserves htype' hrequest husers,
      Packet.misreported_request htype' hrequest husers, hop]
    simp [hgate, Operation.misreported_iff_leaks hmake]
  | @loginRefused c htype' hc hrefused =>
    rw [responds_nacked env List.prefix_rfl (hnone rfl), TookEffect, Packet.Misreported, htype']
    constructor
    . rintro hno (hin | ⟨c', name, hc', htext, hrefused', -⟩)
      . exact hno hin
      . obtain rfl := Option.some.inj (hc.symm.trans hc')
        exact hrefused' (htext ▸ hrefused)
    . intro hno hin
      exact hno (.inl hin)
  | @loginNoRoom c name w₁ htype' hc htext hrefused havail hstore hsent =>
    rw [responds_nacked env (hsent ▸ List.prefix_rfl) (hnone hsent), TookEffect, Packet.Misreported,
      htype']
    have hclients : w₁.store.clients = w.store.clients := by
      rcases hstore with heq | ⟨p, heq⟩ <;> rw [heq]
    have hout := hv.loggedOut hc hrefused
    apply iff_of_true
    . rintro ⟨hin, -⟩
      simp [Store.isLoggedIn, hclients, hc, hout] at hin
    . rintro (hin | ⟨c', name', -, htext', -, havail', -⟩)
      . exact hv.not_loggedInAs hc (htext ▸ hrefused) hin
      . obtain rfl := Option.some.inj (htext.symm.trans htext')
        exact havail havail'
  | @loginTaken c name htype' hc htext hrefused havail htaken =>
    apply iff_of_false (not_responds_twice env name)
    rw [Packet.Misreported, htype', not_not]
    exact .inr ⟨c, name, hc, htext, hrefused, havail, htaken⟩
  | @loggedIn c name htype' hc htext hrefused havail htaken =>
    rw [responds_acked env 0, TookEffect, Packet.Misreported, htype']
    . apply iff_of_true (hv.loggedInAs_login hc htext)
      rintro (hin | ⟨c', name', -, htext', -, -, htaken'⟩)
      . exact hv.not_loggedInAs hc (htext ▸ hrefused) hin
      . obtain rfl := Option.some.inj (htext.symm.trans htext')
        exact htaken' htaken
    . exact List.prefix_rfl
    . exact hnone rfl

/-! ## In every state that can be reached -/

namespace Server

theorem exec_packet_iff (hgate : σ.connections client = some gate) (P : World → Prop)
    (hgoes : ∀ gate' w', (servicePacket client gate pkt).run env σ.world ≠ .ok ((gate', false), w'))
    : (∃ σ', exec env σ (.packet client pkt) = .ok σ' ∧ P σ'.world)
        ↔ ∃ gate' w', (servicePacket client gate pkt).run env σ.world = .ok ((gate', true), w')
          ∧ P w' := by
  unfold exec
  simp only [hgate]
  cases hrun : (servicePacket client gate pkt).run env σ.world with
  | error f => simp
  | ok p =>
    obtain ⟨⟨gate', on⟩, w'⟩ := p
    cases on with
    | false => exact absurd hrun (hgoes gate' w')
    | true => simp

/--
A request is answered with the one response that is right for it, if and only if its handler comes
back and it is not one of those that are misreported.
-/
theorem responds_iff (h : Reachable env σ) (hgate : σ.connections client = some gate)
    (htype : PacketType.ofByte? pkt.hdr.type = some type) (hasks : type = .login ∨ type.IsRequest)
    : (∃ σ', exec env σ (.packet client pkt) = .ok σ' ∧ Responds σ.world σ'.world client pkt)
        ↔ pkt.Survives env σ.world client gate ∧ ¬ pkt.Misreported env σ.world client gate := by
  have hok := ok_of_reach initial_ok h
  have hconnected : σ.connections client ≠ none := by simp [hgate]
  have hregistered := (hok.connected client).mp hconnected
  have hsem : σ.world.store.loginSem ≠ 0 := by simp [hok.sem client hconnected]
  have hgoes : ∀ gate' w',
      (servicePacket client gate pkt).run env σ.world ≠ .ok ((gate', false), w') := by
    intro gate' w' hrun
    obtain ⟨hno, -⟩ := servicePacket_last hrun
    obtain rfl := Option.some.inj (htype.symm.trans hno)
    rcases hasks with hlogin | hrequest
    . simp at hlogin
    . exact absurd hrequest (by decide)
  have hright : ∀ {gate' w'},
      (servicePacket client gate pkt).run env σ.world = .ok ((gate', true), w') →
      (Responds σ.world w' client pkt ↔ ¬ pkt.Misreported env σ.world client gate) := by
    intro gate' w' hrun
    have hserved := servicePacket_served hok.steady hregistered hsem hrun
    exact hserved.responds_unless hok.steady hregistered htype hasks
  rw [exec_packet_iff hgate (Responds σ.world · client pkt) hgoes,
    ← servicePacket_returns_iff hok.steady hregistered hsem htype hasks]
  constructor
  . rintro ⟨gate', w', hrun, hresponds⟩
    exact ⟨⟨gate', w', hrun⟩, (hright hrun).mp hresponds⟩
  . rintro ⟨⟨gate', w', hrun⟩, hno⟩
    exact ⟨gate', w', hrun, (hright hrun).mpr hno⟩

def loginA : Packet := request .login 0 .nullRole [65] fits_A

/--
A client connects and logs in.
-/
theorem responds_of_login
    : ∃ σ σ', Reachable calmEnv σ ∧ exec calmEnv σ (.packet 0 loginA) = .ok σ'
        ∧ Responds σ.world σ'.world 0 loginA := by
  obtain ⟨σ, hreach, hP⟩ := Machine.Reach.of_any_run (machine calmEnv) (fun _ _ => True)
    initialServer [.connect 4]
    (fun σ => σ.connections 0 = some 0 ∧ σ.world.store.isLoggedIn 0 = false
      ∧ σ.world.store.lookup [65] = none) (by decide +kernel)
  obtain ⟨hgate, hout, hfree⟩ := of_decide_eq_true hP
  have htype : PacketType.ofByte? loginA.hdr.type = some .login := rfl
  have hmisreported : ¬ loginA.Misreported calmEnv σ.world 0 0 := by
    rintro (⟨hin, -⟩ | ⟨c, name, -, htext, -, -, htaken⟩)
    . simp [hout] at hin
    . obtain rfl := Option.some.inj (show some [65] = some name from htext)
      exact htaken hfree
  obtain ⟨σ', hrun, hresponds⟩ := (responds_iff hreach hgate htype (.inl rfl)).mpr
    ⟨fun _ _ _ _ _ _ => rfl, hmisreported⟩
  exact ⟨σ, σ', hreach, hrun, hresponds⟩

/--
A second client asks for the name of the first one.
-/
theorem not_responds
    : ¬ ∀ env σ client gate pkt type, Reachable env σ → σ.connections client = some gate →
        PacketType.ofByte? pkt.hdr.type = some type → type = .login ∨ type.IsRequest →
        ∃ σ', exec env σ (.packet client pkt) = .ok σ'
          ∧ Responds σ.world σ'.world client pkt := by
  intro h
  obtain ⟨σ, hreach, hP⟩ := Machine.Reach.of_any_run (machine calmEnv) (fun _ _ => True)
    initialServer [.connect 4, .connect 5, .packet 0 loginA]
    (fun σ => σ.connections 1 = some 0
      ∧ (exec calmEnv σ (.packet 1 loginA)).toOption.any fun σ' =>
        (σ.world.responses σ'.world 1).length = 2) (by decide +kernel)
  obtain ⟨hgate, hanswers⟩ := of_decide_eq_true hP
  obtain ⟨σ', hrun, response, hresponses, -⟩ :=
    h calmEnv σ 1 0 loginA .login hreach hgate rfl (.inl rfl)
  simp [hrun, Except.toOption, hresponses] at hanswers

end Server

end Jeux
