import Jeux.Concurrent.Handlers
import Jeux.Service.Served

/-!
A service thread that nobody comes in between: its steps add up to one round of the loop of
`jeux_client_service`.
-/

namespace Jeux

open ServerM

namespace Thread

variable {env : Env} {w : World} {extra : ClientPtr → Nat} {client : ClientPtr} {c : Client}
  {gate : Int} {pkt : Packet} {t' : Option Thread}

theorem steps_ready (n : Nat)
    : (steps client n (some ⟨gate, .respond []⟩)).run env w = .ok (some ⟨gate, .respond []⟩, w) := by
  induction n with
  | zero => rfl
  | succ n ih => exact bind_ok rfl ih

theorem steps_send (n : Nat) (response : Response)
    : (steps client (n + 1) (some ⟨gate, .respond [response]⟩)).run env w
        =
      match (response.send client).run env w with
      | .ok (_, w') => .ok (some ⟨gate, .respond []⟩, w')
      | .error f => .error f := by
  simp only [steps, step, run_bind]
  cases (response.send client).run env w with
  | ok p => exact steps_ready n
  | error f => rfl

theorem steps_succ (n : Nat) (t : Thread)
    : steps client (n + 1) (some t) = t.step client >>= steps client n := rfl

theorem steps_operation (n : Nat) (op : Operation)
    : (steps client (n + 2) (some ⟨gate, .operation op⟩)).run env w
        =
      match (op.perform client).run env w with
      | .ok ((result, data), w') =>
        match ((if result = -1 then Response.nack else .ack data).send client).run env w' with
        | .ok (_, w'') => .ok (some ⟨gate, .respond []⟩, w'')
        | .error f => .error f
      | .error f => .error f := by
  rw [steps_succ, run_bind]
  simp only [step, run_bind]
  cases (op.perform client).run env w with
  | error f => rfl
  | ok p =>
    dsimp only
    by_cases hr : p.1.1 = -1
    . simp only [hr, ↓reduceIte, run_pure]
      exact steps_send n .nack
    . simp only [hr, ↓reduceIte, run_pure]
      exact steps_send n (.ack p.1.2)

def Handles (client : ClientPtr) (phase : Phase) (handler : ServerM Int) : Prop :=
  ∀ env w gate, (steps client 4 (some ⟨gate, phase⟩)).run env w
      =
    (handler.run env w).map fun p => (some ⟨gate, .respond []⟩, p.2)

theorem handles_operation {op : Operation} {handler : ServerM Int}
    (h : ∀ env w, handler.run env w
        =
      match (op.perform client).run env w with
      | .ok ((result, data), w') =>
        match ((if result = -1 then Response.nack else .ack data).send client).run env w' with
        | .ok (_, w'') => .ok (if result = -1 then -1 else 0, w'')
        | .error f => .error f
      | .error f => .error f)
    : Handles client (.operation op) handler := by
  intro env w gate
  rw [steps_operation, h]
  cases (op.perform client).run env w with
  | error f => rfl
  | ok p =>
    dsimp only
    cases ((if p.1.1 = -1 then Response.nack else .ack p.1.2).send client).run env p.2 with
    | error f => rfl
    | ok q => rfl

theorem handles_byId {op : Operation} {hdr : PacketHeader}
    {operation : ClientPtr → Int → ServerM Int}
    (hop : op.perform client = do return (← operation client hdr.id.toNat, none))
    : Handles client (.operation op) (processById none client hdr operation) := by
  apply handles_operation
  intro env w
  simp only [processById, ne_eq, not_true_eq_false, ↓reduceIte, run_bind, hop]
  cases (operation client hdr.id.toNat).run env w with
  | error f => rfl
  | ok p =>
    simp only [run_pure, run_ite]
    split
    . simp only [run_bind, Response.send]
      cases (clientSendNack client).run env p.2 <;> rfl
    . simp only [run_bind, Response.send, Option.getD_none, List.length_nil]
      cases (clientSendAck client none 0).run env p.2 <;> rfl

theorem handles_accept (hdr : PacketHeader)
    : Handles client (.operation (.accept hdr.id.toNat)) (processAccept none client hdr) := by
  apply handles_operation
  intro env w
  simp only [processAccept, ne_eq, not_true_eq_false, ↓reduceIte, run_bind, Operation.perform]
  cases (clientAcceptInvitation client hdr.id.toNat).run env w with
  | error f => rfl
  | ok p =>
    simp only [run_ite]
    split
    . simp only [run_bind, Response.send]
      cases (clientSendNack client).run env p.2 <;> rfl
    . simp only [run_bind, Response.send]
      cases (clientSendAck client p.1.2 (p.1.2.getD []).length).run env p.2 <;> rfl

theorem handles_move (hdr : PacketHeader) (move : CString)
    : Handles client (.operation (.move hdr.id.toNat move)) (processMove (some move) client hdr) := by
  apply handles_operation
  intro env w
  simp only [processMove, run_bind, Operation.perform, Operation.call]
  cases (clientMakeMove client hdr.id.toNat move).run env w with
  | error f => rfl
  | ok p =>
    simp only [run_pure, run_ite]
    split
    . simp only [run_bind, Response.send]
      cases (clientSendNack client).run env p.2 <;> rfl
    . simp only [run_bind, Response.send, Option.getD_none, List.length_nil]
      cases (clientSendAck client none 0).run env p.2 <;> rfl

theorem handles_nack {handler : ServerM Int} (h : handler = do
      let _ ← clientSendNack client
      return -1)
    : Handles client (.respond [.nack]) handler := by
  intro env w gate
  rw [steps_send, h, run_bind]
  simp only [Response.send]
  cases (clientSendNack client).run env w <;> rfl

theorem handles_users : Handles client .users (processUsers none client) := by
  intro env w gate
  rw [steps_succ]
  simp only [step, processUsers, run_bind, ne_eq, not_true_eq_false, ↓reduceIte]
  cases cregAllPlayers.run env w with
  | error f => rfl
  | ok p =>
    dsimp only
    cases (usersLoop p.1).run env p.2 with
    | error f => rfl
    | ok q =>
      simp only [run_pure]
      unfold respond
      rw [steps_send]
      simp only [Response.send, Option.getD_some]
      cases (clientSendAck client (some q.1) q.1.length).run env q.2 <;> rfl

theorem steps_acknowledge (inv : Option InvitationPtr) (id : Int)
    : (steps client 1 (some ⟨gate, .acknowledge inv id⟩)).run env w
        =
      ((processInvite.inviteMade client id).run env w).map fun p =>
        (some ⟨gate, .respond []⟩, p.2) := by
  simp only [steps, step, processInvite.inviteMade, run_bind, run_newHeader, run_pure]
  cases (clientSendPacket client _ none).run env w <;> rfl

theorem steps_made (env : Env) (w : World) (gate : Int) (invitee : ClientPtr)
    (sourceRole targetRole : GameRole)
    : ((do
        let inv := (← getStore).invitations.next
        let id ← clientMakeInvitation client invitee sourceRole targetRole
        return some ⟨gate, .acknowledge (if id = -1 then none else some inv) id⟩) >>=
          steps client 1).run env w
        =
      ((clientMakeInvitation client invitee sourceRole targetRole >>=
          processInvite.inviteMade client).run env w).map fun p =>
        (some ⟨gate, .respond []⟩, p.2) := by
  simp only [run_bind, run_getStore, run_pure]
  cases (clientMakeInvitation client invitee sourceRole targetRole).run env w with
  | error f => rfl
  | ok p => exact steps_acknowledge _ p.1

theorem handles_invite (user : CString) (hdr : PacketHeader)
    : Handles client (.lookup user hdr) (processInvite (some user) client hdr) := by
  intro env w gate
  rw [steps_succ]
  simp only [step, processInvite, run_bind]
  cases (cregLookup user).run env w with
  | error f => rfl
  | ok p =>
    obtain ⟨found, w₁⟩ := p
    cases found with
    | none =>
      simp only [run_pure, respond, run_bind, steps_send, Response.send]
      cases (clientSendNack client).run env w₁ <;> rfl
    | some invitee =>
      simp only [run_pure, run_bind, steps_succ, step]
      cases (clientUnref invitee).run env w₁ with
      | error f => rfl
      | ok q =>
        dsimp only
        rw [steps_succ 1, processInvite.inviteFound]
        simp only [step]
        by_cases hself : client = invitee
        . simp only [if_pos hself, run_pure, respond, run_bind, steps_send, Response.send]
          cases (clientSendNack client).run env q.2 <;> rfl
        . rw [if_neg hself, if_neg hself]
          by_cases hfirst : hdr.role = GameRole.firstPlayerRole.toByte
          . simp only [inviteRoles?, if_pos hfirst]
            exact steps_made env q.2 gate invitee .secondPlayerRole .firstPlayerRole
          . by_cases hsecond : hdr.role = GameRole.secondPlayerRole.toByte
            . simp only [inviteRoles?, if_neg hfirst, if_pos hsecond]
              exact steps_made env q.2 gate invitee .firstPlayerRole .secondPlayerRole
            . simp only [inviteRoles?, if_neg hfirst, if_neg hsecond, respond, run_bind, run_pure,
                steps_send, Response.send]
              cases (clientSendNack client).run env q.2 <;> rfl

theorem step_login_refused (gate : Int) {payload : Option CString} (hc : w.store.clients.get? client = some c)
    (hrefused : LoginRefused c payload)
    : (step client ⟨gate, .login payload⟩).run env w = .ok (some ⟨-1, .respond [.nack]⟩, w) := by
  simp only [step, run_bind, clientGetPlayer, run_derefClient, hc, run_pure, run_ite]
  by_cases hplayer : c.player ≠ none
  . rw [if_pos hplayer]
  . rw [if_neg hplayer]
    rcases hrefused with h | h | h
    . exact absurd h hplayer
    . subst h
      rfl
    . subst h
      rfl

theorem step_login_no_room (gate : Int) {name : CString} (hv : w.store.Valid extra)
    (hc : w.store.clients.get? client = some c) (hrefused : ¬ LoginRefused c (some name))
    (havail : ¬ PlayerAvailable env w name)
    : ∃ w₁ : World, (step client ⟨gate, .login (some name)⟩).run env w
          = .ok (some ⟨-1, .respond [.nack]⟩, w₁)
        ∧ (pregRegister name).run env w = .ok (none, w₁)
        ∧ (w₁.store = w.store
          ∨ ∃ p, w₁.store = { w.store with players := w.store.players.push p })
        ∧ w₁.trace.sent = w.trace.sent := by
  obtain ⟨w₁, hrun, hstore, hsent, -⟩ := pregRegister_run_no_room hv havail
  refine ⟨w₁, ?_, hrun, hstore, hsent⟩
  unfold LoginRefused at hrefused
  simp only [not_or, not_not, Option.some.injEq, reduceCtorEq, not_false_eq_true, true_and]
    at hrefused
  simp only [step, run_bind, clientGetPlayer, run_derefClient, hc, run_pure, hrefused.1, ne_eq,
    not_true_eq_false, ↓reduceIte, List.length_eq_zero_iff, hrefused.2, hrun]

theorem step_login_enlisted (gate : Int) {name : CString} (hv : w.store.Valid extra)
    (hc : w.store.clients.get? client = some c) (hrefused : ¬ LoginRefused c (some name))
    (havail : PlayerAvailable env w name)
    : (step client ⟨gate, .login (some name)⟩).run env w
        =
      .ok (some ⟨gate, .logIn (w.store.playerFor name)⟩, {
        store := w.store.enlist name
        trace := { w.trace with allocs := w.trace.allocs + w.store.enlistAllocs name } }) := by
  obtain ⟨p, hp, href⟩ := (hv.enlist name).player _ (Store.Valid.playerFor_mem name)
  have hone : p.addRef.refCount ≠ 1 := by
    rw [Player.addRef_refCount]
    omega
  obtain ⟨w₁, hw₁⟩ : ∃ w₁ : World,
      World.mk ((w.store.enlist name).modifyPlayer (w.store.playerFor name) Player.addRef)
        { w.trace with allocs := w.trace.allocs + w.store.enlistAllocs name } = w₁ := ⟨_, rfl⟩
  have hp₁ : w₁.store.players.get? (w.store.playerFor name) = some p.addRef := by
    simp [← hw₁, hp]
  unfold LoginRefused at hrefused
  simp only [not_or, not_not, Option.some.injEq, reduceCtorEq, not_false_eq_true, true_and]
    at hrefused
  simp only [step, run_bind, clientGetPlayer, run_derefClient, hc, run_pure, hrefused.1, ne_eq,
    not_true_eq_false, ↓reduceIte, List.length_eq_zero_iff, hrefused.2, pregRegister_run hv havail,
    hw₁, playerUnref_run hp₁ hone]
  rw [← hw₁, modifyPlayer_addRef_dropRef hp]

theorem clientLogin_run_deadlock (player : PlayerPtr) (hsem : w.store.loginSem = 0)
    : (clientLogin client player).run env w = .error .deadlock := by
  simp only [clientLogin, loginSemWait, run_bind, run_getStore, if_pos hsem, run_fault]

theorem steps_login (gate : Int) (payload : Option CString) (hv : w.store.Valid extra)
    (hc : w.store.clients.get? client = some c)
    : (steps client 4 (some ⟨gate, .login payload⟩)).run env w
        =
      ((processLogin payload client).run env w).map fun p => (some ⟨p.1, .respond []⟩, p.2) := by
  rw [steps_succ]
  by_cases hrefused : LoginRefused c payload
  . apply bind_ok (step_login_refused gate hc hrefused)
    rw [steps_send, processLogin_run_refused hc hrefused]
    simp only [Response.send, clientSendNack_run hc]
    rfl
  . obtain ⟨name, rfl⟩ : ∃ name, payload = some name := by
      cases payload with
      | none => exact absurd (.inr (.inl rfl)) hrefused
      | some name => exact ⟨name, rfl⟩
    by_cases havail : PlayerAvailable env w name
    . apply bind_ok (step_login_enlisted gate hv hc hrefused havail)
      have hout : c.loggedIn = .loggedOut := by
        cases hin : c.loggedIn with
        | loggedOut => rfl
        | loggedIn => exact absurd (.inl ((hv.client client c hc).player hin)) hrefused
      have hclients : (w.store.enlist name).clients = w.store.clients := by
        unfold Store.enlist
        split <;> rfl
      have hsem : (w.store.enlist name).loginSem = w.store.loginSem := by
        unfold Store.enlist
        split <;> rfl
      obtain ⟨p, hp, hname⟩ := hv.playerFor_name name
      obtain ⟨w₁, hw₁⟩ : ∃ w₁ : World, World.mk (w.store.enlist name)
          { w.trace with allocs := w.trace.allocs + w.store.enlistAllocs name } = w₁ := ⟨_, rfl⟩
      have hc₁ : w₁.store.clients.get? client = some c := by
        rw [← hw₁]
        exact hclients ▸ hc
      rw [hw₁, steps_succ]
      simp only [step, run_bind]
      by_cases hzero : w.store.loginSem = 0
      . have hsem₁ : w₁.store.loginSem = 0 := by
          rw [← hw₁]
          exact hsem.trans hzero
        have hsem₂ : (World.mk ((w.store.enlist name).modifyPlayer (w.store.playerFor name)
            Player.addRef) w₁.trace).store.loginSem = 0 := hsem.trans hzero
        unfold LoginRefused at hrefused
        simp only [not_or, not_not, Option.some.injEq, reduceCtorEq, not_false_eq_true, true_and]
          at hrefused
        rw [← hw₁] at hsem₂
        rw [clientLogin_run_deadlock _ hsem₁]
        simp only [processLogin, run_bind, clientGetPlayer, run_derefClient, hc, run_pure,
          hrefused.1, ne_eq, not_true_eq_false, ↓reduceIte, List.length_eq_zero_iff, hrefused.2,
          pregRegister_run hv havail, clientLogin_run_deadlock _ hsem₂]
        rfl
      . rw [clientLogin_run (by rw [← hw₁]; exact (hv.enlist name).slotsLive) hc₁ hout
          (by rw [← hw₁]; exact hp) (by rw [← hw₁]; exact hsem ▸ hzero),
          processLogin_run hv hc hout hrefused havail hzero]
        have hlookup : w₁.store.lookup p.name = w.store.lookup name := by
          rw [← hw₁, hname, hv.lookup_enlist]
        have hallocs : w₁.trace.allocs = w.trace.allocs + w.store.enlistAllocs name := by
          rw [← hw₁]
        rw [hlookup, hallocs]
        cases env.allocOk (w.trace.allocs + w.store.enlistAllocs name) with
        | false => rfl
        | true =>
          by_cases htaken : (w.store.lookup name).isSome = true
          . obtain ⟨w₂, hw₂⟩ : ∃ w₂ : World, World.mk w₁.store { w₁.trace with
                allocs := w.trace.allocs + w.store.enlistAllocs name + 1 } = w₂ := ⟨_, rfl⟩
            have hc₂ : w₂.store.clients.get? client = some c := hw₂ ▸ hc₁
            obtain ⟨r, hack⟩ := clientSendAck_run (w := w₂.nacked env client) env none hc₂
            simp only [Option.getD_none, List.length_nil] at hack
            simp only [htaken, ↓reduceIte, hw₂, run_pure, steps_succ 1, step, run_bind,
              Response.send, clientSendNack_run hc₂, respond, steps_send, Option.getD_none,
              List.length_nil, hack]
            subst hw₂ hw₁
            rfl
          . obtain ⟨w₂, hw₂⟩ : ∃ w₂ : World, World.mk (w₁.store.login client
                (w.store.playerFor name)) { w₁.trace with
                allocs := w.trace.allocs + w.store.enlistAllocs name + 1 } = w₂ := ⟨_, rfl⟩
            have hc₂ : w₂.store.clients.get? client
                = some { c with player := some (w.store.playerFor name), loggedIn := .loggedIn } := by
              rw [← hw₂]
              simp [hc₁]
            obtain ⟨r, hack⟩ := clientSendAck_run env none hc₂
            simp only [Option.getD_none, List.length_nil] at hack
            simp only [htaken, ↓reduceIte, Bool.false_eq_true, hw₂, run_pure,
              (by decide : ¬ (0 : Int) = -1), steps_send, Response.send, Option.getD_none,
              List.length_nil, hack]
            subst hw₂ hw₁
            rfl
    . obtain ⟨w₁, hstep, hpreg, hstore, -⟩ := step_login_no_room gate hv hc hrefused havail
      apply bind_ok hstep
      have hc₁ : w₁.store.clients.get? client = some c := by
        rcases hstore with h | ⟨p, h⟩
        . rw [h]
          exact hc
        . rw [h]
          exact hc
      unfold LoginRefused at hrefused
      simp only [not_or, not_not, Option.some.injEq, reduceCtorEq, not_false_eq_true, true_and]
        at hrefused
      rw [steps_send]
      simp only [Response.send, clientSendNack_run hc₁, processLogin, run_bind, clientGetPlayer,
        run_derefClient, hc, run_pure, hrefused.1, ne_eq, not_true_eq_false, ↓reduceIte,
        List.length_eq_zero_iff, hrefused.2, hpreg]
      rfl

theorem handles_request (client : ClientPtr) {type : PacketType} {phase : Phase}
    (h : Phase.request? type pkt = some phase)
    : ∃ handler, requestHandler? type client pkt = some handler ∧ Handles client phase handler := by
  unfold Phase.request? at h
  unfold requestHandler?
  split at h
  . obtain rfl := Option.some.inj h
    exact ⟨_, rfl, handles_users⟩
  . cases htext : pkt.text with
    | none =>
      rw [htext] at h
      obtain rfl := Option.some.inj h
      exact ⟨_, rfl, handles_nack rfl⟩
    | some user =>
      rw [htext] at h
      obtain rfl := Option.some.inj h
      exact ⟨_, rfl, handles_invite user pkt.hdr⟩
  . obtain rfl := Option.some.inj h
    exact ⟨_, rfl, handles_byId rfl⟩
  . obtain rfl := Option.some.inj h
    exact ⟨_, rfl, handles_accept pkt.hdr⟩
  . obtain rfl := Option.some.inj h
    exact ⟨_, rfl, handles_byId rfl⟩
  . cases htext : pkt.text with
    | none =>
      rw [htext] at h
      obtain rfl := Option.some.inj h
      exact ⟨_, rfl, handles_nack rfl⟩
    | some move =>
      rw [htext] at h
      obtain rfl := Option.some.inj h
      exact ⟨_, rfl, handles_move pkt.hdr move⟩
  . obtain rfl := Option.some.inj h
    exact ⟨_, rfl, handles_byId rfl⟩
  . simp at h

theorem request?_eq_none {type : PacketType} (h : Phase.request? type pkt = none)
    : requestHandler? type client pkt = none := by
  unfold Phase.request? at h
  unfold requestHandler?
  split at h
  . simp at h
  . split at h <;> simp at h
  . simp at h
  . simp at h
  . simp at h
  . split at h <;> simp at h
  . simp at h
  . cases type <;> trivial

theorem received_eq {type : PacketType} (gate : Int)
    (htype : PacketType.ofByte? pkt.hdr.type = some type) (hlogin : type ≠ .login) (hno : type ≠ .no)
    : Phase.received gate pkt
        =
      match Phase.request? type pkt with
      | some phase => if gate = 0 then .respond [.nack] else phase
      | none => .respond [] := by
  unfold Phase.received
  rw [htype]
  cases type <;> trivial

/--
A thread left alone with a packet does what the loop of `jeux_client_service` does with it.
-/
theorem steps_received (gate : Int) (hv : w.store.Valid extra)
    (hc : w.store.clients.get? client = some c)
    (htype : PacketType.ofByte? pkt.hdr.type ≠ some .no)
    : (steps client 4 (some ⟨gate, .received gate pkt⟩)).run env w
        =
      ((servicePacket client gate pkt).run env w).map fun p =>
        (some ⟨p.1.1, .respond []⟩, p.2) := by
  cases hkind : PacketType.ofByte? pkt.hdr.type with
  | none =>
    simp only [Phase.received, servicePacket, hkind]
    exact steps_ready 4
  | some type =>
    by_cases hlogin : type = .login
    . subst hlogin
      simp only [Phase.received, servicePacket, hkind, steps_login gate pkt.text hv hc, run_bind]
      cases (processLogin pkt.text client).run env w <;> rfl
    . have hno : type ≠ .no := fun heq => htype (heq ▸ hkind)
      rw [servicePacket_eq gate hkind hlogin hno, received_eq gate hkind hlogin hno]
      cases hphase : Phase.request? type pkt with
      | none =>
        rw [request?_eq_none hphase]
        exact steps_ready 4
      | some phase =>
        obtain ⟨handler, hhandler, hhandles⟩ := handles_request client hphase
        simp only [hhandler]
        by_cases hgate : gate = 0
        . simp only [if_pos hgate, steps_send, Response.send, run_bind]
          cases (clientSendNack client).run env w <;> rfl
        . simp only [if_neg hgate, hhandles env w gate, run_bind]
          cases handler.run env w <;> rfl

theorem steps_received_no (gate : Int) (htype : PacketType.ofByte? pkt.hdr.type = some .no)
    : (steps client 1 (some ⟨gate, .received gate pkt⟩)).run env w
        =
      ((servicePacket client gate pkt).run env w).map fun p =>
        (some ⟨p.1.1, .unregister⟩, p.2) := by
  simp only [servicePacket, Phase.received, htype, steps, step, run_bind, run_pure]
  cases (clientLogout client).run env w <;> rfl

end Thread

end Jeux
