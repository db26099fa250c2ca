import Jeux.Concurrent.HandlersAlone

/-!
What one step of a service thread can do, in one relation. What holds of all steps is proved by going
through its cases.
-/

namespace Jeux

open ServerM

/--
What a thread remembers of what it has done before still holds. A client that it has looked up, if it
is still there, has or has had a player; and it does not call `client_make_invitation` for anything
but INVITE.
-/
def Phase.Ok (s : Store) (client : ClientPtr) : Phase → Prop
  | .logIn player => (∀ c, s.clients.get? client = some c → c.player = none)
      ∧ player ∈ s.playerRegistry.players
  | .unref invitee _ => invitee < s.clients.next
      ∧ ∀ c, s.clients.get? invitee = some c → c.player ≠ none
  | .invite invitee _ => invitee < s.clients.next
      ∧ ∀ c, s.clients.get? invitee = some c → c.player ≠ none
  | .operation op => ∀ target sourceRole targetRole, op ≠ .make target sourceRole targetRole
  | .unregister => ∀ c, s.clients.get? client = some c → c.loggedIn = .loggedOut
  | _ => True

/--
`Stepped env client w t t' w'`: a step of the thread `t` of `client` can lead to `t'` and take `w` to
`w'`.
-/
inductive Stepped (env : Env) (client : ClientPtr) (w : World)
    : Thread → Option Thread → World → Prop
  | refused {gate : Int} {payload : Option CString}
      : Stepped env client w ⟨gate, .login payload⟩ (some ⟨-1, .respond [.nack]⟩) w
  | noRoom {gate : Int} {payload : Option CString} {w' : World}
      (hstore : w'.store = w.store
        ∨ ∃ p, w'.store = { w.store with players := w.store.players.push p })
      (hsent : w'.trace.sent = w.trace.sent)
      : Stepped env client w ⟨gate, .login payload⟩ (some ⟨-1, .respond [.nack]⟩) w'
  | enlisted {gate : Int} {name : CString} {c : Client} (n : Nat)
      (hc : w.store.clients.get? client = some c) (hplayer : c.player = none)
      : Stepped env client w ⟨gate, .login (some name)⟩
          (some ⟨gate, .logIn (w.store.playerFor name)⟩) {
            store := w.store.enlist name
            trace := { w.trace with allocs := n } }
  | taken {gate : Int} {player : PlayerPtr} (n : Nat)
      : Stepped env client w ⟨gate, .logIn player⟩ (some ⟨1, .respond [.nack, .ack none]⟩)
          { w with trace.allocs := n }
  | entered {gate : Int} {player : PlayerPtr} {c : Client} (n : Nat)
      (hc : w.store.clients.get? client = some c) (hout : c.loggedIn = .loggedOut)
      (hplayer : player ∈ w.store.playerRegistry.players)
      : Stepped env client w ⟨gate, .logIn player⟩ (some ⟨1, .respond [.ack none]⟩) {
          store := w.store.login client player
          trace := { w.trace with allocs := n } }
  | listed {gate : Int} (n : Nat) (text : CString)
      : Stepped env client w ⟨gate, .users⟩ (some ⟨gate, .respond [.ack (some text)]⟩)
          { w with trace.allocs := n }
  | unfound {gate : Int} {user : CString} {hdr : PacketHeader}
      (hlookup : w.store.lookup user = none)
      : Stepped env client w ⟨gate, .lookup user hdr⟩ (some ⟨gate, .respond [.nack]⟩) w
  | found {gate : Int} {user : CString} {hdr : PacketHeader} {invitee : ClientPtr}
      (hlookup : w.store.lookup user = some invitee)
      : Stepped env client w ⟨gate, .lookup user hdr⟩ (some ⟨gate, .unref invitee hdr⟩)
          { w with store := w.store.modifyClient invitee Client.addRef }
  | unreffed {gate : Int} {invitee : ClientPtr} {hdr : PacketHeader}
      : Stepped env client w ⟨gate, .unref invitee hdr⟩ (some ⟨gate, .invite invitee hdr⟩)
          { w with store := w.store.unrefClient invitee }
  | uninvited {gate : Int} {invitee : ClientPtr} {hdr : PacketHeader}
      : Stepped env client w ⟨gate, .invite invitee hdr⟩ (some ⟨gate, .respond [.nack]⟩) w
  | invited {gate : Int} {invitee : ClientPtr} {hdr : PacketHeader}
      {sourceRole targetRole : GameRole} {r : Int} {w' : World} (hne : client ≠ invitee)
      (hroles : inviteRoles? hdr = some (sourceRole, targetRole))
      (heffect : Effect env w client (.make invitee sourceRole targetRole) r w')
      : Stepped env client w ⟨gate, .invite invitee hdr⟩
          (some ⟨gate, .acknowledge (if r = -1 then none else some w.store.invitations.next) r⟩) w'
  | acknowledged {gate : Int} {inv : Option InvitationPtr} {id : Int}
      : Stepped env client w ⟨gate, .acknowledge inv id⟩ (some ⟨gate, .respond []⟩)
          (w.acked env client id none)
  | operated {gate : Int} {op : Operation} {r : Int} {w' : World} (response : Response)
      (heffect : Effect env w client op r w')
      : Stepped env client w ⟨gate, .operation op⟩ (some ⟨gate, .respond [response]⟩) w'
  | waits {gate : Int} : Stepped env client w ⟨gate, .respond []⟩ (some ⟨gate, .respond []⟩) w
  | nacked {gate : Int} (rest : List Response)
      : Stepped env client w ⟨gate, .respond (.nack :: rest)⟩ (some ⟨gate, .respond rest⟩)
          (w.nacked env client)
  | acked {gate : Int} (data : Option CString) (rest : List Response)
      : Stepped env client w ⟨gate, .respond (.ack data :: rest)⟩ (some ⟨gate, .respond rest⟩)
          (w.acked env client 0 data)
  | loggedOut {gate : Int} {w' : World} (h : LogsOut env client w w')
      : Stepped env client w ⟨gate, .logout⟩ (some ⟨gate, .unregister⟩) w'
  | unregistered {gate : Int} {c : Client} {i : Nat}
      (hi : w.store.clientRegistry.slotOf? client = some i)
      (hc : w.store.clients.get? client = some c) (hout : c.loggedIn = .loggedOut)
      : Stepped env client w ⟨gate, .unregister⟩ none
          { w with store := w.store.unregister client i }

section

variable {env : Env} {w w' : World} {extra : ClientPtr → Nat} {client : ClientPtr} {t : Thread}
  {t' : Option Thread}

theorem clientMakeInvitation_run_dead {target : ClientPtr} {sourceRole targetRole : GameRole}
    {c : Client} {r : Int} (hc : w.store.clients.get? client = some c)
    (ht : w.store.clients.get? target = none)
    (hrun : (clientMakeInvitation client target sourceRole targetRole).run env w = .ok (r, w'))
    : Effect env w client (.make target sourceRole targetRole) r w' := by
  simp only [clientMakeInvitation, invCreate, run_bind, run_allocate, run_ite] at hrun
  cases halloc : env.allocOk w.trace.allocs with
  | false =>
    simp only [halloc, Bool.false_eq_true, ↓reduceIte, run_pure, Except.ok.injEq,
      Prod.mk.injEq] at hrun
    obtain ⟨rfl, rfl⟩ := hrun
    exact .refused _ _ (by simp [Operation.Granted, halloc])
  | true =>
    have hdead : (w.store.clients.modify client Client.addRef).get? target = none := by
      rw [Heap.get?_modify, ht, Option.map_none, ite_self]
    simp [halloc, clientRef, run_bind, hc, hdead] at hrun

theorem Operation.perform_run {op : Operation} {r : Int} {data : Option CString}
    (hrun : (op.perform client).run env w = .ok ((r, data), w'))
    : (op.call client).run env w = .ok (r, w') := by
  cases op with
  | accept id =>
    rw [Operation.perform] at hrun
    rw [Operation.call, run_bind, hrun]
    rfl
  | _ =>
    rw [Operation.perform, run_bind] at hrun
    . split at hrun
      . next hcall =>
        simp only [run_pure, Except.ok.injEq, Prod.mk.injEq] at hrun
        obtain ⟨⟨rfl, -⟩, rfl⟩ := hrun
        exact hcall
      . simp at hrun
    . simp

theorem Thread.step_users {gate : Int} (hv : w.store.Valid extra)
    : (step client ⟨gate, .users⟩).run env w
        =
      if env.allocOk w.trace.allocs then
        if linesFit w.store.players w.store.onlinePlayers then
          .ok (some ⟨gate, .respond [.ack (some (usersText w.store.players w.store.onlinePlayers))]⟩,
            { w with trace.allocs := w.trace.allocs + 1 })
        else
          .error .outOfBounds
      else
        .error .nullDereference := by
  simp only [step, run_bind, cregAllPlayers_run hv.slotsLive]
  cases env.allocOk w.trace.allocs with
  | false => rfl
  | true =>
    simp only [↓reduceIte, usersLoop_run (playersIn_live hv.slotsLive), Store.onlinePlayers]
    by_cases hfit : linesFit w.store.players (w.store.playersIn w.store.clientRegistry.slots) = true
    . simp only [hfit, ↓reduceIte]
      rfl
    . simp only [hfit, ↓reduceIte, Bool.false_eq_true]

namespace Thread

variable {gate : Int} {c : Client}

theorem stepped_login {payload : Option CString} (hv : w.store.Valid extra)
    (hc : w.store.clients.get? client = some c)
    (hrun : (step client ⟨gate, .login payload⟩).run env w = .ok (t', w'))
    : Stepped env client w ⟨gate, .login payload⟩ t' w' := by
  by_cases hrefused : LoginRefused c payload
  . rw [step_login_refused gate hc hrefused, Except.ok.injEq, Prod.mk.injEq] at hrun
    obtain ⟨rfl, rfl⟩ := hrun
    exact .refused
  . obtain ⟨name, rfl⟩ : ∃ name, payload = some name := by
      cases payload with
      | none => exact absurd (.inr (.inl rfl)) hrefused
      | some name => exact ⟨name, rfl⟩
    by_cases havail : PlayerAvailable env w name
    . rw [step_login_enlisted gate hv hc hrefused havail, Except.ok.injEq, Prod.mk.injEq] at hrun
      obtain ⟨rfl, rfl⟩ := hrun
      apply Stepped.enlisted _ hc
      exact Classical.byContradiction fun hne => hrefused (.inl hne)
    . obtain ⟨w₁, hstep, -, hstore, hsent⟩ := step_login_no_room gate hv hc hrefused havail
      rw [hstep, Except.ok.injEq, Prod.mk.injEq] at hrun
      obtain ⟨rfl, rfl⟩ := hrun
      exact .noRoom hstore hsent

theorem stepped_logIn {player : PlayerPtr} (hv : w.store.Valid extra)
    (hc : w.store.clients.get? client = some c) (hok : (Phase.logIn player).Ok w.store client)
    (hrun : (step client ⟨gate, .logIn player⟩).run env w = .ok (t', w'))
    : Stepped env client w ⟨gate, .logIn player⟩ t' w' := by
  obtain ⟨hplayer, hknown⟩ := hok
  have hout : c.loggedIn = .loggedOut := by
    cases hin : c.loggedIn with
    | loggedOut => rfl
    | loggedIn => exact absurd (hplayer c hc) ((hv.client client c hc).player hin)
  obtain ⟨p, hp, -⟩ := hv.player player hknown
  simp only [step, run_bind] at hrun
  by_cases hsem : w.store.loginSem = 0
  . rw [clientLogin_run_deadlock player hsem] at hrun
    simp at hrun
  . rw [clientLogin_run hv.slotsLive hc hout hp hsem] at hrun
    cases halloc : env.allocOk w.trace.allocs with
    | false => simp [halloc] at hrun
    | true =>
      cases htaken : (w.store.lookup p.name).isSome with
      | true =>
        simp only [halloc, htaken, ↓reduceIte, run_pure, Except.ok.injEq, Prod.mk.injEq] at hrun
        obtain ⟨rfl, rfl⟩ := hrun
        exact .taken _
      | false =>
        simp only [halloc, htaken, Bool.false_eq_true, ↓reduceIte, run_pure, Except.ok.injEq,
          Prod.mk.injEq, (by decide : ¬ (0 : Int) = -1)] at hrun
        obtain ⟨rfl, rfl⟩ := hrun
        exact .entered _ hc hout hknown

theorem stepped_users (hv : w.store.Valid extra)
    (hrun : (step client ⟨gate, .users⟩).run env w = .ok (t', w'))
    : Stepped env client w ⟨gate, .users⟩ t' w' := by
  rw [step_users hv] at hrun
  split at hrun
  . split at hrun
    . rw [Except.ok.injEq, Prod.mk.injEq] at hrun
      obtain ⟨rfl, rfl⟩ := hrun
      exact .listed _ _
    . simp at hrun
  . simp at hrun

theorem stepped_lookup {user : CString} {hdr : PacketHeader} (hv : w.store.Valid extra)
    (hrun : (step client ⟨gate, .lookup user hdr⟩).run env w = .ok (t', w'))
    : Stepped env client w ⟨gate, .lookup user hdr⟩ t' w' := by
  simp only [step, run_bind, cregLookup_run user hv] at hrun
  cases hlookup : w.store.lookup user with
  | none =>
    rw [hlookup, run_pure, Except.ok.injEq, Prod.mk.injEq] at hrun
    obtain ⟨rfl, rfl⟩ := hrun
    exact .unfound hlookup
  | some invitee =>
    rw [hlookup, run_pure, Except.ok.injEq, Prod.mk.injEq] at hrun
    obtain ⟨rfl, rfl⟩ := hrun
    exact .found hlookup

theorem stepped_invite {invitee : ClientPtr} {hdr : PacketHeader} (hv : w.store.Valid extra)
    (hl : w.store.Linked) (hclient : 0 < w.store.registered client + extra client)
    (hc : w.store.clients.get? client = some c) (hok : (Phase.invite invitee hdr).Ok w.store client)
    (hrun : (step client ⟨gate, .invite invitee hdr⟩).run env w = .ok (t', w'))
    : Stepped env client w ⟨gate, .invite invitee hdr⟩ t' w' := by
  simp only [step] at hrun
  by_cases hself : client = invitee
  . rw [if_pos hself, run_pure, Except.ok.injEq, Prod.mk.injEq] at hrun
    obtain ⟨rfl, rfl⟩ := hrun
    exact .uninvited
  . rw [if_neg hself] at hrun
    cases hroles : inviteRoles? hdr with
    | none =>
      rw [hroles, run_pure, Except.ok.injEq, Prod.mk.injEq] at hrun
      obtain ⟨rfl, rfl⟩ := hrun
      exact .uninvited
    | some roles =>
      obtain ⟨sourceRole, targetRole⟩ := roles
      simp only [hroles, run_bind, run_getStore] at hrun
      cases hmake : (clientMakeInvitation client invitee sourceRole targetRole).run env w with
      | error f => simp [hmake] at hrun
      | ok p =>
        obtain ⟨r, w₁⟩ := p
        simp only [hmake, run_pure, Except.ok.injEq, Prod.mk.injEq] at hrun
        obtain ⟨rfl, rfl⟩ := hrun
        apply Stepped.invited hself hroles
        cases hci : w.store.clients.get? invitee with
        | none => exact clientMakeInvitation_run_dead hc hci hmake
        | some ci =>
          have hallowed : w.store.Allowed extra client
              (.make invitee sourceRole targetRole) := by
            refine ⟨hclient, fun target sourceRole' targetRole' heq => ?_⟩
            obtain ⟨rfl, rfl, rfl⟩ := Operation.make.inj heq
            exact ⟨Ne.symm hself, ⟨ci, hci, hok.2 ci hci⟩, inviteRoles?_opposite hroles⟩
          exact (Operation.returned hv hl hallowed hmake).effect

theorem stepped_operation {op : Operation} (hv : w.store.Valid extra) (hl : w.store.Linked)
    (hclient : 0 < w.store.registered client + extra client)
    (hok : (Phase.operation op).Ok w.store client)
    (hrun : (step client ⟨gate, .operation op⟩).run env w = .ok (t', w'))
    : Stepped env client w ⟨gate, .operation op⟩ t' w' := by
  simp only [step, run_bind] at hrun
  cases hperform : (op.perform client).run env w with
  | error f => simp [hperform] at hrun
  | ok p =>
    obtain ⟨⟨r, data⟩, w₁⟩ := p
    have heffect : Effect env w client op r w₁ := by
      have hholds : w.store.Holds extra client := ⟨hv, hl, hclient⟩
      exact (Operation.returned hv hl (hholds.allowed hok) (Operation.perform_run hperform)).effect
    simp only [hperform, run_ite, run_pure] at hrun
    split at hrun
    . rw [Except.ok.injEq, Prod.mk.injEq] at hrun
      obtain ⟨rfl, rfl⟩ := hrun
      exact .operated .nack heffect
    . rw [Except.ok.injEq, Prod.mk.injEq] at hrun
      obtain ⟨rfl, rfl⟩ := hrun
      exact .operated (.ack data) heffect

theorem stepped_respond {responses : List Response} (hc : w.store.clients.get? client = some c)
    (hrun : (step client ⟨gate, .respond responses⟩).run env w = .ok (t', w'))
    : Stepped env client w ⟨gate, .respond responses⟩ t' w' := by
  cases responses with
  | nil =>
    rw [step, run_pure, Except.ok.injEq, Prod.mk.injEq] at hrun
    obtain ⟨rfl, rfl⟩ := hrun
    exact .waits
  | cons response rest =>
    cases response with
    | nack =>
      simp only [step, run_bind, Response.send, clientSendNack_run hc, run_pure, Except.ok.injEq,
        Prod.mk.injEq] at hrun
      obtain ⟨rfl, rfl⟩ := hrun
      exact .nacked rest
    | ack data =>
      obtain ⟨r, hack⟩ := clientSendAck_run env data hc
      simp only [step, run_bind, Response.send, hack, run_pure, Except.ok.injEq,
        Prod.mk.injEq] at hrun
      obtain ⟨rfl, rfl⟩ := hrun
      exact .acked data rest

end Thread

theorem Thread.stepped (hv : w.store.Valid extra) (hl : w.store.Linked)
    (hregistered : 0 < w.store.registered client) (hok : t.phase.Ok w.store client)
    (hheld : ∀ invitee hdr, t.phase = .unref invitee hdr → ∃ c,
      w.store.clients.get? invitee = some c ∧ (c.refCount = 1 → c.loggedIn = .loggedOut))
    (hrun : (t.step client).run env w = .ok (t', w')) : Stepped env client w t t' w' := by
  obtain ⟨c, hc⟩ := hv.held_live client (by omega)
  have hclient : 0 < w.store.registered client + extra client := by omega
  obtain ⟨gate, phase⟩ := t
  dsimp only at hok hheld
  cases phase with
  | login payload => exact stepped_login hv hc hrun
  | logIn player => exact stepped_logIn hv hc hok hrun
  | users => exact stepped_users hv hrun
  | lookup user hdr => exact stepped_lookup hv hrun
  | unref invitee hdr =>
    obtain ⟨ci, hci, hout⟩ := hheld invitee hdr rfl
    simp only [step, run_bind, clientUnref_run_loggedOut hci hout, run_pure, Except.ok.injEq,
      Prod.mk.injEq] at hrun
    obtain ⟨rfl, rfl⟩ := hrun
    exact .unreffed
  | invite invitee hdr => exact stepped_invite hv hl hclient hc hok hrun
  | acknowledge inv id =>
    simp only [step, run_bind, run_newHeader, clientSendPacket_run _ _ hc, run_pure,
      Except.ok.injEq, Prod.mk.injEq] at hrun
    obtain ⟨rfl, rfl⟩ := hrun
    exact .acknowledged
  | operation op => exact stepped_operation hv hl hclient hok hrun
  | respond responses => exact stepped_respond hc hrun
  | logout =>
    simp only [step, run_bind] at hrun
    cases hlogout : (clientLogout client).run env w with
    | error f => simp [hlogout] at hrun
    | ok p =>
      simp only [hlogout, run_pure, Except.ok.injEq, Prod.mk.injEq] at hrun
      obtain ⟨rfl, rfl⟩ := hrun
      exact .loggedOut (clientLogout_logsOut hv hl hlogout)
  | unregister =>
    obtain ⟨i, hi⟩ := slotOf?_of_registered hregistered
    have hout := hok c hc
    simp only [step, run_bind, cregUnregister_run hi hc hout, run_pure, Except.ok.injEq,
      Prod.mk.injEq] at hrun
    obtain ⟨rfl, rfl⟩ := hrun
    exact .unregistered hi hc hout

end

end Jeux
