import Jeux.Lemmas.Login

/-!
The handlers of server.c: the operation each of them carries out and the response it sends.
-/

namespace Jeux

open ServerM

variable {env : Env} {w w' : World} {extra : ClientPtr → Nat} {client : ClientPtr} {c : Client}

/-! ## USERS -/

def linesFit (h : Heap Player) (players : List PlayerPtr) : Bool :=
  players.all fun player =>
    match h.get? player with
    | some p => (usersLine p.name p.rating).length + 1 ≤ usersLineRoom p.name
    | none => true

def usersText (h : Heap Player) (players : List PlayerPtr) : CString :=
  players.flatMap fun player =>
    match h.get? player with
    | some p => usersLine p.name p.rating
    | none => []

theorem usersLoop_run {players : List PlayerPtr} {h : Heap Player}
    (hlive : ∀ player ∈ players, ∃ p, h.get? player = some p ∧ 0 < p.refCount)
    : (usersLoop players).run env (w.withPlayers (refPlayers players h))
        =
      if linesFit h players then
        .ok (usersText h players, w.withPlayers h)
      else
        .error .outOfBounds := by
  induction players with
  | nil => rfl
  | cons player rest ih =>
    obtain ⟨p, hp, hpos⟩ := hlive player (List.mem_cons_self ..)
    have hrest := ih fun other hmem => hlive other (List.mem_cons_of_mem _ hmem)
    obtain ⟨n, hn⟩ := refPlayers_get? (player :: rest) hp
    have hget : (w.withPlayers (refPlayers (player :: rest) h)).store.players.get? player
        = some { p with refCount := p.refCount + n } := hn
    simp only [usersLoop, run_bind, playerGetName_run_refPlayers hp, playerGetRating,
      run_derefPlayer, hget, run_pure, run_ite]
    by_cases hfit : (usersLine p.name p.rating).length + 1 > usersLineRoom p.name
    . have hno : linesFit h (player :: rest) = false := by
        simp only [linesFit, List.all_cons, hp, Bool.and_eq_false_iff, decide_eq_false_iff_not]
        left
        omega
      rw [if_pos hfit, hno]
      rfl
    . have heq : linesFit h (player :: rest) = linesFit h rest := by
        simp only [linesFit, List.all_cons, hp]
        rw [decide_eq_true (by omega), Bool.true_and]
      rw [if_neg hfit, heq]
      simp only [playerUnref_run_refPlayers hp hpos, hrest]
      cases linesFit h rest with
      | false => rfl
      | true => simp only [↓reduceIte, usersText, List.flatMap_cons, hp]

def Store.onlinePlayers (s : Store) : List PlayerPtr := s.playersIn s.clientRegistry.slots

theorem processUsers_run (env : Env) (hv : w.store.Valid extra)
    (hc : w.store.clients.get? client = some c)
    : (processUsers none client).run env w
        =
      if env.allocOk w.trace.allocs then
        if linesFit w.store.players w.store.onlinePlayers then
          .ok (0, World.acked { w with trace.allocs := w.trace.allocs + 1 } env client 0
            (some (usersText w.store.players w.store.onlinePlayers)))
        else
          .error .outOfBounds
      else
        .error .nullDereference := by
  simp only [processUsers, ne_eq, not_true_eq_false, ↓reduceIte, run_bind,
    cregAllPlayers_run hv.slotsLive]
  cases env.allocOk w.trace.allocs with
  | false => rfl
  | true =>
    simp only [↓reduceIte, usersLoop_run (playersIn_live hv.slotsLive), Store.onlinePlayers]
    by_cases hfit : linesFit w.store.players (w.store.playersIn w.store.clientRegistry.slots) = true
    . have hc' : (World.withPlayers { w with trace.allocs := w.trace.allocs + 1 }
          w.store.players).store.clients.get? client = some c := hc
      obtain ⟨r, hack⟩ := clientSendAck_run env
        (some (usersText w.store.players (w.store.playersIn w.store.clientRegistry.slots))) hc'
      simp only [Option.getD_some] at hack
      simp only [hfit, ↓reduceIte, hack, run_pure]
      rfl
    . simp only [hfit, ↓reduceIte, Bool.false_eq_true]

theorem processUsers_run_dead (env : Env) (hv : w.store.Valid extra)
    (hc : w.store.clients.get? client = none)
    : (processUsers none client).run env w
        =
      if env.allocOk w.trace.allocs then
        if linesFit w.store.players w.store.onlinePlayers then .error .useAfterFree
        else .error .outOfBounds
      else
        .error .nullDereference := by
  simp only [processUsers, ne_eq, not_true_eq_false, ↓reduceIte, run_bind,
    cregAllPlayers_run hv.slotsLive]
  cases env.allocOk w.trace.allocs with
  | false => rfl
  | true =>
    have hc' : (World.withPlayers { w with trace.allocs := w.trace.allocs + 1 }
        w.store.players).store.clients.get? client = none := hc
    simp only [↓reduceIte, usersLoop_run (playersIn_live hv.slotsLive), Store.onlinePlayers]
    by_cases hfit : linesFit w.store.players (w.store.playersIn w.store.clientRegistry.slots) = true
    . simp only [hfit, ↓reduceIte, clientSendAck, clientSendPacket, run_bind, run_newHeader,
        run_derefClient, hc']
    . simp only [hfit, Bool.false_eq_true, ↓reduceIte]

/-! ## INVITE -/

def inviteRoles? (hdr : PacketHeader) : Option (GameRole × GameRole) :=
  if hdr.role = GameRole.firstPlayerRole.toByte then
    some (.secondPlayerRole, .firstPlayerRole)
  else if hdr.role = GameRole.secondPlayerRole.toByte then
    some (.firstPlayerRole, .secondPlayerRole)
  else
    none

def inviteOp? (s : Store) (client : ClientPtr) (hdr : PacketHeader) (payload : Option CString)
    : Option Operation := do
  let user ← payload
  let invitee ← s.lookup user
  if client = invitee then
    none
  else
    let (sourceRole, targetRole) ← inviteRoles? hdr
    some (.make invitee sourceRole targetRole)

/--
The reference `creg_lookup` takes is given back before anything is done with the client found.
-/
theorem clientUnref_run_lookup {user : CString} {invitee : ClientPtr} (env : Env)
    (hv : w.store.Valid extra) (hlookup : w.store.lookup user = some invitee)
    : (clientUnref invitee).run env
        { w with store := w.store.modifyClient invitee Client.addRef } = .ok ((), w) := by
  obtain ⟨hregistered, ci, hci, -⟩ := hv.lookup_eq_some hlookup
  have href := (hv.client invitee ci hci).refCount
  have hci' : (World.mk (w.store.modifyClient invitee Client.addRef) w.trace).store.clients.get?
      invitee = some ci.addRef := by simp [hci]
  rw [clientUnref_run hci' (by simp only [Client.addRef_refCount]; omega)]
  simp only [modifyClient_addRef_dropRef hci]

theorem processInvite_run_found {user : CString} {invitee : ClientPtr} {hdr : PacketHeader}
    (env : Env) (hv : w.store.Valid extra) (hlookup : w.store.lookup user = some invitee)
    : (processInvite (some user) client hdr).run env w
        =
      (processInvite.inviteFound client hdr invitee).run env w := by
  simp only [processInvite, run_bind, cregLookup_run user hv, hlookup,
    clientUnref_run_lookup env hv hlookup]

theorem processInvite_run_none {payload : Option CString} {hdr : PacketHeader}
    (hv : w.store.Valid extra) (hc : w.store.clients.get? client = some c)
    (hop : inviteOp? w.store client hdr payload = none)
    : (processInvite payload client hdr).run env w = .ok (-1, w.nacked env client) := by
  cases payload with
  | none => simp only [processInvite, run_bind, clientSendNack_run hc, run_pure]
  | some user =>
    cases hlookup : w.store.lookup user with
    | none =>
      simp only [processInvite, run_bind, cregLookup_run user hv, hlookup, clientSendNack_run hc,
        run_pure]
    | some invitee =>
      rw [processInvite_run_found env hv hlookup, processInvite.inviteFound]
      by_cases hself : client = invitee
      . simp only [if_pos hself, run_bind, clientSendNack_run hc, run_pure]
      . rw [if_neg hself]
        have hroles : ∀ sourceRole targetRole,
            inviteRoles? hdr ≠ some (sourceRole, targetRole) := by
          simpa [inviteOp?, hlookup, hself] using hop
        unfold inviteRoles? at hroles
        split at hroles
        . exact absurd rfl (hroles _ _)
        . next hfirst =>
          split at hroles
          . exact absurd rfl (hroles _ _)
          . next hsecond =>
            rw [if_neg hfirst, if_neg hsecond]
            simp only [run_bind, clientSendNack_run hc, run_pure]

theorem inviteOp?_eq_some {s : Store} {hdr : PacketHeader} {payload : Option CString}
    {op : Operation} (hop : inviteOp? s client hdr payload = some op)
    : ∃ user invitee sourceRole targetRole, payload = some user ∧ s.lookup user = some invitee
        ∧ client ≠ invitee ∧ inviteRoles? hdr = some (sourceRole, targetRole)
        ∧ op = .make invitee sourceRole targetRole := by
  cases payload with
  | none => simp [inviteOp?] at hop
  | some user =>
    cases hlookup : s.lookup user with
    | none => simp [inviteOp?, hlookup] at hop
    | some invitee =>
      by_cases hself : client = invitee
      . simp [inviteOp?, hlookup, hself] at hop
      . cases hroles : inviteRoles? hdr with
        | none => simp [inviteOp?, hroles] at hop
        | some roles =>
          refine ⟨user, invitee, roles.1, roles.2, rfl, hlookup, hself, rfl, ?_⟩
          simpa [inviteOp?, hlookup, hself, hroles, eq_comm] using hop

/--
An INVITE is answered with an ACK whatever `client_make_invitation` returns.
-/
theorem processInvite_run {payload : Option CString} {hdr : PacketHeader} {op : Operation}
    (env : Env) (hv : w.store.Valid extra)
    (hop : inviteOp? w.store client hdr payload = some op)
    : (processInvite payload client hdr).run env w
        =
      (op.call client >>= processInvite.inviteMade client).run env w := by
  obtain ⟨user, invitee, sourceRole, targetRole, rfl, hlookup, hself, hroles, rfl⟩ :=
    inviteOp?_eq_some hop
  rw [processInvite_run_found env hv hlookup, processInvite.inviteFound, if_neg hself]
  unfold inviteRoles? at hroles
  split at hroles
  . next hfirst =>
    rw [if_pos hfirst]
    simp only [Option.some.injEq, Prod.mk.injEq] at hroles
    obtain ⟨rfl, rfl⟩ := hroles
    rfl
  . next hfirst =>
    split at hroles
    . next hsecond =>
      rw [if_neg hfirst, if_pos hsecond]
      simp only [Option.some.injEq, Prod.mk.injEq] at hroles
      obtain ⟨rfl, rfl⟩ := hroles
      rfl
    . simp at hroles

theorem inviteMade_run (env : Env) (r : Int) (hc : w.store.clients.get? client = some c)
    : (processInvite.inviteMade client r).run env w = .ok (0, w.acked env client r none) := by
  simp only [processInvite.inviteMade, run_bind, run_newHeader, clientSendPacket_run _ _ hc,
    run_pure]
  rfl

theorem inviteRoles?_opposite {hdr : PacketHeader} {sourceRole targetRole : GameRole}
    (h : inviteRoles? hdr = some (sourceRole, targetRole))
    : (sourceRole = .firstPlayerRole ∧ targetRole = .secondPlayerRole)
        ∨ (sourceRole = .secondPlayerRole ∧ targetRole = .firstPlayerRole) := by
  unfold inviteRoles? at h
  split at h
  . simp only [Option.some.injEq, Prod.mk.injEq] at h
    exact .inr ⟨h.1.symm, h.2.symm⟩
  . split at h
    . simp only [Option.some.injEq, Prod.mk.injEq] at h
      exact .inl ⟨h.1.symm, h.2.symm⟩
    . simp at h

/-! ## REVOKE, DECLINE, RESIGN, ACCEPT and MOVE -/

def World.answered (w : World) (env : Env) (client : ClientPtr) (r : Int) (data : Option CString)
    : World :=
  if r = -1 then w.nacked env client else w.acked env client 0 data

theorem processById_run {operation : ClientPtr → Int → ServerM Int} {hdr : PacketHeader} {r : Int}
    (hrun : (operation client hdr.id.toNat).run env w = .ok (r, w'))
    (hc : w'.store.clients.get? client = some c)
    : ∃ n, (processById none client hdr operation).run env w
        = .ok (n, w'.answered env client r none) := by
  simp only [processById, ne_eq, not_true_eq_false, ↓reduceIte, run_bind, hrun, run_ite]
  unfold World.answered
  by_cases hr : r = -1
  . simp only [hr, ↓reduceIte, clientSendNack_run hc, run_pure]
    exact ⟨_, rfl⟩
  . obtain ⟨a, hack⟩ := clientSendAck_run env none hc
    simp only [Option.getD_none, List.length_nil] at hack
    simp only [hr, ↓reduceIte, hack, run_pure]
    exact ⟨_, rfl⟩

theorem processAccept_run {hdr : PacketHeader} {r : Int} {state : Option CString}
    (hrun : (clientAcceptInvitation client hdr.id.toNat).run env w = .ok ((r, state), w'))
    (hc : w'.store.clients.get? client = some c)
    : ∃ n, (processAccept none client hdr).run env w
        = .ok (n, w'.answered env client r state) := by
  simp only [processAccept, ne_eq, not_true_eq_false, ↓reduceIte, run_bind, hrun, run_ite]
  unfold World.answered
  by_cases hr : r = -1
  . simp only [hr, ↓reduceIte, clientSendNack_run hc, run_pure]
    exact ⟨_, rfl⟩
  . obtain ⟨a, hack⟩ := clientSendAck_run env state hc
    simp only [hr, ↓reduceIte, hack, run_pure]
    exact ⟨_, rfl⟩

theorem processMove_run_none {hdr : PacketHeader} (hc : w.store.clients.get? client = some c)
    : (processMove none client hdr).run env w = .ok (-1, w.nacked env client) := by
  simp only [processMove, run_bind, clientSendNack_run hc, run_pure]

theorem processMove_run {hdr : PacketHeader} {move : CString} {r : Int}
    (hrun : (clientMakeMove client hdr.id.toNat move).run env w = .ok (r, w'))
    (hc : w'.store.clients.get? client = some c)
    : ∃ n, (processMove (some move) client hdr).run env w
        = .ok (n, w'.answered env client r none) := by
  simp only [processMove, run_bind, hrun, run_ite]
  unfold World.answered
  by_cases hr : r = -1
  . simp only [hr, ↓reduceIte, clientSendNack_run hc, run_pure]
    exact ⟨_, rfl⟩
  . obtain ⟨a, hack⟩ := clientSendAck_run env none hc
    simp only [Option.getD_none, List.length_nil] at hack
    simp only [hr, ↓reduceIte, hack, run_pure]
    exact ⟨_, rfl⟩

end Jeux
