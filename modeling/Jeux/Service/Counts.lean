import Jeux.Lemmas.Counts
import Jeux.Service.Invariant

/-!
Calls in any order. Here nothing is said about which thread makes a call or in which order a thread
makes them: a client may be unregistered while it is logged in, log in as nobody has registered it,
or stay on after it has logged out. What holds between any two calls all the same is that the
reference counts are exact.
-/

namespace Jeux

open ServerM

/--
A call that is executed to its end before the next one begins. Requests come as packets; operations
of client.c may also be called directly, with ids that do not fit into a packet.
-/
inductive Call where
  | register (fd : Int)
  | request (client : ClientPtr) (pkt : Packet)
  | operation (client : ClientPtr) (op : Operation)
  | logout (client : ClientPtr)
  | unregister (client : ClientPtr)

def PacketType.IsGame (type : PacketType) : Prop := type.IsRequest ∧ type ≠ .users

instance (type : PacketType) : Decidable type.IsGame :=
  inferInstanceAs (Decidable (_ ∧ _))

namespace Call

def handler? (client : ClientPtr) (pkt : Packet) : Option (ServerM Int) :=
  match PacketType.ofByte? pkt.hdr.type with
  | some .login => some (processLogin pkt.text client)
  | some type => requestHandler? type client pkt
  | none => none

def exec (env : Env) (w : World) : Call → Except Fault World
  | .register fd => ((cregRegister fd).run env w).map (·.2)
  | .request client pkt =>
    match handler? client pkt with
    | some handler => (handler.run env w).map (·.2)
    | none => .ok w
  | .operation client op => ((op.call client).run env w).map (·.2)
  | .logout client => ((clientLogout client).run env w).map (·.2)
  | .unregister client => ((cregUnregister client).run env w).map (·.2)

def machine (env : Env) : Machine World Call where
  step w call := (exec env w call).toOption

/--
Games are played by clients that are logged in.
-/
def Proper (w : World) : Call → Prop
  | .request client pkt =>
    (PacketType.ofByte? pkt.hdr.type).any (fun type => type.IsGame) →
      w.store.isLoggedIn client
  | .operation client op => w.store.isLoggedIn client ∧ op.Fits w.store client
  | _ => True

instance (w : World) (call : Call) : Decidable (call.Proper w) := by
  unfold Proper
  split <;> infer_instance

end Call

/--
What has been freed stays freed.
-/
structure Store.Buried (s s' : Store) : Prop where
  clients : ∀ client < s.clients.next, s.clients.get? client = none → s'.clients.get? client = none
  players : ∀ player < s.players.next, s.players.get? player = none → s'.players.get? player = none
  invitations : ∀ inv < s.invitations.next, s.invitations.get? inv = none →
    s'.invitations.get? inv = none
  games : ∀ game < s.games.next, s.games.get? game = none → s'.games.get? game = none

variable {env : Env} {w w' : World} {client : ClientPtr} {c : Client} {pkt : Packet}

namespace Store

variable {s s' : Store}

theorem Buried.refl (s : Store) : s.Buried s :=
  ⟨fun _ _ h => h, fun _ _ h => h, fun _ _ h => h, fun _ _ h => h⟩

theorem KeepsSessions.buried (h : s.KeepsSessions s') (hextends : s.Extends s') : s.Buried s' where
  clients := by
    intro x _ hx
    have hsession := h.session x
    rwa [hx, Option.map_none, Option.map_eq_none_iff] at hsession
  players := by
    intro player _ hplayer
    have hname := h.name player
    rwa [hplayer, Option.map_none, Option.map_eq_none_iff] at hname
  invitations := fun inv hlt hinv => (hextends.invitations.freed inv hlt hinv).1
  games := fun game hlt hgame => (hextends.games.freed game hlt hgame).1

theorem buried_connect (s : Store) (fd : Int) : s.Buried (s.connect fd) where
  clients := by
    intro x hlt hx
    unfold Store.connect
    dsimp only
    rw [Heap.get?_push, if_neg (Nat.ne_of_lt hlt)]
    exact hx
  players := fun _ _ h => h
  invitations := fun _ _ h => h
  games := fun _ _ h => h

theorem buried_enlist (s : Store) (name : CString) : s.Buried (s.enlist name) := by
  unfold Store.enlist
  split
  . exact .refl s
  . refine ⟨fun _ _ h => h, ?_, fun _ _ h => h, fun _ _ h => h⟩
    intro player hlt hplayer
    unfold Store.addPlayer
    dsimp only
    rw [Heap.get?_push, if_neg (Nat.ne_of_lt hlt)]
    exact hplayer

theorem Buried.login (h : s.Buried s') (client : ClientPtr) (player : PlayerPtr)
    : s.Buried (s'.login client player) where
  clients := by
    intro x hlt hx
    rw [login_clients, Heap.get?_modify, h.clients x hlt hx]
    split <;> rfl
  players := by
    intro x hlt hx
    rw [login_players, Heap.get?_modify, h.players x hlt hx]
    split <;> rfl
  invitations := h.invitations
  games := h.games

theorem Buried.leave (h : s.Buried s') (client : ClientPtr) (player : PlayerPtr)
    : s.Buried (s'.leave client player) where
  clients := by
    intro x hlt hx
    rw [leave_clients, Heap.get?_modify, h.clients x hlt hx]
    split <;> rfl
  players := by
    intro x hlt hx
    rw [leave_players, Heap.get?_modify, h.players x hlt hx]
    split <;> rfl
  invitations := h.invitations
  games := h.games

theorem Buried.unregister (h : s.Buried s') (client : ClientPtr) (i : Nat)
    : s.Buried (s'.unregister client i) where
  clients := by
    intro x hlt hx
    rw [unregister_clients]
    refine Option.eq_none_iff_forall_ne_some.mpr fun c' hc' => ?_
    obtain ⟨cx, hcx⟩ := get?_unrefClient hc'
    simp [h.clients x hlt hx] at hcx
  players := by
    rw [(unregister_players s' client i).1]
    exact h.players
  invitations := by
    intro inv hlt hinv
    rw [unregister_invitations]
    unfold Store.unrefClient
    split
    . split
      . exact h.invitations inv hlt hinv
      . exact h.invitations inv hlt hinv
    . exact h.invitations inv hlt hinv
  games := by
    intro game hlt hgame
    unfold Store.unregister Store.unrefClient
    split
    . split
      . exact h.games game hlt hgame
      . exact h.games game hlt hgame
    . exact h.games game hlt hgame

theorem Accounted.registered_of_new (h : s.Accounted) (hc : s.clients.get? client = some c)
    (hplayer : c.player = none) : 0 < s.registered client := by
  have hcount := (h.valid.client client c hc).refCount
  have hpos := h.counted client c hc
  have hzero : s.involved client = 0 := by
    unfold involved
    apply Heap.countP_eq_zero
    intro inv i hi
    rw [decide_eq_false_iff_not]
    intro hor
    obtain ⟨c', hc', hsome⟩ := (h.valid.invitation inv i hi).live hor
    rw [hc, Option.some.injEq] at hc'
    exact hsome (hc' ▸ hplayer)
  omega

end Store

theorem LogsOut.buried (h : LogsOut env client w w') : w.store.Buried w'.store := by
  cases h with
  | out => exact .refl _
  | left _ _ _ hrun => exact (hrun.keepsSessions.buried hrun.extends).leave _ _

theorem Unregisters.buried (h : Unregisters env client w w') : w.store.Buried w'.store := by
  cases h with
  | unknown => exact .refl _
  | gone _ hlogout => exact hlogout.buried.unregister _ _

theorem Connects.buried {fd : Int} {o : Option ClientPtr} (h : Connects fd w o w')
    : w.store.Buried w'.store := by
  cases h with
  | refused => exact .refl _
  | failed => exact ⟨fun _ _ h => h, fun _ _ h => h, fun _ _ h => h, fun _ _ h => h⟩
  | connected => exact Store.buried_connect _ fd

namespace Call

structure Keeps (w w' : World) : Prop where
  accounted : w'.store.Accounted
  buried : w.store.Buried w'.store

theorem keeps_returned {op : Operation} {r : Int} (hacc : w.store.Accounted)
    (hcall : w.store.Allowed (fun _ => 0) client op) (h : Returned env w client op r w')
    : Keeps w w' where
  accounted := h.accounted hacc hcall
  buried := h.effect.keepsSessions.buried h.effect.extends

theorem keeps_handled {type : PacketType} (hacc : w.store.Accounted)
    (htype : PacketType.ofByte? pkt.hdr.type = some type)
    (hholds : type ≠ .users → w.store.Holds (fun _ => 0) client)
    (h : Handled env w client pkt type w') : Keeps w w' := by
  have hkeeps : ∀ {op : Operation} {r : Int} {w₁ : World},
      requestOp? w.store client pkt = some op → Returned env w client op r w₁ → Keeps w w₁ := by
    intro op r w₁ hop hreturned
    have hne : type ≠ .users := by
      rintro rfl
      simp [requestOp?, htype] at hop
    exact keeps_returned hacc ((hholds hne).requested hop) hreturned
  cases h with
  | users => exact ⟨hacc, .refl _⟩
  | unfit => exact ⟨hacc, .refl _⟩
  | invited _ hop hreturned =>
    exact ⟨(hkeeps hop hreturned).accounted, (hkeeps hop hreturned).buried⟩
  | answered _ hop hreturned =>
    unfold World.answered
    split
    . exact ⟨(hkeeps hop hreturned).accounted, (hkeeps hop hreturned).buried⟩
    . exact ⟨(hkeeps hop hreturned).accounted, (hkeeps hop hreturned).buried⟩

theorem keeps_login {payload : Option CString} {n : Int} (hallocs : ∀ n, env.allocOk n = true)
    (hacc : w.store.Accounted) (hrun : (processLogin payload client).run env w = .ok (n, w'))
    : Keeps w w' := by
  cases hc : w.store.clients.get? client with
  | none =>
    simp only [processLogin, clientGetPlayer, run_bind, run_derefClient, hc] at hrun
    simp at hrun
  | some c =>
    by_cases hrefused : LoginRefused c payload
    . rw [processLogin_run_refused hc hrefused, Except.ok.injEq, Prod.mk.injEq] at hrun
      obtain ⟨-, rfl⟩ := hrun
      exact ⟨hacc, .refl _⟩
    . cases payload with
      | none => exact absurd (.inr (.inl rfl)) hrefused
      | some name =>
        have havail : PlayerAvailable env w name := .inr ⟨hallocs _, hallocs _⟩
        have hnew : c.player = none := by
          refine Classical.byContradiction fun hne => ?_
          exact hrefused (.inl hne)
        have hout := hacc.valid.loggedOut hc hrefused
        rw [processLogin_run hacc.valid hc hout hrefused havail (hacc.sem client c hc),
          if_pos (hallocs _), Except.ok.injEq, Prod.mk.injEq] at hrun
        obtain ⟨-, rfl⟩ := hrun
        split
        . exact ⟨hacc.enlist name, Store.buried_enlist _ name⟩
        . refine ⟨?_, (Store.buried_enlist _ name).login client _⟩
          apply (hacc.enlist name).login (c := c) _ hout
          . unfold Store.registered
            rw [Store.enlist_clientRegistry]
            exact hacc.registered_of_new hc hnew
          . exact Store.Valid.playerFor_mem name
          . rwa [Store.enlist_clients]

end Call

/-! ## Calls that do not come to their end -/

def Store.Deserted (s : Store) (client : ClientPtr) (id : Int) : Prop :=
  ∃ inv i, s.invitationOf client id = some inv ∧ s.invitations.get? inv = some i
    ∧ s.registered (i.opponentOf client) = 0

theorem Store.Valid.not_registered_of_refCount_eq_one {s : Store} (hv : s.Valid fun _ => 0)
    {inv : InvitationPtr} {i : Invitation} {x : ClientPtr}
    (hi : s.invitations.get? inv = some i) (hor : i.source = x ∨ i.target = x)
    (hc : s.clients.get? x = some c) (hone : c.refCount = 1) : s.registered x = 0 := by
  have hcount := (hv.client x c hc).refCount
  have hpos := involved_pos hi hor
  omega

theorem Outcome.deserted {op : Operation} {id : Int} {f : Fault}
    (h : Outcome env w client op id (.error f)) (hv : w.store.Valid fun _ => 0)
    : f = .useAfterFree ∧ w.store.Deserted client id := by
  cases h with
  | orphaned horphan =>
    obtain ⟨inv, i, co, hid, hi, -, hco, hone⟩ := horphan
    obtain ⟨-, i', -, -, hi', hor⟩ := hv.invitationOf hid
    obtain rfl := Option.some.inj (hi.symm.trans hi')
    exact ⟨rfl, inv, i, hid, hi,
      hv.not_registered_of_refCount_eq_one hi (opponentOf_or hor) hco hone⟩
  | @stranded text inv i game g move co hop hmove hco hone =>
    obtain ⟨-, i', -, -, hi', hor⟩ := hv.invitationOf hmove.named
    obtain rfl := Option.some.inj (hmove.invitation.symm.trans hi')
    exact ⟨rfl, inv, i, hmove.named, hmove.invitation,
      hv.not_registered_of_refCount_eq_one hmove.invitation (opponentOf_or hor) hco hone⟩

/--
While there is memory, an operation that is allowed stops only at a client that has gone.
-/
theorem Operation.stops {op : Operation} {f : Fault} (hallocs : ∀ n, env.allocOk n = true)
    (hv : w.store.Valid fun _ => 0) (hl : w.store.Linked)
    (hcall : w.store.Allowed (fun _ => 0) client op)
    (hplayer : ∀ c, w.store.clients.get? client = some c → c.player ≠ none)
    (hrun : (op.call client).run env w = .error f)
    : f = .useAfterFree ∧ ∃ id, w.store.Deserted client id := by
  have hdeserted : ∀ {id : Int}, Outcome env w client op id ((op.call client).run env w) →
      f = .useAfterFree ∧ ∃ id, w.store.Deserted client id := by
    intro id houtcome
    rw [hrun] at houtcome
    obtain ⟨hf, h⟩ := houtcome.deserted hv
    exact ⟨hf, id, h⟩
  cases op with
  | make target sourceRole targetRole =>
    obtain ⟨hne, ⟨ct, hct, -⟩, -⟩ := hcall.invited target sourceRole targetRole rfl
    obtain ⟨cs, hcs⟩ := hv.held_live client hcall.held
    obtain ⟨player, hsome⟩ := Option.ne_none_iff_exists'.mp (hplayer cs hcs)
    obtain ⟨p, hp⟩ := hv.player_live hcs hsome
    have hroom : makeStuck env w cs ct = false := by
      simp [makeStuck, hallocs]
    rw [Operation.call, clientMakeInvitation_run hv hcs hct hne.symm hsome hp (hallocs _), hroom]
      at hrun
    simp at hrun
  | accept id =>
    obtain ⟨r, w', state, hrun', -⟩ := Operation.run_accept env id hv hcall.held
    rw [Operation.call, run_bind, hrun'] at hrun
    simp at hrun
  | revoke id => exact hdeserted (Operation.outcome_revoke env id hv hl hcall.held)
  | decline id => exact hdeserted (Operation.outcome_decline env id hv hl hcall.held)
  | resign id => exact hdeserted (Operation.outcome_resign env id hv hl hcall.held)
  | move id text => exact hdeserted (Operation.outcome_move env id text hv hl hcall.held)

theorem requestHandler_stops {type : PacketType} {handler : ServerM Int} {f : Fault}
    (hholds : w.store.Holds (fun _ => 0) client)
    (htype : PacketType.ofByte? pkt.hdr.type = some type) (hne : type ≠ .users)
    (hhandler : requestHandler? type client pkt = some handler)
    (hrun : handler.run env w = .error f)
    : ∃ op, requestOp? w.store client pkt = some op ∧ (op.call client).run env w = .error f := by
  obtain ⟨c, hc⟩ := hholds.valid.held_live client hholds.held
  cases hop : requestOp? w.store client pkt with
  | none =>
    simp only [requestOp?, htype] at hop
    cases type
    all_goals simp only [requestHandler?, reduceCtorEq, Option.some.injEq] at hhandler hop hne
    case users => exact absurd rfl hne
    case invite =>
      subst hhandler
      rw [processInvite_run_none hholds.valid hc hop] at hrun
      simp at hrun
    case move =>
      subst hhandler
      rw [Option.map_eq_none_iff.mp hop, processMove_run_none hc] at hrun
      simp at hrun
  | some op =>
    refine ⟨op, rfl, ?_⟩
    cases hcall : (op.call client).run env w with
    | ok p =>
      obtain ⟨r, w₁⟩ := p
      have hreturned := Operation.returned hholds.valid hholds.linked (hholds.requested hop) hcall
      obtain ⟨c₁, hc₁, -⟩ := hreturned.effect.keepsSessions.get? hc
      obtain ⟨n, data, hok⟩ := requestHandler_run hholds.valid htype hhandler hop hcall hc₁
      rw [hok] at hrun
      simp at hrun
    | error e =>
      rw [requestHandler_run_error hholds.valid htype hhandler hop hcall] at hrun
      exact hrun

/-! ### The loop of `client_logout` -/

variable {node : InvitationNode} {nodes : List InvitationNode}

theorem logoutNode_stops {f : Fault} (hholds : w.store.Holds (fun _ => 0) client)
    {i : Invitation} (hi : w.store.invitations.get? node.invitation = some i)
    (hrun : (logoutNode client node).run env w = .error f)
    : f = .useAfterFree ∧ ∃ id, w.store.Deserted client id := by
  have hdeserted : ∀ op, Outcome env w client op node.id ((op.call client).run env w) →
      (op.call client).run env w = .error f → f = .useAfterFree ∧ ∃ id, w.store.Deserted client id := by
    intro op houtcome hop
    rw [hop] at houtcome
    obtain ⟨hf, h⟩ := houtcome.deserted hholds.valid
    exact ⟨hf, node.id, h⟩
  rw [logoutNode_eq hi, run_bind] at hrun
  split at hrun
  . simp at hrun
  . next e hop =>
    obtain rfl := Except.error.inj hrun
    apply hdeserted _ _ hop
    unfold logoutOp
    split
    . exact Operation.outcome_resign env node.id hholds.valid hholds.linked hholds.held
    . split
      . exact Operation.outcome_revoke env node.id hholds.valid hholds.linked hholds.held
      . exact Operation.outcome_decline env node.id hholds.valid hholds.linked hholds.held

theorem logoutLoop_stops {f : Fault} (hholds : w.store.Holds (fun _ => 0) client)
    (hc : w.store.clients.get? client = some c) (hnodes : ∀ node ∈ nodes, node ∈ c.inviteHead)
    (hnodup : (nodes.map (·.invitation)).Nodup)
    (hrun : (logoutLoop client nodes).run env w = .error f)
    : f = .useAfterFree
        ∧ ∃ before w₁ id, LogoutRun env client w before w₁ ∧ w₁.store.Deserted client id := by
  induction nodes generalizing w c with
  | nil => simp [logoutLoop] at hrun
  | cons node rest ih =>
    have hnode := hnodes node (List.mem_cons_self ..)
    obtain ⟨i, hi, -⟩ := (hholds.valid.client client c hc).mine node.invitation
      (List.mem_map_of_mem hnode)
    rw [logoutLoop, run_bind] at hrun
    split at hrun
    . next w₁ hrun₁ =>
      obtain ⟨i', r, hi', heffect, -⟩ := logoutNode_holds hholds hrun₁
      obtain rfl := Option.some.inj (hi.symm.trans hi')
      have hholds₁ := heffect.holds hholds (hholds.allowed (logoutOp_ne_make client i node.id))
      obtain ⟨c₁, hc₁, hrest⟩ := heffect.nodes_mem hholds.valid hholds.linked hc hnodes hnodup
      obtain ⟨hf, before, w₂, id, hrun₂, h⟩ :=
        ih hholds₁ hc₁ hrest (List.nodup_cons.mp hnodup).2 hrun
      exact ⟨hf, node :: before, w₂, id, .cons hc hnode hi heffect hrun₂, h⟩
    . next e hrun₁ =>
      obtain rfl := Except.error.inj hrun
      obtain ⟨hf, id, h⟩ := logoutNode_stops hholds hi hrun₁
      exact ⟨hf, [], w, id, .nil w, h⟩

theorem clientLogout_stops {f : Fault} (hv : w.store.Valid fun _ => 0) (hl : w.store.Linked)
    (hc : w.store.clients.get? client = some c)
    (hrun : (clientLogout client).run env w = .error f)
    : f = .useAfterFree
        ∧ ∃ before w₁ id, LogoutRun env client w before w₁ ∧ w₁.store.Deserted client id := by
  cases hstate : c.loggedIn with
  | loggedOut =>
    rw [clientLogout_run_loggedOut hc hstate] at hrun
    simp at hrun
  | loggedIn =>
    have hholds : w.store.Holds (fun _ => 0) client :=
      ⟨hv, hl, (hv.client client c hc).held hstate⟩
    have hnodup := (hv.client client c hc).nodup
    simp only [clientLogout, run_bind, run_derefClient, hc, hstate, ne_eq, not_true_eq_false,
      ↓reduceIte] at hrun
    split at hrun
    . next w₁ hloop =>
      obtain ⟨hlogout, -⟩ := logoutLoop_holds hholds hc (fun _ hnode => hnode) hnodup hloop
      obtain ⟨c₁, hc₁, hplayer₁, hin₁⟩ := hlogout.keepsSessions.get? hc
      obtain ⟨player, p, hplayer, hp, href⟩ :=
        (hlogout.holds hholds).valid.session_player hc₁ (hin₁.trans hstate)
      rw [logoutTail_run hc₁ hplayer hp href] at hrun
      simp at hrun
    . next e hloop =>
      obtain rfl := Except.error.inj hrun
      exact logoutLoop_stops hholds hc (fun _ hnode => hnode) hnodup hloop

theorem cregUnregister_stops {f : Fault} (hv : w.store.Valid fun _ => 0) (hl : w.store.Linked)
    (hrun : (cregUnregister client).run env w = .error f)
    : (clientLogout client).run env w = .error f := by
  cases hi : w.store.clientRegistry.slotOf? client with
  | none => simp [cregUnregister, hi] at hrun
  | some i =>
    cases hlogout : (clientLogout client).run env w with
    | ok p =>
      have hlogsOut := clientLogout_logsOut hv hl hlogout
      obtain ⟨c, hc, hstate⟩ := hlogsOut.loggedOut
      rw [cregUnregister_run_logout hi hlogout hlogsOut,
        cregUnregister_run (by rw [hlogsOut.clientRegistry, hi]) hc hstate] at hrun
      simp at hrun
    | error e =>
      have hblind := Blind.clientLogout client env w (w.store.clientRegistry.shift i)
      have hshift : (modifyRegistry (·.shift i)).run env w
          = .ok ((), w.withRegistry (w.store.clientRegistry.shift i)) := rfl
      rw [hlogout] at hblind
      simp only [cregUnregister, run_bind, run_getStore, hi, hshift, hblind, Except.map] at hrun
      exact hrun

/-! ## Runs -/

namespace Call

def client? : Call → Option ClientPtr
  | .register _ => none
  | .request client _ => some client
  | .operation client _ => some client
  | .logout client => some client
  | .unregister client => some client

/--
`Stops env w call f`: why a call can end in a fault. The client it is for has been freed, a line of
the list of users does not fit into its buffer, or an invitation is dropped whose other participant
has nothing but that invitation to keep it alive.
-/
inductive Stops (env : Env) (w : World) (call : Call) : Fault → Prop
  | gone {client : ClientPtr} (hclient : call.client? = some client)
      (hdead : w.store.clients.get? client = none) : Stops env w call .useAfterFree
  | overflow {client : ClientPtr} {pkt : Packet} (hcall : call = .request client pkt)
      (htype : PacketType.ofByte? pkt.hdr.type = some .users)
      (hfit : linesFit w.store.players w.store.onlinePlayers = false)
      : Stops env w call .outOfBounds
  | deserted {client : ClientPtr} {before : List InvitationNode} {w₁ : World} {id : Int}
      (hclient : call.client? = some client) (hrun : LogoutRun env client w before w₁)
      (h : w₁.store.Deserted client id) : Stops env w call .useAfterFree

def Result (env : Env) (w : World) (call : Call) : Except Fault World → Prop
  | .ok w' => Keeps w w'
  | .error f => Stops env w call f

theorem holds_of_isLoggedIn (hacc : w.store.Accounted) (hin : w.store.isLoggedIn client = true)
    : w.store.Holds (fun _ => 0) client := by
  unfold Store.isLoggedIn at hin
  split at hin
  . next c hc =>
    exact ⟨hacc.valid, hacc.linked, (hacc.valid.client client c hc).held (by simpa using hin)⟩
  . simp at hin

theorem player_of_isLoggedIn (hacc : w.store.Accounted) (hin : w.store.isLoggedIn client = true)
    : ∀ c, w.store.clients.get? client = some c → c.player ≠ none := by
  intro c hc
  simp only [Store.isLoggedIn, hc, decide_eq_true_eq] at hin
  exact (hacc.valid.client client c hc).player hin

theorem result_register (fd : Int) (hacc : w.store.Accounted)
    : Result env w (.register fd) (exec env w (.register fd)) := by
  obtain ⟨o, w', hrun, hconnects⟩ := cregRegister_run env hacc.valid.registry fd
  rw [exec, hrun]
  exact ⟨hconnects.accounted hacc, hconnects.buried⟩

theorem result_logout (hacc : w.store.Accounted)
    : Result env w (.logout client) (exec env w (.logout client)) := by
  rw [exec]
  cases hrun : (clientLogout client).run env w with
  | ok p =>
    have hlogout := clientLogout_logsOut hacc.valid hacc.linked hrun
    exact ⟨hlogout.accounted hacc, hlogout.buried⟩
  | error f =>
    cases hc : w.store.clients.get? client with
    | none =>
      simp only [clientLogout, run_bind, run_derefClient, hc] at hrun
      obtain rfl := Except.error.inj hrun
      exact .gone rfl hc
    | some c =>
      obtain ⟨rfl, before, w₁, id, hlogout, h⟩ := clientLogout_stops hacc.valid hacc.linked hc hrun
      exact .deserted rfl hlogout h

theorem result_unregister (hacc : w.store.Accounted)
    : Result env w (.unregister client) (exec env w (.unregister client)) := by
  rw [exec]
  cases hrun : (cregUnregister client).run env w with
  | ok p =>
    have hgone := cregUnregister_unregisters hacc.valid hacc.linked hrun
    exact ⟨hgone.accounted hacc, hgone.buried⟩
  | error f =>
    have hlogout := cregUnregister_stops hacc.valid hacc.linked hrun
    cases hc : w.store.clients.get? client with
    | none =>
      simp only [clientLogout, run_bind, run_derefClient, hc] at hlogout
      obtain rfl := Except.error.inj hlogout
      exact .gone rfl hc
    | some c =>
      obtain ⟨rfl, before, w₁, id, hrun', h⟩ :=
        clientLogout_stops hacc.valid hacc.linked hc hlogout
      exact .deserted rfl hrun' h

theorem result_operation {op : Operation} (hallocs : ∀ n, env.allocOk n = true)
    (hacc : w.store.Accounted) (hproper : (Call.operation client op).Proper w)
    : Result env w (.operation client op) (exec env w (.operation client op)) := by
  obtain ⟨hin, hfits⟩ := hproper
  have hholds := holds_of_isLoggedIn hacc hin
  have hcall : w.store.Allowed (fun _ => 0) client op := by
    refine ⟨hholds.held, ?_⟩
    rintro target sourceRole targetRole rfl
    obtain ⟨hne, hregistered, htarget, hroles⟩ := hfits
    obtain ⟨ct, hct⟩ := hacc.valid.held_live target (by omega)
    exact ⟨hne, ⟨ct, hct, player_of_isLoggedIn hacc htarget ct hct⟩, hroles⟩
  rw [exec]
  cases hrun : (op.call client).run env w with
  | ok p =>
    exact keeps_returned hacc hcall (Operation.returned hacc.valid hacc.linked hcall hrun)
  | error f =>
    obtain ⟨rfl, id, h⟩ := Operation.stops hallocs hacc.valid hacc.linked hcall
      (player_of_isLoggedIn hacc hin) hrun
    exact .deserted rfl (.nil w) h

theorem processLogin_returns (payload : Option CString) (hallocs : ∀ n, env.allocOk n = true)
    (hacc : w.store.Accounted) (hc : w.store.clients.get? client = some c)
    : ∃ p, (processLogin payload client).run env w = .ok p := by
  by_cases hrefused : LoginRefused c payload
  . exact ⟨_, processLogin_run_refused hc hrefused⟩
  . cases payload with
    | none => exact absurd (.inr (.inl rfl)) hrefused
    | some name =>
      have hout := hacc.valid.loggedOut hc hrefused
      rw [processLogin_run hacc.valid hc hout hrefused (.inr ⟨hallocs _, hallocs _⟩)
        (hacc.sem client c hc), if_pos (hallocs _)]
      exact ⟨_, rfl⟩

theorem result_login (hallocs : ∀ n, env.allocOk n = true) (hacc : w.store.Accounted)
    (htype : PacketType.ofByte? pkt.hdr.type = some .login)
    : Result env w (.request client pkt) (exec env w (.request client pkt)) := by
  simp only [exec, handler?, htype]
  cases hc : w.store.clients.get? client with
  | none =>
    simp only [processLogin, clientGetPlayer, run_bind, run_derefClient, hc]
    exact .gone rfl hc
  | some c =>
    obtain ⟨p, hrun⟩ := processLogin_returns pkt.text hallocs hacc hc
    rw [hrun]
    exact keeps_login hallocs hacc hrun

theorem result_users (hallocs : ∀ n, env.allocOk n = true) (hacc : w.store.Accounted)
    (htype : PacketType.ofByte? pkt.hdr.type = some .users)
    : Result env w (.request client pkt) (exec env w (.request client pkt)) := by
  simp only [exec, handler?, htype, requestHandler?]
  cases hc : w.store.clients.get? client with
  | none =>
    rw [processUsers_run_dead env hacc.valid hc, if_pos (hallocs _)]
    cases hfit : linesFit w.store.players w.store.onlinePlayers with
    | false => exact .overflow rfl htype hfit
    | true => exact .gone rfl hc
  | some c =>
    rw [processUsers_run env hacc.valid hc, if_pos (hallocs _)]
    cases hfit : linesFit w.store.players w.store.onlinePlayers with
    | false => exact .overflow rfl htype hfit
    | true => exact ⟨hacc, .refl _⟩

theorem result_request (hallocs : ∀ n, env.allocOk n = true) (hacc : w.store.Accounted)
    (hproper : (Call.request client pkt).Proper w)
    : Result env w (.request client pkt) (exec env w (.request client pkt)) := by
  by_cases hlogin : PacketType.ofByte? pkt.hdr.type = some .login
  . exact result_login hallocs hacc hlogin
  . by_cases husers : PacketType.ofByte? pkt.hdr.type = some .users
    . exact result_users hallocs hacc husers
    . rw [exec]
      split
      . next handler hhandler =>
        obtain ⟨type, htype, hrequest⟩ : ∃ type, PacketType.ofByte? pkt.hdr.type = some type
            ∧ requestHandler? type client pkt = some handler := by
          unfold handler? at hhandler
          split at hhandler
          . next heq => exact absurd heq hlogin
          . next type _ htype => exact ⟨type, htype, hhandler⟩
          . simp at hhandler
        have hne : type ≠ .users := by
          rintro rfl
          exact husers htype
        have hgame : type.IsGame :=
          ⟨(requestHandler?_isSome type client pkt).mp (by simp [hrequest]), hne⟩
        have hin : w.store.isLoggedIn client = true := hproper (by simpa [htype] using hgame)
        have hholds := holds_of_isLoggedIn hacc hin
        cases hrun : handler.run env w with
        | ok p =>
          exact keeps_handled hacc htype (fun _ => hholds)
            (.of_request hholds htype hrequest hrun)
        | error f =>
          obtain ⟨op, hop, hstop⟩ := requestHandler_stops hholds htype hne hrequest hrun
          obtain ⟨rfl, id, h⟩ := Operation.stops hallocs hacc.valid hacc.linked
            (hholds.requested hop) (player_of_isLoggedIn hacc hin) hstop
          exact .deserted rfl (.nil w) h
      . exact ⟨hacc, .refl _⟩

theorem result_exec {call : Call} (hallocs : ∀ n, env.allocOk n = true) (hacc : w.store.Accounted)
    (hproper : call.Proper w) : Result env w call (exec env w call) := by
  cases call with
  | register fd => exact result_register fd hacc
  | request client pkt => exact result_request hallocs hacc hproper
  | operation client op => exact result_operation hallocs hacc hproper
  | logout client => exact result_logout hacc
  | unregister client => exact result_unregister hacc

theorem exec_of_step {call : Call} (h : (machine env).step w call = some w')
    : exec env w call = .ok w' := Except.eq_ok_of_toOption h

theorem accounted_initial : initialWorld.store.Accounted where
  valid := Server.initial_ok.steady.valid
  linked := Server.initial_ok.steady.settled.linked
  counted := by simp [Store.Counted, initialWorld, initialStore]
  known := by simp [initialWorld, initialStore]
  sem := by simp [initialWorld, initialStore]

theorem accounted_of_reach (hallocs : ∀ n, env.allocOk n = true)
    (hreach : (machine env).Reach (fun w call => call.Proper w) initialWorld w)
    : w.store.Accounted := by
  apply hreach.invariant (fun w => w.store.Accounted) accounted_initial
  intro w call w' hacc hproper hstep
  have hresult := result_exec hallocs hacc hproper
  rw [exec_of_step hstep] at hresult
  exact hresult.accounted

/--
Between any two calls every reference count is the number of references there are, and an object is
alive as long as there are any. A call leaves what has been freed alone, and it comes to its end
unless there is one of the reasons not to.
-/
theorem counts_exact (hallocs : ∀ n, env.allocOk n = true)
    (hreach : (machine env).Reach (fun w call => call.Proper w) initialWorld w)
    : w.store.Exact
        ∧ (∀ call w', call.Proper w → exec env w call = .ok w' → w.store.Buried w'.store)
        ∧ ∀ call f, call.Proper w → exec env w call = .error f → Stops env w call f := by
  have hacc := accounted_of_reach hallocs hreach
  refine ⟨hacc.exact, ?_, ?_⟩
  . intro call w' hproper hexec
    have hresult := result_exec hallocs hacc hproper
    rw [hexec] at hresult
    exact hresult.buried
  . intro call f hproper hexec
    have hresult := result_exec hallocs hacc hproper
    rw [hexec] at hresult
    exact hresult

/--
`A` invites `B`, who leaves for good without an answer.
-/
theorem counts_exact_of_departure
    : ∃ w, (machine calmEnv).Reach (fun w call => call.Proper w) initialWorld w
        ∧ (w.store.clients.get? 1 = none ∧ w.store.invitations.next = 1) ∧ w.store.Exact := by
  obtain ⟨w, hreach, hcheck⟩ := Machine.Reach.of_any_run (machine calmEnv)
    (fun w call => call.Proper w) initialWorld
    [.register 4, .register 5, .request 0 (Jeux.request .login 0 .nullRole [65] fits_A),
      .request 1 (Jeux.request .login 0 .nullRole [66] fits_B),
      .request 0 (Jeux.request .invite 0 .firstPlayerRole [66] fits_B), .unregister 1]
    (fun w => decide (w.store.clients.get? 1 = none ∧ w.store.invitations.next = 1))
    (by decide +kernel)
  exact ⟨w, hreach, of_decide_eq_true hcheck, (counts_exact (fun _ => rfl) hreach).1⟩

end Call

end Jeux
