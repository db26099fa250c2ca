import Jeux.Lemmas.Numbers
import Jeux.Service.Invariant

/-!
Packets about invitations, and what their id bytes mean to the server: when the receiver sends the
byte back, `client_get_invitation` looks it up in the list of the receiver.
-/

namespace Jeux

open ServerM

variable {env : Env} {w w' : World} {s s' : Store} {client : ClientPtr} {c : Client}
  {σ σ' : Server} {e : Event} {pkt : Packet} {gate gate' : Int} {op : Operation} {r : Int}
  {inv : InvitationPtr} {node : InvitationNode} {nodes : List InvitationNode} {sent : SentPacket}

/-! ## Lists in the course of a run -/

namespace Store

theorem ages_connect (s : Store) (fd : Int) : s.Ages (s.connect fd) := by
  refine Ages.of_lists (by exact Nat.le_refl _) fun x c' hc' => ?_
  have hpush : (s.clients.push (newClient fd)).get? x = some c' := hc'
  rw [Heap.get?_push] at hpush
  split at hpush
  . rw [Option.some.injEq] at hpush
    rw [← hpush]
    exact List.nil_subset _
  . rw [hpush, Option.map_some, Option.getD_some]
    exact List.Subset.refl _

theorem ages_enlist (s : Store) (name : CString) : s.Ages (s.enlist name) :=
  .of_clients (by rw [enlist_invitations]) (enlist_clients s name)

theorem ages_login (s : Store) (client : ClientPtr) (player : PlayerPtr)
    : s.Ages (s.login client player) := by
  have hset := Ages.modify s client
    (fun c => { c with player := some player, loggedIn := .loggedIn }) fun _ => List.Subset.refl _
  exact hset.trans (.of_clients (by simp) rfl)

theorem ages_leave (s : Store) (client : ClientPtr) (player : PlayerPtr)
    : s.Ages (s.leave client player) := by
  have hset := Ages.modify s client (fun c => { c with loggedIn := .loggedOut })
    fun _ => List.Subset.refl _
  exact hset.trans (.of_clients (by simp) rfl)

theorem ages_unregister (s : Store) (client : ClientPtr) (i : Nat)
    : s.Ages (s.unregister client i) := by
  have hshift : s.Ages { s with clientRegistry := (s.clientRegistry.shift i).release } :=
    .of_clients (by exact Nat.le_refl _) rfl
  refine hshift.trans ?_
  unfold unregister unrefClient
  split
  . split
    . exact ages_free _ client _
    . exact Ages.modify _ client _ fun _ => List.Subset.refl _
  . exact .refl _

end Store

theorem Served.ages (h : Served env w client gate pkt gate' w') : w.store.Ages w'.store := by
  cases h with
  | ignored | shut | users | unfit | loginRefused => exact .refl _
  | invited _ _ _ _ heffect => exact heffect.ages
  | answered _ _ _ _ _ _ heffect =>
    unfold World.answered
    split
    . exact heffect.ages
    . exact heffect.ages
  | loginNoRoom _ _ _ _ _ hstore =>
    rcases hstore with heq | ⟨p, heq⟩
    . rw [World.nacked_store, heq]
      exact .refl _
    . rw [World.nacked_store, heq]
      exact .of_clients (by exact Nat.le_refl _) rfl
  | loginTaken => exact Store.ages_enlist ..
  | loggedIn => exact (Store.ages_enlist ..).trans (Store.ages_login ..)

theorem LogoutRun.ages (h : LogoutRun env client w nodes w') : w.store.Ages w'.store := by
  induction h with
  | nil => exact .refl _
  | cons _ _ _ heffect _ ih => exact heffect.ages.trans ih

theorem Departs.ages (h : Departs env client w w') : w.store.Ages w'.store := by
  cases h with
  | loggedOut => exact Store.ages_unregister ..
  | loggedIn _ _ _ hlogout =>
    exact hlogout.ages.trans ((Store.ages_leave ..).trans (Store.ages_unregister ..))

namespace Server

theorem Steps.ages (h : Steps env σ e σ') : σ.world.store.Ages σ'.world.store := by
  cases h with
  | idle => exact .refl _
  | connects hconnects =>
    cases hconnects with
    | refused => exact .refl _
    | failed => exact .of_clients (by exact Nat.le_refl _) rfl
    | connected => exact Store.ages_connect ..
  | serves _ hserved => exact hserved.ages
  | departs _ _ hdeparts => exact hdeparts.ages
  | calls _ _ heffect => exact heffect.ages

theorem ages_of_reach {σ₀ : Server} (h₀ : σ₀.Ok)
    (h : (machine env).Reach (fun _ _ => True) σ₀ σ) : σ₀.world.store.Ages σ.world.store := by
  apply And.right (a := σ.Ok)
  refine h.invariant (fun σ => σ.Ok ∧ σ₀.world.store.Ages σ.world.store) ⟨h₀, .refl _⟩ ?_
  rintro σ e σ' ⟨hok, hages⟩ - hstep
  have hsteps := steps_of_step hok hstep
  exact ⟨hsteps.ok hok, hages.trans hsteps.ages⟩

/-! ## The operations of an event -/

/--
`Calls env σ e w client op r w'`: the event `e` makes the server call `op` for `client` in `w`, and
the call returns `r` and leaves `w'`. A request gets past the gate, an operation is called directly,
or `client_logout` has come to a node of the list.
-/
inductive Calls (env : Env) (σ : Server) (e : Event)
    : World → ClientPtr → Operation → Int → World → Prop
  | request {client : ClientPtr} {pkt : Packet} {gate : Int} {op : Operation} {r : Int} {w' : World}
      (he : e = .packet client pkt) (hgate : σ.connections client = some gate) (hopen : gate ≠ 0)
      (hop : requestOp? σ.world.store client pkt = some op)
      (hrun : (op.call client).run env σ.world = .ok (r, w')) : Calls env σ e σ.world client op r w'
  | direct {client : ClientPtr} {op : Operation} {r : Int} {w' : World}
      (he : e = .call client op) (hconnected : σ.connections client ≠ none)
      (hin : σ.world.store.isLoggedIn client = true) (hfits : op.Fits σ.world.store client)
      (hrun : (op.call client).run env σ.world = .ok (r, w')) : Calls env σ e σ.world client op r w'
  | logout {client : ClientPtr} {c : Client} {before after : List InvitationNode}
      {node : InvitationNode} {i : Invitation} {r : Int} {w w' : World}
      (he : e = .hangUp client
        ∨ ∃ pkt, e = .packet client pkt ∧ PacketType.ofByte? pkt.hdr.type = some .no)
      (hconnected : σ.connections client ≠ none)
      (hc : σ.world.store.clients.get? client = some c) (hin : c.loggedIn = .loggedIn)
      (hnodes : c.inviteHead = before ++ node :: after)
      (hbefore : (logoutLoop client before).run env σ.world = .ok ((), w))
      (hi : w.store.invitations.get? node.invitation = some i)
      (hrun : ((logoutOp client i node.id).call client).run env w = .ok (r, w'))
      : Calls env σ e w client (logoutOp client i node.id) r w'

/--
A packet about an invitation, the state in which the operation that sent it was called, and the state
it left. The ACK of an INVITE is sent after the operation, if that has made an invitation.
-/
inductive About (env : Env) (σ : Server) (e : Event)
    : SentPacket → InvitationPtr → World → World → Prop
  | notice {sent : SentPacket} {inv : InvitationPtr} {w w' : World} {client : ClientPtr}
      {op : Operation} {r : Int} (hcalls : Calls env σ e w client op r w')
      (hsent : sent ∈ w.sentSince w') (hinv : op.subject? w.store client = some inv)
      : About env σ e sent inv w w'
  | ack {sent : SentPacket} {w w' w₁ : World} {client target : ClientPtr}
      {sourceRole targetRole : GameRole} {r n : Int} {pkt : Packet} (he : e = .packet client pkt)
      (hcalls : Calls env σ e w client (.make target sourceRole targetRole) r w') (hmade : r ≠ -1)
      (hrun : (processInvite.inviteMade client r).run env w' = .ok (n, w₁))
      (hsent : sent ∈ w'.sentSince w₁) : About env σ e sent w.store.invitations.next w w'

/--
The states of interest: those before and after the operation, and all that follow on the event.
-/
inductive Follows (env : Env) (σ : Server) (e : Event) (w w' : World) : World → Prop
  | called : Follows env σ e w w' w
  | returned : Follows env σ e w w' w'
  | later {σ' σ'' : Server} (hexec : exec env σ e = .ok σ')
      (hreach : (machine env).Reach (fun _ _ => True) σ' σ'') : Follows env σ e w w' σ''.world

end Server

/-! ## From one operation of `client_logout` to the next -/

theorem logoutLoop_keeps (hserves : w.store.Serves (fun _ => 0) client)
    (hrun : (logoutLoop client nodes).run env w = .ok ((), w'))
    : w'.store.Serves (fun _ => 0) client ∧ w.store.KeepsSessions w'.store
        ∧ w.store.Ages w'.store := by
  induction nodes generalizing w with
  | nil =>
    rw [logoutLoop, run_pure, Except.ok.injEq, Prod.mk.injEq] at hrun
    exact ⟨hrun.2 ▸ hserves, hrun.2 ▸ .refl _, hrun.2 ▸ .refl _⟩
  | cons node rest ih =>
    rw [logoutLoop, run_bind] at hrun
    split at hrun
    . next w₁ hrun₁ =>
      obtain ⟨i, r, -, heffect, -⟩ := logoutNode_holds hserves.holds hrun₁
      have hserves₁ := heffect.serves hserves (hserves.callable (logoutOp_ne_make client i node.id))
      obtain ⟨hserves', hkeeps, hages⟩ := ih hserves₁ hrun
      exact ⟨hserves', heffect.keepsSessions.trans hkeeps, heffect.ages.trans hages⟩
    . simp at hrun

theorem logoutLoop_run_append {before after : List InvitationNode}
    (hrun : (logoutLoop client before).run env w = .ok ((), w'))
    : (logoutLoop client (before ++ after)).run env w = (logoutLoop client after).run env w' := by
  induction before generalizing w with
  | nil =>
    rw [logoutLoop, run_pure, Except.ok.injEq, Prod.mk.injEq] at hrun
    rw [List.nil_append, hrun.2]
  | cons node rest ih =>
    rw [logoutLoop, run_bind] at hrun
    split at hrun
    . next w₁ hrun₁ =>
      rw [List.cons_append, logoutLoop, run_bind, hrun₁]
      exact ih hrun
    . simp at hrun

namespace Server

/-! ## What the operations of an event are -/

theorem Calls.serves (h : Calls env σ e w client op r w') (hok : σ.Ok)
    : w.store.Serves (fun _ => 0) client := by
  cases h with
  | request he hgate => exact hok.serves (by simp [hgate])
  | direct he hconnected => exact hok.serves hconnected
  | logout he hconnected hc hin hnodes hbefore =>
    exact (logoutLoop_keeps (hok.serves hconnected) hbefore).1

theorem Calls.effect (h : Calls env σ e w client op r w') (hok : σ.Ok)
    : Effect env w client op r w' ∧ w.store.Callable client op := by
  have hserves := h.serves hok
  cases h with
  | request he hgate hopen hop hrun =>
    have hcall := hok.steady.callable hserves.registered hop
    exact ⟨hserves.effect hcall hrun, hcall⟩
  | direct he hconnected hin hfits hrun =>
    have hcall := hok.callable hconnected hfits
    exact ⟨hserves.effect hcall hrun, hcall⟩
  | @logout client c before after node i r w w' he hconnected hc hin hnodes hbefore hi hrun =>
    have hcall := hserves.callable (logoutOp_ne_make client i node.id)
    exact ⟨hserves.effect hcall hrun, hcall⟩

theorem exec_departs (he : e = .hangUp client
      ∨ ∃ pkt, e = .packet client pkt ∧ PacketType.ofByte? pkt.hdr.type = some .no)
    (hconnected : σ.connections client ≠ none) (hexec : exec env σ e = .ok σ')
    : ∃ r w, (clientLogout client).run env σ.world = .ok (r, w)
        ∧ close env w σ.connections client = .ok σ' := by
  obtain ⟨gate, hgate⟩ := Option.ne_none_iff_exists'.mp hconnected
  rcases he with rfl | ⟨pkt, rfl, htype⟩
  . simp only [exec, hgate] at hexec
    split at hexec
    . next r w hrun => exact ⟨r, w, hrun, hexec⟩
    . simp at hexec
  . simp only [exec, hgate, servicePacket, htype, run_bind] at hexec
    cases hrun : (clientLogout client).run env σ.world with
    | error f => simp [hrun] at hexec
    | ok p =>
      simp only [hrun, run_pure] at hexec
      exact ⟨p.1, p.2, rfl, hexec⟩

theorem ages_close_of_logout {after : List InvitationNode}
    (hserves : w.store.Serves (fun _ => 0) client)
    (hlogged : ∃ c, w.store.clients.get? client = some c ∧ c.loggedIn = .loggedIn)
    (hrun : (do logoutLoop client after; logoutTail client; return (0 : Int) : ServerM Int).run env w
      = .ok (r, w'))
    (hclose : close env w' σ.connections client = .ok σ') : w.store.Ages σ'.world.store := by
  rw [run_bind] at hrun
  split at hrun
  . next w₁ hloop =>
    obtain ⟨hserves₁, hkeeps, hages⟩ := logoutLoop_keeps hserves hloop
    obtain ⟨c, hc, hin⟩ := hlogged
    obtain ⟨c₁, hc₁, -, hin₁⟩ := hkeeps.get? hc
    obtain ⟨player, p, hplayer, hp, href⟩ := hserves₁.valid.session_player hc₁ (hin₁.trans hin)
    simp only [run_bind, logoutTail_run hc₁ hplayer hp href, run_pure, Except.ok.injEq,
      Prod.mk.injEq] at hrun
    obtain ⟨-, rfl⟩ := hrun
    obtain ⟨i, hi⟩ := slotOf?_of_registered hserves₁.registered
    have hc₂ : (w₁.store.leave client player).clients.get? client
        = some { c₁ with loggedIn := .loggedOut } := by simp [hc₁]
    rw [close_run (w := { w₁ with store := w₁.store.leave client player }) σ.connections hi hc₂ rfl,
      Except.ok.injEq] at hclose
    subst hclose
    exact hages.trans ((Store.ages_leave ..).trans (Store.ages_unregister ..))
  . simp at hrun

theorem Calls.ages (h : Calls env σ e w client op r w') (hok : σ.Ok)
    (hexec : exec env σ e = .ok σ') : w'.store.Ages σ'.world.store := by
  have hserves := h.serves hok
  obtain ⟨heffect, hcall⟩ := h.effect hok
  obtain ⟨c, hc⟩ := hserves.exists_client
  obtain ⟨c', hc', -⟩ := heffect.keepsSessions.get? hc
  cases h with
  | request he hgate hopen hop hrun =>
    obtain ⟨data, hserve⟩ := servicePacket_run_request hserves.valid hopen hop hrun hc'
    subst he
    simp only [exec, hgate, hserve, Except.ok.injEq] at hexec
    subst hexec
    apply Store.Ages.of_clients
    . split <;> simp [World.answered, apply_ite World.store]
    . split <;> simp [World.answered, apply_ite World.store]
  | direct he hconnected hin hfits hrun =>
    subst he
    simp only [exec, hconnected, hin, hfits, ne_eq, not_false_eq_true, and_self, ↓reduceIte, hrun,
      Except.ok.injEq] at hexec
    subst hexec
    exact .refl _
  | @logout client c₀ before after node i r w w' he hconnected hc₀ hin hnodes hbefore hi hrun =>
    obtain ⟨r', w₁, hlogout, hclose⟩ := exec_departs he hconnected hexec
    have hnode := logoutNode_run_op hi hrun
    simp only [clientLogout, run_bind, run_derefClient, hc₀, hin, ne_eq, not_true_eq_false,
      ↓reduceIte, hnodes, logoutLoop_run_append hbefore, logoutLoop, hnode] at hlogout
    have hin' : c'.loggedIn = .loggedIn := by
      obtain ⟨-, hkeeps, -⟩ := logoutLoop_keeps (hok.serves hconnected) hbefore
      obtain ⟨c₁, hc₁, -, hin₁⟩ := hkeeps.get? hc₀
      obtain ⟨c₂, hc₂, -, hin₂⟩ := heffect.keepsSessions.get? hc₁
      obtain rfl := Option.some.inj (hc₂.symm.trans hc')
      exact hin₂.trans (hin₁.trans hin)
    have hrest : (do logoutLoop client after; logoutTail client; return (0 : Int) : ServerM Int).run
        env w' = .ok (r', w₁) := by simpa only [run_bind] using hlogout
    exact ages_close_of_logout (heffect.serves hserves hcall) ⟨c', hc', hin'⟩ hrest hclose

/-! ## What the packets say -/

variable {w₁ : World}

theorem About.calls (h : About env σ e sent inv w w')
    : ∃ client op r, Calls env σ e w client op r w' := by
  cases h with
  | notice hcalls => exact ⟨_, _, _, hcalls⟩
  | ack he hcalls => exact ⟨_, _, _, hcalls⟩

theorem Follows.ages (h : Follows env σ e w w' w₁) (hok : σ.Ok)
    (hcalls : Calls env σ e w client op r w')
    : w₁.store.Valid (fun _ => 0) ∧ (w₁ = w ∨ w'.store.Ages w₁.store) := by
  have hserves := hcalls.serves hok
  obtain ⟨heffect, hcall⟩ := hcalls.effect hok
  cases h with
  | called => exact ⟨hserves.valid, .inl rfl⟩
  | returned => exact ⟨(heffect.serves hserves hcall).valid, .inr (.refl _)⟩
  | later hexec hreach =>
    have hok' := (hok.steps hexec).ok hok
    exact ⟨(ok_of_reach hok' hreach).steady.valid,
      .inr ((hcalls.ages hok hexec).trans (ages_of_reach hok' hreach))⟩

theorem About.named (h : About env σ e sent inv w w') (hok : σ.Ok)
    (hfollows : Follows env σ e w w' w₁) (hnode : node ∈ w₁.store.nodesOf sent.receiver inv)
    : sent.hdr.id = UInt8.ofInt node.id ∧ w.store.numberFor sent.receiver inv = node.id := by
  obtain ⟨client, op, r, hcalls⟩ := h.calls
  have hv := (hcalls.serves hok).valid
  -- the node of an invitation just made
  have hmade (x target : ClientPtr) (sourceRole targetRole : GameRole) (c : Client)
      (hne : x ≠ target) (z : ClientPtr) (hz : z = x ∨ z = target)
      (hc : w.store.clients.get? z = some c)
      (hstore : w'.store = w.store.invite x target sourceRole targetRole)
      (hfresh : node ∈ w₁.store.nodesOf z w.store.invitations.next) : node.id = c.nextId := by
    obtain ⟨-, rfl | hages⟩ := hfollows.ages hok hcalls
    . obtain ⟨c', hc', hmem, hinv⟩ := Store.mem_nodesOf.mp hfresh
      obtain ⟨i, hi, -⟩ := (hv.client z c' hc').mine node.invitation (List.mem_map_of_mem hmem)
      rw [hinv] at hi
      simp at hi
    . have hlt : w.store.invitations.next < w'.store.invitations.next := by
        rw [hstore]
        simp [Store.invite]
      have hold := hages.nodes z _ hlt hfresh
      rw [hstore] at hold
      exact hv.node_of_invite hne hz hc hold
  cases h with
  | notice hcalls' hsent hinv =>
    obtain ⟨heffect, hcall⟩ := hcalls'.effect hok
    obtain ⟨inv', hinv', hcases⟩ := heffect.notice hv hsent
    obtain rfl := Option.some.inj (hinv'.symm.trans hinv)
    rcases hcases with ⟨target, sourceRole, targetRole, ct, rfl, rfl, hct, hid⟩ | ⟨hlt, hid⟩
    . obtain rfl := Option.some.inj hinv
      obtain ⟨cs, ct', hcs, hct', -, hstore⟩ :=
        heffect.made_of_ne (.inr (List.ne_nil_of_mem hsent))
      have hne := (hcall.invited _ _ _ rfl).1
      have hnumber := hmade _ _ _ _ ct hne.symm _ (.inr rfl) hct hstore hnode
      rw [hnumber]
      exact ⟨hid, hv.numberFor_fresh hct⟩
    . have hold : node ∈ w.store.nodesOf sent.receiver inv' := by
        obtain ⟨-, rfl | hages⟩ := hfollows.ages hok hcalls
        . exact hnode
        . exact (heffect.ages.trans hages).nodes _ _ hlt hnode
      obtain ⟨hnumber, hidOf⟩ := hv.numberFor_node hold
      exact ⟨hidOf ▸ hid, hnumber⟩
  | ack he hcalls' hne hrun hsent =>
    obtain ⟨heffect, hcall⟩ := hcalls'.effect hok
    obtain ⟨cs, ct, hcs, hct, rfl, hstore⟩ := heffect.made_of_ne (.inl hne)
    obtain ⟨c', hc', -⟩ := heffect.keepsSessions.get? hcs
    rw [inviteMade_run env _ hc', Except.ok.injEq, Prod.mk.injEq] at hrun
    obtain ⟨-, rfl⟩ := hrun
    simp only [World.sentSince, World.acked_trace, Trace.send, List.drop_left,
      List.mem_singleton] at hsent
    subst hsent
    have hself := (hcall.invited _ _ _ rfl).1
    have hnumber := hmade _ _ _ _ cs hself.symm _ (.inl rfl) hcs hstore hnode
    rw [hnumber]
    exact ⟨rfl, hv.numberFor_fresh hcs⟩

end Server

/--
As long as the invitation is in the list of the receiver, the byte finds it just when its number fits
into a byte.
-/
theorem packetId_identifies_iff {w₁ : World} (hreach : Server.Reachable env σ)
    (habout : Server.About env σ e sent inv w w') (hfollows : Server.Follows env σ e w w' w₁)
    (hlisted : 0 < w₁.store.listed sent.receiver inv)
    : (clientGetInvitation sent.receiver sent.hdr.id.toNat).run env w₁ = .ok (some inv, w₁)
        ↔
      w.store.numberFor sent.receiver inv < 256 := by
  have hok := Server.ok_of_reach Server.initial_ok hreach
  obtain ⟨client, op, r, hcalls⟩ := habout.calls
  obtain ⟨hv, -⟩ := hfollows.ages hok hcalls
  rw [Store.listed_eq_length, List.length_pos_iff_exists_mem] at hlisted
  obtain ⟨node, hnode⟩ := hlisted
  obtain ⟨hid, hnumber⟩ := habout.named hok hfollows hnode
  obtain ⟨c, hc, hmem, rfl⟩ := Store.mem_nodesOf.mp hnode
  have hclient := hv.client _ c hc
  rw [clientGetInvitation_run _ hc, hid, hnumber, ← hclient.ids.byte_iff hclient.nodup hmem]
  simp [Store.invitationOf, hc]

/-! ## One invitation after the other -/

theorem Store.KeepsSessions.lookup (h : s.KeepsSessions s') (user : CString)
    : s'.lookup user = s.lookup user := by
  have hname : s'.nameOf = s.nameOf := by
    funext x
    have hplayer : s'.playerOf x = s.playerOf x := by
      have hsession := congrArg (Option.map Prod.fst) (h.session x)
      simp only [Option.map_map] at hsession
      unfold playerOf
      cases hc' : s'.clients.get? x with
      | none => cases hc : s.clients.get? x <;> simp_all
      | some c' => cases hc : s.clients.get? x <;> simp_all [Client.session]
    unfold nameOf
    rw [hplayer]
    exact congrArg _ (funext h.name)
  unfold Store.lookup
  rw [h.clientRegistry, hname]

def inviteB : Packet := request .invite 0 .firstPlayerRole [66] fits_B

structure Server.Inviting (n : Nat) (σ : Server) : Prop where
  reachable : Reachable calmEnv σ
  gate : σ.connections 0 = some 1
  asks : requestOp? σ.world.store 0 inviteB = some (.make 1 .secondPlayerRole .firstPlayerRole)
  source : ∃ c player, σ.world.store.clients.get? 0 = some c ∧ c.player = some player
  ids : ∃ c, σ.world.store.clients.get? 1 = some c ∧ ∀ j : Int, j ∈ c.ids ↔ 0 ≤ j ∧ j < n

namespace Server

variable {n : Nat}

theorem inviting_twoPlayers : ∃ σ, Inviting 0 σ := by
  obtain ⟨σ, hreach, hcheck⟩ := Machine.Reach.of_any_run (Server.machine calmEnv) (fun _ _ => True)
    initialServer twoPlayers
    (fun σ => decide (σ.connections 0 = some 1
      ∧ requestOp? σ.world.store 0 inviteB = some (.make 1 .secondPlayerRole .firstPlayerRole)
      ∧ (σ.world.store.clients.get? 0).bind (·.player) = some 0
      ∧ (σ.world.store.clients.get? 1).map (·.inviteHead) = some []))
    (by decide +kernel)
  obtain ⟨hgate, hasks, hplayer, hlist⟩ := of_decide_eq_true hcheck
  obtain ⟨cs, hcs, hplayer⟩ := Option.bind_eq_some_iff.mp hplayer
  obtain ⟨ct, hct, hlist⟩ := Option.map_eq_some_iff.mp hlist
  refine ⟨σ, hreach, hgate, hasks, ⟨cs, 0, hcs, hplayer⟩, ct, hct, fun j => ?_⟩
  simp only [Client.ids, hlist, List.map_nil, List.not_mem_nil, false_iff]
  omega

theorem Inviting.nextId {c : Client} (hids : c.IdsOk) (hall : ∀ j : Int, j ∈ c.ids ↔ 0 ≤ j ∧ j < n)
    : c.nextId = n := by
  obtain ⟨hnonneg, hfree, hleast⟩ := hids.nextId_spec
  rw [hall] at hfree
  rcases Int.lt_or_le n c.nextId with hlt | hle
  . have hmem := hleast n (by omega) hlt
    rw [hall] at hmem
    omega
  . omega

theorem Inviting.run (h : Inviting n σ)
    : ∃ r w', (clientMakeInvitation 0 1 .secondPlayerRole .firstPlayerRole).run calmEnv σ.world
          = .ok (r, w')
        ∧ w'.store = σ.world.store.invite 0 1 .secondPlayerRole .firstPlayerRole
        ∧ ∃ sent, sent ∈ σ.world.sentSince w' ∧ sent.receiver = 1 ∧ sent.hdr.id = UInt8.ofInt n := by
  have hok := ok_of_reach initial_ok h.reachable
  have hv := hok.steady.valid
  obtain ⟨cs, player, hcs, hplayer⟩ := h.source
  obtain ⟨ct, hct, hids⟩ := h.ids
  obtain ⟨p, hp⟩ := hv.player_live hcs hplayer
  have hnext := Inviting.nextId (hv.client 1 ct hct).ids hids
  have halloc : calmEnv.allocOk σ.world.trace.allocs = true := rfl
  have hstuck : makeStuck calmEnv σ.world cs ct = false := by simp [makeStuck, calmEnv]
  refine ⟨cs.nextId, {
    store := σ.world.store.invite 0 1 .secondPlayerRole .firstPlayerRole
    trace := Trace.send
      { σ.world.trace with allocs := σ.world.trace.allocs + 1 + cs.growth + ct.growth } calmEnv 1
      (invitedPacket calmEnv σ.world ct .firstPlayerRole p.name) (some p.name) }, ?_, rfl, ?_⟩
  . rw [clientMakeInvitation_run hv hcs hct (by decide) hplayer hp halloc, hstuck]
    rfl
  . refine ⟨{
      receiver := 1
      hdr := invitedPacket calmEnv σ.world ct .firstPlayerRole p.name
      data := some p.name
      written := true }, ?_, rfl, ?_⟩
    . simp [World.sentSince, Trace.send, calmEnv]
    . rw [← hnext]
      rfl

theorem Inviting.calls {r : Int} (h : Inviting n σ)
    (hrun : (clientMakeInvitation 0 1 .secondPlayerRole .firstPlayerRole).run calmEnv σ.world
      = .ok (r, w'))
    : Calls calmEnv σ (.packet 0 inviteB) σ.world 0 (.make 1 .secondPlayerRole .firstPlayerRole) r
        w' := .request rfl h.gate (by decide) h.asks hrun

theorem Inviting.next (h : Inviting n σ) : ∃ σ', Inviting (n + 1) σ' := by
  have hok := ok_of_reach initial_ok h.reachable
  have hv := hok.steady.valid
  obtain ⟨r, w', hrun, hstore, -⟩ := h.run
  have hkeeps := ((h.calls hrun).effect hok).1.keepsSessions
  obtain ⟨cs, player, hcs, hplayer⟩ := h.source
  obtain ⟨cs', hcs', hplayer', -⟩ := hkeeps.get? hcs
  obtain ⟨ct, hct, hids⟩ := h.ids
  have hnext := Inviting.nextId (hv.client 1 ct hct).ids hids
  have hpacket : PacketType.ofByte? inviteB.hdr.type = some .invite := by decide
  obtain ⟨data, hserve⟩ := servicePacket_run_request hv (by decide : (1 : Int) ≠ 0) h.asks hrun hcs'
  rw [if_pos hpacket] at hserve
  have hstep : (machine calmEnv).step σ (.packet 0 inviteB) = some {
      world := w'.acked calmEnv 0 r none
      connections := σ.connections } := by
    have hsame : Function.update σ.connections 0 (some 1) = σ.connections := by
      rw [← h.gate, Function.update_eq_self]
    simp only [machine, exec, h.gate, hserve, hsame, Except.toOption]
  refine ⟨_, .step h.reachable trivial hstep, h.gate, ?_, ⟨cs', player, hcs', hplayer'.trans hplayer⟩,
    ?_⟩
  . have hasks := h.asks
    simp only [requestOp?, hpacket, inviteOp?] at hasks ⊢
    simpa only [World.acked_store, hkeeps.lookup] using hasks
  . refine ⟨(ct.link σ.world.store.invitations.next).addRef, ?_, fun j => ?_⟩
    . rw [World.acked_store, hstore]
      simp [Store.invite, hct]
    . have hlinked : (ct.link σ.world.store.invitations.next).addRef.ids = (n : Int) :: ct.ids := by
        simp [Client.ids, Client.link, hnext]
      rw [hlinked, List.mem_cons, hids]
      omega

theorem inviting (n : Nat) : ∃ σ, Inviting n σ := by
  induction n with
  | zero => exact inviting_twoPlayers
  | succ n ih =>
    obtain ⟨σ, h⟩ := ih
    exact h.next

theorem Inviting.about (h : Inviting n σ)
    : ∃ w' sent node, About calmEnv σ (.packet 0 inviteB) sent σ.world.store.invitations.next σ.world w'
        ∧ node ∈ w'.store.nodesOf sent.receiver σ.world.store.invitations.next
        ∧ node.id = n := by
  have hok := ok_of_reach initial_ok h.reachable
  obtain ⟨r, w', hrun, hstore, sent, hsent, hreceiver, -⟩ := h.run
  obtain ⟨ct, hct, hids⟩ := h.ids
  have hnext := Inviting.nextId (hok.steady.valid.client 1 ct hct).ids hids
  refine ⟨w', sent, { id := ct.nextId, invitation := σ.world.store.invitations.next },
    .notice (h.calls hrun) hsent rfl, ?_, hnext⟩
  rw [hreceiver, hstore, Store.mem_nodesOf]
  refine ⟨(ct.link σ.world.store.invitations.next).addRef, ?_, ?_, rfl⟩
  . simp [Store.invite, hct]
  . exact List.mem_cons_self

end Server

theorem Store.listed_pos_of_node (hnode : node ∈ s.nodesOf client inv) : 0 < s.listed client inv := by
  rw [listed_eq_length]
  exact List.length_pos_of_mem hnode

theorem packetId_identifies_iff_of_inviting
    : ∃ σ sent inv w', Server.Reachable calmEnv σ
      ∧ Server.About calmEnv σ (.packet 0 inviteB) sent inv σ.world w'
      ∧ ((clientGetInvitation sent.receiver sent.hdr.id.toNat).run calmEnv w' = .ok (some inv, w')
        ↔ σ.world.store.numberFor sent.receiver inv < 256) := by
  obtain ⟨σ, h⟩ := Server.inviting 0
  obtain ⟨w', sent, node, habout, hnode, -⟩ := h.about
  exact ⟨σ, sent, _, w', h.reachable, habout,
    packetId_identifies_iff h.reachable habout .returned (Store.listed_pos_of_node hnode)⟩

/--
After 256 invitations to the same client the INVITED packet for the next one says 0.
-/
theorem not_packetId_identifies
    : ∃ σ sent inv w', Server.Reachable calmEnv σ
      ∧ Server.About calmEnv σ (.packet 0 inviteB) sent inv σ.world w'
      ∧ 0 < w'.store.listed sent.receiver inv
      ∧ (clientGetInvitation sent.receiver sent.hdr.id.toNat).run calmEnv w' ≠ .ok (some inv, w') := by
  obtain ⟨σ, h⟩ := Server.inviting 256
  have hok := Server.ok_of_reach Server.initial_ok h.reachable
  obtain ⟨w', sent, node, habout, hnode, hid⟩ := h.about
  refine ⟨σ, sent, _, w', h.reachable, habout, Store.listed_pos_of_node hnode, ?_⟩
  obtain ⟨client, op, r, hcalls⟩ := habout.calls
  obtain ⟨hv, -⟩ := Server.Follows.returned.ages hok hcalls
  obtain ⟨c, hc, hmem, hinv⟩ := Store.mem_nodesOf.mp hnode
  have hclient := hv.client _ c hc
  have hbyte := hclient.ids.byte_iff hclient.nodup hmem
  rw [clientGetInvitation_run _ hc, (habout.named hok .returned hnode).1]
  rw [hinv] at hbyte
  intro hrun
  simp only [Except.ok.injEq, Prod.mk.injEq, and_true, Store.invitationOf, hc,
    Option.bind_some] at hrun
  have hlt := hbyte.mp hrun
  omega

end Jeux
