import Jeux.Lemmas.Frame

/-!
`client_logout`: its loop is a run of operations, one for each node that the client's list has at
the start.
-/

namespace Jeux

open ServerM

variable {env : Env} {w w' : World} {extra : ClientPtr → Nat} {client : ClientPtr} {c : Client}
  {op : Operation} {r : Int} {inv u : InvitationPtr} {i : Invitation} {node : InvitationNode}
  {nodes : List InvitationNode}

/-! ## A client being served -/

/--
What is enough for the operations that a client asks for: lists that are linked, and a reference to
the client.
-/
structure Store.Holds (s : Store) (extra : ClientPtr → Nat) (client : ClientPtr) : Prop where
  valid : s.Valid extra
  linked : s.Linked
  held : 0 < s.registered client + extra client

structure Store.Serves (s : Store) (extra : ClientPtr → Nat) (client : ClientPtr) : Prop where
  valid : s.Valid extra
  settled : s.Settled
  registered : 0 < s.registered client
  session : ∀ c, s.clients.get? client = some c → c.player ≠ none → c.loggedIn = .loggedIn

theorem Store.Serves.holds {s : Store} (h : s.Serves extra client) : s.Holds extra client where
  valid := h.valid
  linked := h.settled.linked
  held := Nat.lt_of_lt_of_le h.registered (Nat.le_add_right _ _)

theorem Store.Holds.allowed {s : Store} (h : s.Holds extra client)
    (hop : ∀ target sourceRole targetRole, op ≠ .make target sourceRole targetRole)
    : s.Allowed extra client op where
  held := h.held
  invited := fun target sourceRole targetRole heq => absurd heq (hop target sourceRole targetRole)

theorem Store.Serves.callable {s : Store} (h : s.Serves extra client)
    (hop : ∀ target sourceRole targetRole, op ≠ .make target sourceRole targetRole)
    : s.Callable client op where
  registered := h.registered
  session := h.session
  invited := fun target sourceRole targetRole heq => absurd heq (hop target sourceRole targetRole)

theorem Store.Serves.exists_client {s : Store} (h : s.Serves extra client)
    : ∃ c, s.clients.get? client = some c :=
  h.valid.held_live client (by have := h.registered; omega)

theorem Store.KeepsSessions.registered {s s' : Store} (h : s.KeepsSessions s') (x : ClientPtr)
    : s'.registered x = s.registered x := by
  rw [Store.registered, Store.registered, h.clientRegistry]

theorem Effect.holds (h : Effect env w client op r w') (hholds : w.store.Holds extra client)
    (hcall : w.store.Allowed extra client op) : w'.store.Holds extra client where
  valid := h.valid hholds.valid hholds.linked hcall
  linked := h.linked hholds.valid hholds.linked hcall
  held := by
    rw [h.keepsSessions.registered]
    exact hholds.held

theorem Effect.serves (h : Effect env w client op r w') (hserves : w.store.Serves extra client)
    (hcall : w.store.Callable client op) : w'.store.Serves extra client where
  valid := h.valid hserves.valid hserves.settled.linked (hcall.allowed hserves.valid)
  settled := h.settled hserves.valid hserves.settled hcall
  registered := by
    rw [h.keepsSessions.registered]
    exact hserves.registered
  session := by
    intro c' hc' hplayer
    obtain ⟨c, hc, hplayer', hin⟩ := h.keepsSessions.get?_of_get? hc'
    rw [hin]
    exact hserves.session c hc (hplayer' ▸ hplayer)

theorem Store.Serves.effect (h : w.store.Serves extra client) (hcall : w.store.Callable client op)
    (hrun : (op.call client).run env w = .ok (r, w')) : Effect env w client op r w' :=
  (Operation.returned h.valid h.settled.linked (hcall.allowed h.valid) hrun).effect

theorem Store.Valid.invitationOf_node {s : Store} (hv : s.Valid extra)
    (hc : s.clients.get? client = some c) (hnode : node ∈ c.inviteHead)
    : s.invitationOf client node.id = some node.invitation := by
  have hnodup : (c.inviteHead.map (·.id)).Nodup := (hv.client client c hc).ids.nodup
  have hfind : c.nodeWithId? node.id = some node := by
    unfold Client.nodeWithId?
    obtain ⟨found, hfound⟩ : ∃ found, c.inviteHead.find? (·.id = node.id) = some found := by
      rw [← Option.isSome_iff_exists, List.find?_isSome]
      exact ⟨node, hnode, by simp⟩
    have hid : found.id = node.id := by simpa using List.find?_some hfound
    have hmem := List.mem_of_find?_eq_some hfound
    rw [hfound, List.inj_on_of_nodup_map hnodup hmem hnode hid]
  simp [Store.invitationOf, hc, hfind]

/-! ## The loop -/

def logoutOp (client : ClientPtr) (i : Invitation) (id : Int) : Operation :=
  match i.game with
  | some _ => .resign id
  | none => if i.source = client then .revoke id else .decline id

theorem logoutOp_ne_make (client : ClientPtr) (i : Invitation) (id : Int)
    (target : ClientPtr) (sourceRole targetRole : GameRole)
    : logoutOp client i id ≠ .make target sourceRole targetRole := by
  unfold logoutOp
  split
  . simp
  . split <;> simp

theorem subject?_logoutOp (s : Store) (client : ClientPtr) (i : Invitation) (id : Int)
    : (logoutOp client i id).subject? s client = s.invitationOf client id := by
  unfold logoutOp
  split
  . rfl
  . split <;> rfl

/--
`LogoutRun env client w nodes w'`: the loop of `client_logout` can take `w` to `w'` along `nodes`.
-/
inductive LogoutRun (env : Env) (client : ClientPtr) : World → List InvitationNode → World → Prop
  | nil (w : World) : LogoutRun env client w [] w
  | cons {w w₁ w' : World} {c : Client} {i : Invitation} {node : InvitationNode}
      {nodes : List InvitationNode} {r : Int} (hc : w.store.clients.get? client = some c)
      (hnode : node ∈ c.inviteHead) (hi : w.store.invitations.get? node.invitation = some i)
      (heffect : Effect env w client (logoutOp client i node.id) r w₁)
      (hrest : LogoutRun env client w₁ nodes w') : LogoutRun env client w (node :: nodes) w'

theorem logoutNode_eq (hi : w.store.invitations.get? node.invitation = some i)
    : (logoutNode client node).run env w
        =
      ((logoutOp client i node.id).call client >>= fun _ => pure ()).run env w := by
  simp only [logoutNode, run_bind, invGetGame_run hi, logoutOp]
  cases i.game with
  | some game => simp only [run_bind, Operation.call]
  | none =>
    simp only [run_bind, invGetSource_run hi, Option.some.injEq, run_ite]
    split
    . simp only [Operation.call]
    . simp only [Operation.call]

theorem logoutNode_run_op (hi : w.store.invitations.get? node.invitation = some i)
    (hrun : ((logoutOp client i node.id).call client).run env w = .ok (r, w'))
    : (logoutNode client node).run env w = .ok ((), w') := by
  rw [logoutNode_eq hi, run_bind, hrun]
  rfl

theorem logoutNode_holds (hholds : w.store.Holds extra client)
    (hrun : (logoutNode client node).run env w = .ok ((), w'))
    : ∃ i r, w.store.invitations.get? node.invitation = some i
        ∧ Returned env w client (logoutOp client i node.id) r w' := by
  cases hi : w.store.invitations.get? node.invitation with
  | none =>
    simp only [logoutNode, run_bind, invGetGame, run_derefInvitation, hi] at hrun
    simp at hrun
  | some i =>
    rw [logoutNode_eq hi, run_bind] at hrun
    split at hrun
    . next r w₁ hrun₁ =>
      rw [run_pure, Except.ok.injEq, Prod.mk.injEq] at hrun
      have hreturned := Operation.returned hholds.valid hholds.linked
        (hholds.allowed (logoutOp_ne_make client i node.id)) hrun₁
      exact ⟨i, r, rfl, hrun.2 ▸ hreturned⟩
    . simp at hrun

theorem logoutNode_run (env : Env) (hserves : w.store.Serves extra client)
    (hi : w.store.invitations.get? node.invitation = some i)
    : ∃ r w', (logoutNode client node).run env w = .ok ((), w')
        ∧ Effect env w client (logoutOp client i node.id) r w' := by
  have hholds := hserves.holds
  have htotal : ∃ r w', ((logoutOp client i node.id).call client).run env w = .ok (r, w')
      ∧ Effect env w client (logoutOp client i node.id) r w' := by
    unfold logoutOp
    cases i.game with
    | some game =>
      exact (Operation.outcome_resign env node.id hholds.valid hholds.linked hholds.held).settled
        hserves.valid hserves.settled (by simp)
    | none =>
      dsimp only
      split
      . exact (Operation.outcome_revoke env node.id hholds.valid hholds.linked
          hholds.held).settled hserves.valid hserves.settled (by simp)
      . exact (Operation.outcome_decline env node.id hholds.valid hholds.linked
          hholds.held).settled hserves.valid hserves.settled (by simp)
  obtain ⟨r, w', hrun, heffect⟩ := htotal
  exact ⟨r, w', logoutNode_run_op hi hrun, heffect⟩

theorem Store.SameAt.node_mem {s s' : Store} (h : s.SameAt s' node.invitation)
    (hc : s.clients.get? client = some c) (hnode : node ∈ c.inviteHead)
    : ∃ c', s'.clients.get? client = some c' ∧ node ∈ c'.inviteHead := by
  have hmem : node ∈ s'.nodesOf client node.invitation := by
    rw [h.nodes client, nodesOf_of_get? hc]
    exact Client.mem_nodesFor.mpr ⟨hnode, rfl⟩
  cases hc' : s'.clients.get? client with
  | none => simp [nodesOf, hc'] at hmem
  | some c' =>
    rw [nodesOf_of_get? hc'] at hmem
    exact ⟨c', rfl, (Client.mem_nodesFor.mp hmem).1⟩

theorem Effect.nodes_mem {rest : List InvitationNode}
    (heffect : Effect env w client (logoutOp client i node.id) r w')
    (hv : w.store.Valid extra) (hl : w.store.Linked) (hc : w.store.clients.get? client = some c)
    (hnodes : ∀ node' ∈ node :: rest, node' ∈ c.inviteHead)
    (hnodup : ((node :: rest).map (·.invitation)).Nodup)
    : ∃ c', w'.store.clients.get? client = some c' ∧ ∀ other ∈ rest, other ∈ c'.inviteHead := by
  rw [List.map_cons, List.nodup_cons] at hnodup
  obtain ⟨c₁, hc₁, -⟩ := heffect.keepsSessions.get? hc
  refine ⟨c₁, hc₁, ?_⟩
  intro other hother
  have hne : (logoutOp client i node.id).subject? w.store client ≠ some other.invitation := by
    rw [subject?_logoutOp, hv.invitationOf_node hc (hnodes node (List.mem_cons_self ..)), ne_eq,
      Option.some.injEq]
    intro heq
    rw [heq] at hnodup
    exact hnodup.1 (List.mem_map_of_mem hother)
  obtain ⟨c', hc', hmem⟩ := (heffect.sameAt hv hl hne).node_mem hc
    (hnodes other (List.mem_cons_of_mem _ hother))
  rw [hc₁, Option.some.injEq] at hc'
  exact hc' ▸ hmem

theorem logoutLoop_run (env : Env) (hserves : w.store.Serves extra client)
    (hc : w.store.clients.get? client = some c) (hnodes : ∀ node ∈ nodes, node ∈ c.inviteHead)
    (hnodup : (nodes.map (·.invitation)).Nodup)
    : ∃ w', (logoutLoop client nodes).run env w = .ok ((), w')
        ∧ LogoutRun env client w nodes w' := by
  induction nodes generalizing w c with
  | nil => exact ⟨w, rfl, .nil w⟩
  | cons node rest ih =>
    have hnode := hnodes node (List.mem_cons_self ..)
    obtain ⟨i, hi, -⟩ := (hserves.valid.client client c hc).mine node.invitation
      (List.mem_map_of_mem hnode)
    obtain ⟨r, w₁, hrun, heffect⟩ := logoutNode_run env hserves hi
    have hserves₁ := heffect.serves hserves (hserves.callable (logoutOp_ne_make client i node.id))
    obtain ⟨c₁, hc₁, hrest⟩ :=
      heffect.nodes_mem hserves.valid hserves.settled.linked hc hnodes hnodup
    obtain ⟨w', hloop, hlogout⟩ := ih hserves₁ hc₁ hrest (List.nodup_cons.mp hnodup).2
    refine ⟨w', ?_, .cons hc hnode hi heffect hlogout⟩
    simp only [logoutLoop, run_bind, hrun, hloop]

theorem logoutLoop_holds (hholds : w.store.Holds extra client)
    (hc : w.store.clients.get? client = some c) (hnodes : ∀ node ∈ nodes, node ∈ c.inviteHead)
    (hnodup : (nodes.map (·.invitation)).Nodup)
    (hrun : (logoutLoop client nodes).run env w = .ok ((), w'))
    : LogoutRun env client w nodes w' ∧ (w.store.Counted → w'.store.Counted) := by
  induction nodes generalizing w c with
  | nil =>
    rw [logoutLoop, run_pure, Except.ok.injEq, Prod.mk.injEq] at hrun
    exact hrun.2 ▸ ⟨.nil w, id⟩
  | cons node rest ih =>
    rw [logoutLoop, run_bind] at hrun
    split at hrun
    . next w₁ hrun₁ =>
      obtain ⟨i, r, hi, heffect, hcounted⟩ := logoutNode_holds hholds hrun₁
      have hholds₁ := heffect.holds hholds (hholds.allowed (logoutOp_ne_make client i node.id))
      obtain ⟨c₁, hc₁, hrest⟩ := heffect.nodes_mem hholds.valid hholds.linked hc hnodes hnodup
      obtain ⟨hloop, hcounted₁⟩ := ih hholds₁ hc₁ hrest (List.nodup_cons.mp hnodup).2 hrun
      exact ⟨.cons hc (hnodes node (List.mem_cons_self ..)) hi heffect hloop,
        fun h => hcounted₁ (hcounted h)⟩
    . simp at hrun

theorem LogoutRun.holds (h : LogoutRun env client w nodes w')
    (hholds : w.store.Holds extra client) : w'.store.Holds extra client := by
  induction h with
  | nil => exact hholds
  | cons _ _ _ heffect _ ih =>
    exact ih (heffect.holds hholds (hholds.allowed (logoutOp_ne_make _ _ _)))

theorem LogoutRun.serves (h : LogoutRun env client w nodes w')
    (hserves : w.store.Serves extra client) : w'.store.Serves extra client := by
  induction h with
  | nil => exact hserves
  | cons _ _ _ heffect _ ih =>
    exact ih (heffect.serves hserves (hserves.callable (logoutOp_ne_make _ _ _)))

theorem LogoutRun.keepsSessions (h : LogoutRun env client w nodes w')
    : w.store.KeepsSessions w'.store := by
  induction h with
  | nil => exact .refl _
  | cons _ _ _ heffect _ ih => exact heffect.keepsSessions.trans ih

theorem LogoutRun.extends (h : LogoutRun env client w nodes w') : w.store.Extends w'.store := by
  induction h with
  | nil => exact .refl _
  | cons _ _ _ heffect _ ih => exact heffect.extends.trans ih

theorem LogoutRun.sameAt (h : LogoutRun env client w nodes w')
    (hserves : w.store.Serves extra client) (hu : u ∉ nodes.map (·.invitation))
    : w.store.SameAt w'.store u := by
  induction h with
  | nil => exact .refl _ _
  | cons hc hnode _ heffect _ ih =>
    rw [List.map_cons, List.mem_cons, not_or] at hu
    have hsame := heffect.sameAt hserves.valid hserves.settled.linked (u := u) (by
      rw [subject?_logoutOp, hserves.valid.invitationOf_node hc hnode]
      simpa using Ne.symm hu.1)
    exact hsame.trans
      (ih (heffect.serves hserves (hserves.callable (logoutOp_ne_make _ _ _))) hu.2)

/-! ## After the loop -/

theorem Store.not_active_of_closed {s : Store} (h : s.stateAt inv = some .closedState)
    : ∀ i, s.invitations.get? inv = some i → ¬ i.Active := by
  intro i hi hactive
  rw [stateAt_of_get? hi, Option.some.injEq] at h
  simp [Invitation.Active, h] at hactive

theorem Effect.inactive_of_logoutOp {id : Int}
    (h : Effect env w client (logoutOp client i id) r w') (hserves : w.store.Serves extra client)
    (hnamed : w.store.invitationOf client id = some inv)
    (hi : w.store.invitations.get? inv = some i)
    : ∀ i', w'.store.invitations.get? inv = some i' → ¬ i'.Active := by
  have hok := hserves.valid.invitation inv i hi
  have hself : ∀ inv', w.store.invitationOf client id = some inv' → inv' = inv :=
    fun inv' hnamed' => Option.some.inj (hnamed'.symm.trans hnamed)
  cases hgame : i.game with
  | some game =>
    rw [logoutOp, hgame] at h
    cases h with
    | refused _ _ hno =>
      intro i' hi' hactive
      rw [hi, Option.some.injEq] at hi'
      subst hi'
      cases hactive with
      | inl hopen => exact hok.state_ne_open (by simp [hgame]) hopen
      | inr haccepted => exact hno ⟨inv, i, game, hnamed, hi, haccepted.1, hgame⟩
    | resignUnsent hplay =>
      have heq := hself _ hplay.named
      subst heq
      exact Store.not_active_of_closed (Store.stateAt_close hi)
    | resigned hplay =>
      have heq := hself _ hplay.named
      subst heq
      apply Store.not_active_of_closed
      rw [World.conclude, Store.stateAt_dissolve, Store.stateAt_post]
      exact Store.stateAt_close hi
  | none =>
    have hrefused : ¬ (∃ inv i, w.store.Open client id inv i) → ¬ i.Active := by
      intro hno hactive
      cases hactive with
      | inl hopen => exact hno ⟨inv, i, hnamed, hi, hopen⟩
      | inr haccepted => exact haccepted.2 hgame
    by_cases hsource : i.source = client
    . rw [logoutOp, hgame] at h
      simp only [hsource, ↓reduceIte] at h
      cases h with
      | refused _ _ hno =>
        intro i' hi'
        rw [hi, Option.some.injEq] at hi'
        exact hi' ▸ hrefused hno
      | revokeUnsent hopen =>
        have heq := hself _ hopen.named
        subst heq
        exact Store.not_active_of_closed (Store.stateAt_close hi)
      | revoked hopen =>
        have heq := hself _ hopen.named
        subst heq
        apply Store.not_active_of_closed
        rw [Store.stateAt_dissolve]
        exact Store.stateAt_close hi
      | revokedByTarget hopen =>
        have heq := hself _ hopen.named
        subst heq
        apply Store.not_active_of_closed
        rw [Store.stateAt_drop]
        exact Store.stateAt_close hi
    . rw [logoutOp, hgame] at h
      simp only [hsource, ↓reduceIte] at h
      cases h with
      | refused _ _ hno =>
        intro i' hi'
        rw [hi, Option.some.injEq] at hi'
        exact hi' ▸ hrefused hno
      | declined hopen =>
        have heq := hself _ hopen.named
        subst heq
        apply Store.not_active_of_closed
        rw [Store.stateAt_dissolve]
        exact Store.stateAt_close hi
      | declinedBySource hopen =>
        have heq := hself _ hopen.named
        subst heq
        apply Store.not_active_of_closed
        rw [Store.stateAt_drop]
        exact Store.stateAt_close hi

theorem LogoutRun.inactive (h : LogoutRun env client w nodes w')
    (hserves : w.store.Serves extra client) (hnodup : (nodes.map (·.invitation)).Nodup)
    : ∀ node ∈ nodes, ∀ i, w'.store.invitations.get? node.invitation = some i → ¬ i.Active := by
  induction h with
  | nil => simp
  | cons hc hnode hi heffect hrest ih =>
    rw [List.map_cons, List.nodup_cons] at hnodup
    have hserves₁ := heffect.serves hserves (hserves.callable (logoutOp_ne_make _ _ _))
    intro node' hnode' i' hi'
    cases List.mem_cons.mp hnode' with
    | inl heq =>
      subst heq
      rw [(hrest.sameAt hserves₁ hnodup.1).invitation] at hi'
      exact heffect.inactive_of_logoutOp hserves (hserves.valid.invitationOf_node hc hnode) hi i' hi'
    | inr hmem => exact ih hserves₁ hnodup.2 node' hmem i' hi'

theorem LogoutRun.idle (h : LogoutRun env client w c.inviteHead w')
    (hserves : w.store.Serves extra client) (hc : w.store.clients.get? client = some c)
    : ∀ inv i, w'.store.invitations.get? inv = some i → i.Active →
      i.source ≠ client ∧ i.target ≠ client := by
  have hserves' := h.serves hserves
  have hnodup : (c.inviteHead.map (·.invitation)).Nodup :=
    (hserves.valid.client client c hc).nodup
  intro inv i hi hactive
  rw [← not_or]
  intro hor
  obtain ⟨c', hc', hmem, -⟩ := hserves'.settled.participant hserves'.valid hi hactive hor
  have hlisted : 0 < w'.store.listed client inv := by
    rw [hserves'.valid.listed_eq_one hc' hmem]
    exact Nat.one_pos
  by_cases hinv : inv ∈ c.inviteHead.map (·.invitation)
  . obtain ⟨node, hnode, rfl⟩ := List.mem_map.mp hinv
    exact h.inactive hserves hnodup node hnode i hi hactive
  . rw [(h.sameAt hserves hinv).listed] at hlisted
    exact hinv (Store.mem_of_listed hc hlisted)

theorem logoutTail_run {player : PlayerPtr} {p : Player}
    (hc : w.store.clients.get? client = some c) (hplayer : c.player = some player)
    (hp : w.store.players.get? player = some p) (href : p.refCount ≠ 1)
    : (logoutTail client).run env w
        =
      .ok ((), { w with store := w.store.leave client player }) := by
  simp only [logoutTail, run_bind, run_derefClient, hc, hplayer, run_nonNull_some,
    playerUnref_run hp href, run_modifyStore]
  rfl

theorem Store.Valid.session_player {s : Store} (hv : s.Valid extra)
    (hc : s.clients.get? client = some c) (hin : c.loggedIn = .loggedIn)
    : ∃ player p, c.player = some player ∧ s.players.get? player = some p ∧ p.refCount ≠ 1 := by
  obtain ⟨player, hplayer⟩ :=
    Option.ne_none_iff_exists'.mp ((hv.client client c hc).player hin)
  obtain ⟨p, hp, href⟩ := hv.player player ((hv.client client c hc).known player hplayer)
  have hsession : 0 < s.sessions player := by
    unfold sessions
    exact Heap.countP_pos hc (by simp [hin, hplayer])
  exact ⟨player, p, hplayer, hp, by omega⟩

theorem clientLogout_run (env : Env) (hserves : w.store.Serves extra client)
    (hc : w.store.clients.get? client = some c) (hin : c.loggedIn = .loggedIn)
    : ∃ w₁ player, c.player = some player ∧ LogoutRun env client w c.inviteHead w₁
        ∧ (clientLogout client).run env w
            = .ok (0, { w₁ with store := w₁.store.leave client player }) := by
  obtain ⟨w₁, hloop, hlogout⟩ := logoutLoop_run env hserves hc (fun _ hnode => hnode)
    (hserves.valid.client client c hc).nodup
  obtain ⟨c₁, hc₁, hplayer₁, hin₁⟩ := hlogout.keepsSessions.get? hc
  obtain ⟨player, p, hplayer, hp, href⟩ :=
    (hlogout.serves hserves).valid.session_player hc₁ (hin₁.trans hin)
  refine ⟨w₁, player, hplayer₁ ▸ hplayer, hlogout, ?_⟩
  simp only [clientLogout, run_bind, run_derefClient, hc, hin, ne_eq, not_true_eq_false, ↓reduceIte,
    hloop, logoutTail_run hc₁ hplayer hp href, run_pure]

theorem clientLogout_run_loggedOut (hc : w.store.clients.get? client = some c)
    (hout : c.loggedIn = .loggedOut) : (clientLogout client).run env w = .ok (-1, w) := by
  simp only [clientLogout, run_bind, run_derefClient, hc, hout, ne_eq, reduceCtorEq,
    not_false_eq_true, ↓reduceIte, run_pure]

end Jeux
