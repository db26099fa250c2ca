import Jeux.Lemmas.Sessions

/-!
`creg_unregister` of a client that is still logged in. Nothing in `client_logout` looks at the
registry, so it does the same in the middle of `creg_unregister` as it does before.
-/

namespace Jeux

open ServerM

variable {α β : Type} {env : Env} {w w' : World}

def World.withRegistry (w : World) (cr : ClientRegistry) : World where
  store := { w.store with clientRegistry := cr }
  trace := w.trace

def Blind (x : ServerM α) : Prop := ∀ env w cr,
  x.run env (w.withRegistry cr) = (x.run env w).map fun p => (p.1, p.2.withRegistry cr)

namespace Blind

/-! ## Programs are put together -/

theorem pure (a : α) : Blind (pure a : ServerM α) := fun _ _ _ => rfl

theorem fault (f : Fault) : Blind (fault f : ServerM α) := fun _ _ _ => rfl

theorem bind {x : ServerM α} {f : α → ServerM β} (hx : Blind x) (hf : ∀ a, Blind (f a))
    : Blind (x >>= f) := by
  intro env w cr
  rw [run_bind, run_bind, hx env w cr]
  cases x.run env w with
  | error e => rfl
  | ok p => exact hf p.1 env p.2 cr

theorem ite {c : Prop} [Decidable c] {x y : ServerM α} (hx : Blind x) (hy : Blind y)
    : Blind (if c then x else y) := by
  split
  . exact hx
  . exact hy

theorem nonNull (ptr : Option α) : Blind (nonNull ptr) := by
  cases ptr with
  | none => exact fault _
  | some p => exact pure p

theorem read : Blind (read : ServerM Env) := fun _ _ _ => rfl

theorem newHeader (type : PacketType) (id : Int) (role : GameRole) (size : Nat)
    : Blind (newHeader type id role size) := fun _ _ _ => rfl

theorem modifyTrace (f : Trace → Trace) : Blind (modifyTrace f) := fun _ _ _ => rfl

theorem modifyStore {f : Store → Store}
    (hf : ∀ s cr, f { s with clientRegistry := cr } = { f s with clientRegistry := cr })
    : Blind (modifyStore f) := by
  intro env w cr
  rw [run_modifyStore, run_modifyStore]
  show Except.ok ((), World.mk (f { w.store with clientRegistry := cr }) w.trace) = _
  rw [hf w.store cr]
  rfl

theorem lookup {x : ServerM α} {o : Store → Option α}
    (hx : ∀ env w, x.run env w = (o w.store).elim (.error .useAfterFree) fun a => .ok (a, w))
    (ho : ∀ s cr, o { s with clientRegistry := cr } = o s) : Blind x := by
  intro env w cr
  rw [hx env w, hx, show o (w.withRegistry cr).store = o w.store from ho w.store cr]
  cases o w.store with
  | none => rfl
  | some a => rfl

theorem derefClient (client : ClientPtr) : Blind (derefClient client) := by
  apply lookup (o := fun s => s.clients.get? client)
  . intro env w
    rw [run_derefClient]
    cases w.store.clients.get? client <;> rfl
  . exact fun _ _ => rfl

theorem derefPlayer (player : PlayerPtr) : Blind (derefPlayer player) := by
  apply lookup (o := fun s => s.players.get? player)
  . intro env w
    rw [run_derefPlayer]
    cases w.store.players.get? player <;> rfl
  . exact fun _ _ => rfl

theorem derefInvitation (inv : InvitationPtr) : Blind (derefInvitation inv) := by
  apply lookup (o := fun s => s.invitations.get? inv)
  . intro env w
    rw [run_derefInvitation]
    cases w.store.invitations.get? inv <;> rfl
  . exact fun _ _ => rfl

theorem derefGame (game : GamePtr) : Blind (derefGame game) := by
  apply lookup (o := fun s => s.games.get? game)
  . intro env w
    rw [run_derefGame]
    cases w.store.games.get? game <;> rfl
  . exact fun _ _ => rfl

theorem clientSendPacket (client : ClientPtr) (pkt : PacketHeader) (data : Option CString)
    : Blind (clientSendPacket client pkt data) :=
  bind (derefClient client) fun _ _ _ _ => rfl

/-! ## The calls of `client_logout` -/

theorem clientGetPlayer (client : ClientPtr) : Blind (clientGetPlayer client) := by
  apply bind (derefClient client)
  intro c
  exact pure _

theorem playerUnref (player : PlayerPtr) : Blind (playerUnref player) := by
  apply bind (derefPlayer player)
  intro p
  apply bind (modifyStore fun _ _ => rfl)
  intro _
  exact ite (modifyStore fun _ _ => rfl) (pure _)

theorem logoutTail (client : ClientPtr) : Blind (logoutTail client) := by
  apply bind (derefClient client)
  intro c
  apply bind (nonNull c.player)
  intro player
  apply bind (playerUnref player)
  intro _
  exact modifyStore fun _ _ => rfl

theorem clientUnref (client : ClientPtr) : Blind (clientUnref client) := by
  apply bind (derefClient client)
  intro c
  apply bind (modifyStore fun _ _ => rfl)
  intro _
  apply ite _ (pure _)
  have hfree : Blind (ServerM.modifyStore fun s => { s with clients := s.clients.free client }) :=
    modifyStore fun _ _ => rfl
  apply ite _ hfree
  apply ite
  . exact bind (logoutTail client) fun _ => hfree
  . exact bind (fault _) fun _ => hfree

theorem gameUnref (game : GamePtr) : Blind (gameUnref game) := by
  apply bind (derefGame game)
  intro g
  apply bind (modifyStore fun _ _ => rfl)
  intro _
  exact ite (modifyStore fun _ _ => rfl) (pure _)

theorem invUnref (inv : InvitationPtr) : Blind (invUnref inv) := by
  apply bind (derefInvitation inv)
  intro i
  apply bind (modifyStore fun _ _ => rfl)
  intro _
  apply ite _ (pure _)
  have hends : Blind (do
      Jeux.clientUnref i.source
      Jeux.clientUnref i.target
      ServerM.modifyStore fun s => { s with invitations := s.invitations.free inv }) := by
    apply bind (clientUnref i.source)
    intro _
    apply bind (clientUnref i.target)
    intro _
    exact modifyStore fun _ _ => rfl
  split
  . exact bind (gameUnref _) fun _ => hends
  . exact hends

theorem purgeId (client : ClientPtr) (id : Int) : Blind (purgeId client id) := by
  apply bind (derefClient client)
  intro c
  apply ite (fault _)
  exact ite (fault _) (modifyStore fun _ _ => rfl)

theorem clientRemoveInvitation (client : ClientPtr) (inv : InvitationPtr)
    : Blind (clientRemoveInvitation client inv) := by
  apply bind (derefClient client)
  intro c
  split
  . exact pure _
  . next node _ =>
    apply bind (modifyStore fun _ _ => rfl)
    intro _
    apply bind (invUnref inv)
    intro _
    exact bind (purgeId client node.id) fun _ => pure _

theorem clientGetInvitation (client : ClientPtr) (id : Int)
    : Blind (clientGetInvitation client id) := bind (derefClient client) fun _ => pure _

theorem clientGetInvitationId (client : ClientPtr) (inv : InvitationPtr)
    : Blind (clientGetInvitationId client inv) := by
  apply bind (derefClient client)
  intro c
  split
  . exact pure _
  . exact pure _

theorem invGetSource (inv : Option InvitationPtr) : Blind (invGetSource inv) := by
  cases inv with
  | none => exact pure _
  | some inv => exact bind (derefInvitation inv) fun _ => pure _

theorem invGetTarget (inv : Option InvitationPtr) : Blind (invGetTarget inv) := by
  cases inv with
  | none => exact pure _
  | some inv => exact bind (derefInvitation inv) fun _ => pure _

theorem invGetGame (inv : Option InvitationPtr) : Blind (invGetGame inv) := by
  cases inv with
  | none => exact pure _
  | some inv => exact bind (derefInvitation inv) fun _ => pure _

theorem invGetSourceRole (inv : InvitationPtr) : Blind (invGetSourceRole inv) :=
  bind (derefInvitation inv) fun _ => pure _

theorem invGetTargetRole (inv : InvitationPtr) : Blind (invGetTargetRole inv) :=
  bind (derefInvitation inv) fun _ => pure _

theorem invClose (inv : Option InvitationPtr) (role : GameRole) : Blind (invClose inv role) := by
  cases inv with
  | none => exact pure _
  | some inv =>
    apply bind (derefInvitation inv)
    intro i
    split
    . exact pure _
    . split
      . exact pure _
      . next game _ =>
        apply ite (pure _)
        apply bind (derefGame game)
        intro g
        apply bind (modifyStore fun _ _ => rfl)
        intro _
        exact bind (modifyStore fun _ _ => rfl) fun _ => pure _
    . apply ite (pure _)
      apply ite (pure _)
      exact bind (modifyStore fun _ _ => rfl) fun _ => pure _

theorem participant (client : ClientPtr) (inv : Option InvitationPtr)
    : Blind (participant client inv) := by
  apply bind (invGetSource inv)
  intro source
  apply ite
  . apply bind (nonNull inv)
    intro inv'
    apply bind (invGetSourceRole inv')
    intro role
    apply bind (invGetTarget _)
    intro target
    apply bind (nonNull target)
    intro opponent
    exact bind (invGetTargetRole inv') fun _ => pure _
  . apply bind (invGetTarget inv)
    intro target
    apply ite _ (pure _)
    apply bind (nonNull inv)
    intro inv'
    apply bind (invGetTargetRole inv')
    intro role
    apply bind (invGetSource _)
    intro source
    apply bind (nonNull source)
    intro opponent
    exact bind (invGetSourceRole inv') fun _ => pure _

theorem playerPostResult (player1 player2 : PlayerPtr) (result : GameRole)
    : Blind (playerPostResult player1 player2 result) := by
  apply bind (modifyTrace _)
  intro _
  apply ite (pure _)
  apply bind (derefPlayer player1)
  intro p1
  apply bind (derefPlayer player2)
  intro p2
  apply bind read
  intro env
  exact bind (modifyStore fun _ _ => rfl) fun _ => modifyStore fun _ _ => rfl

theorem postPlayerResults (client opponent : ClientPtr) (clientRole winner : GameRole)
    : Blind (postPlayerResults client opponent clientRole winner) := by
  have hpost (player1 player2 : PlayerPtr)
      : Blind (Jeux.playerPostResult player1 player2 winner >>= fun _ => (return 0 : ServerM Int)) :=
    bind (playerPostResult player1 player2 winner) fun _ => pure _
  apply ite
  . apply bind (clientGetPlayer client)
    intro player1
    apply bind (clientGetPlayer opponent)
    intro player2
    cases player1 with
    | none => exact pure _
    | some player1 =>
      cases player2 with
      | none => exact pure _
      | some player2 => exact hpost player1 player2
  . apply bind (clientGetPlayer opponent)
    intro player1
    apply bind (clientGetPlayer client)
    intro player2
    cases player1 with
    | none => exact pure _
    | some player1 =>
      cases player2 with
      | none => exact pure _
      | some player2 => exact hpost player1 player2

theorem clientRevokeInvitation (client : ClientPtr) (id : Int)
    : Blind (clientRevokeInvitation client id) := by
  apply bind (clientGetInvitation client id)
  intro inv
  apply bind (invClose inv _)
  intro r
  apply ite (pure _)
  apply bind (invGetTarget inv)
  intro target
  apply bind (nonNull target)
  intro target
  apply bind (nonNull inv)
  intro inv
  apply bind (clientGetInvitationId target inv)
  intro targetId
  apply bind (newHeader _ _ _ _)
  intro pkt
  apply bind (clientSendPacket target pkt none)
  intro sent
  apply ite (pure _)
  apply bind (clientRemoveInvitation client inv)
  intro removed
  apply ite (pure _)
  apply bind (clientRemoveInvitation target inv)
  intro removed
  exact ite (pure _) (pure _)

theorem clientDeclineInvitation (client : ClientPtr) (id : Int)
    : Blind (clientDeclineInvitation client id) := by
  apply bind (clientGetInvitation client id)
  intro inv
  apply bind (invClose inv _)
  intro r
  apply ite (pure _)
  apply bind (invGetSource inv)
  intro source
  apply bind (nonNull source)
  intro source
  apply bind (nonNull inv)
  intro inv
  apply bind (clientGetInvitationId source inv)
  intro sourceId
  apply bind (newHeader _ _ _ _)
  intro pkt
  apply bind (clientSendPacket source pkt none)
  intro _
  apply bind (clientRemoveInvitation client inv)
  intro _
  exact bind (clientRemoveInvitation source inv) fun _ => pure _

theorem clientResignGame (client : ClientPtr) (id : Int) : Blind (clientResignGame client id) := by
  apply bind (clientGetInvitation client id)
  intro inv
  apply bind (participant client inv)
  intro found
  split
  . exact pure _
  . next role opponent opponentRole =>
    apply bind (invClose inv role)
    intro r
    apply ite (pure _)
    apply bind (nonNull inv)
    intro inv
    apply bind (clientGetInvitationId opponent inv)
    intro opponentId
    apply bind (newHeader _ _ _ _)
    intro pkt
    apply bind (clientSendPacket opponent pkt none)
    intro sent
    apply ite (pure _)
    apply bind (postPlayerResults client opponent role opponentRole)
    intro posted
    apply ite (pure _)
    apply bind (clientRemoveInvitation client inv)
    intro removed
    apply ite (pure _)
    apply bind (clientRemoveInvitation opponent inv)
    intro removed
    exact ite (pure _) (pure _)

theorem logoutNode (client : ClientPtr) (node : InvitationNode) : Blind (logoutNode client node) := by
  apply bind (invGetGame _)
  intro game
  split
  . exact bind (clientResignGame client node.id) fun _ => pure _
  . apply bind (invGetSource _)
    intro source
    apply ite
    . exact bind (clientRevokeInvitation client node.id) fun _ => pure _
    . exact bind (clientDeclineInvitation client node.id) fun _ => pure _

theorem logoutLoop (client : ClientPtr) (nodes : List InvitationNode)
    : Blind (logoutLoop client nodes) := by
  induction nodes with
  | nil => exact pure _
  | cons node rest ih => exact bind (logoutNode client node) fun _ => ih

theorem clientLogout (client : ClientPtr) : Blind (clientLogout client) := by
  apply bind (derefClient client)
  intro c
  apply ite (pure _)
  apply bind (logoutLoop client c.inviteHead)
  intro _
  exact bind (logoutTail client) fun _ => pure _

end Blind

/-! ## `client_logout` and `creg_unregister` when they return -/

variable {extra : ClientPtr → Nat} {client : ClientPtr} {c : Client} {r : Int} {i : Nat}

/--
`LogsOut env client w w'`: a `client_logout` that returns has taken `w` to `w'`.
-/
inductive LogsOut (env : Env) (client : ClientPtr) (w : World) : World → Prop
  | out {c : Client} (hc : w.store.clients.get? client = some c) (hout : c.loggedIn = .loggedOut)
      : LogsOut env client w w
  | left {c : Client} {player : PlayerPtr} {w₁ : World}
      (hc : w.store.clients.get? client = some c) (hin : c.loggedIn = .loggedIn)
      (hplayer : c.player = some player) (hrun : LogoutRun env client w c.inviteHead w₁)
      (hcounted : w.store.Counted → w₁.store.Counted)
      : LogsOut env client w { w₁ with store := w₁.store.leave client player }

theorem clientLogout_left (hv : w.store.Valid extra) (hl : w.store.Linked)
    (hc : w.store.clients.get? client = some c) (hin : c.loggedIn = .loggedIn)
    (hrun : (clientLogout client).run env w = .ok (r, w'))
    : ∃ player w₁, c.player = some player
        ∧ (logoutLoop client c.inviteHead).run env w = .ok ((), w₁)
        ∧ LogoutRun env client w c.inviteHead w₁ ∧ (w.store.Counted → w₁.store.Counted)
        ∧ w' = { w₁ with store := w₁.store.leave client player } := by
  have hholds : w.store.Holds extra client := ⟨hv, hl, (hv.client client c hc).held hin⟩
  simp only [clientLogout, run_bind, run_derefClient, hc, hin, ne_eq, not_true_eq_false,
    ↓reduceIte] at hrun
  split at hrun
  . next w₁ hloop =>
    obtain ⟨hlogout, hcounted⟩ := logoutLoop_holds hholds hc (fun _ hnode => hnode)
      (hv.client client c hc).nodup hloop
    obtain ⟨c₁, hc₁, hplayer₁, hin₁⟩ := hlogout.keepsSessions.get? hc
    obtain ⟨player, p, hplayer, hp, href⟩ :=
      (hlogout.holds hholds).valid.session_player hc₁ (hin₁.trans hin)
    rw [logoutTail_run hc₁ hplayer hp href] at hrun
    simp only [run_pure, Except.ok.injEq, Prod.mk.injEq] at hrun
    exact ⟨player, w₁, hplayer₁ ▸ hplayer, hloop, hlogout, hcounted, hrun.2.symm⟩
  . simp at hrun

theorem clientLogout_logsOut (hv : w.store.Valid extra) (hl : w.store.Linked)
    (hrun : (clientLogout client).run env w = .ok (r, w')) : LogsOut env client w w' := by
  cases hc : w.store.clients.get? client with
  | none =>
    simp only [clientLogout, run_bind, run_derefClient, hc] at hrun
    simp at hrun
  | some c =>
    cases hstate : c.loggedIn with
    | loggedOut =>
      rw [clientLogout_run_loggedOut hc hstate, Except.ok.injEq, Prod.mk.injEq] at hrun
      exact hrun.2 ▸ .out hc hstate
    | loggedIn =>
      obtain ⟨player, w₁, hplayer, -, hlogout, hcounted, rfl⟩ :=
        clientLogout_left hv hl hc hstate hrun
      exact .left hc hstate hplayer hlogout hcounted

theorem LogsOut.loggedOut (h : LogsOut env client w w')
    : ∃ c, w'.store.clients.get? client = some c ∧ c.loggedIn = .loggedOut := by
  cases h with
  | out hc hout => exact ⟨_, hc, hout⟩
  | left hc _ _ hrun =>
    obtain ⟨c₁, hc₁, -⟩ := hrun.keepsSessions.get? hc
    exact ⟨{ c₁ with loggedIn := .loggedOut }, by simp [hc₁], rfl⟩

theorem LogsOut.clientRegistry (h : LogsOut env client w w')
    : w'.store.clientRegistry = w.store.clientRegistry := by
  cases h with
  | out => rfl
  | left _ _ _ hrun => exact hrun.keepsSessions.clientRegistry

/--
The logout in the middle of `creg_unregister` may as well come before it.
-/
theorem cregUnregister_run_logout (hi : w.store.clientRegistry.slotOf? client = some i)
    (hlogout : (clientLogout client).run env w = .ok (r, w')) (hout : LogsOut env client w w')
    : (cregUnregister client).run env w = (cregUnregister client).run env w' := by
  obtain ⟨c, hc, hstate⟩ := hout.loggedOut
  have hshift : ∀ w : World, (modifyRegistry (·.shift i)).run env w
      = .ok ((), w.withRegistry (w.store.clientRegistry.shift i)) := fun _ => rfl
  have hblind := Blind.clientLogout client env w (w.store.clientRegistry.shift i)
  have hagain : (clientLogout client).run env (w'.withRegistry (w'.store.clientRegistry.shift i))
      = .ok (-1, w'.withRegistry (w'.store.clientRegistry.shift i)) :=
    clientLogout_run_loggedOut hc hstate
  rw [hlogout] at hblind
  have hi' : w'.store.clientRegistry.slotOf? client = some i := by rw [hout.clientRegistry, hi]
  simp only [cregUnregister, run_bind, run_getStore, hi, hi', hshift, hagain, hblind]
  rw [hout.clientRegistry]
  rfl

/--
`Unregisters env client w w'`: a `creg_unregister` that returns has taken `w` to `w'`.
-/
inductive Unregisters (env : Env) (client : ClientPtr) (w : World) : World → Prop
  | unknown : Unregisters env client w w
  | gone {w₁ : World} {i : Nat} (hi : w.store.clientRegistry.slotOf? client = some i)
      (hlogout : LogsOut env client w w₁)
      : Unregisters env client w { w₁ with store := w₁.store.unregister client i }

theorem cregUnregister_unregisters (hv : w.store.Valid extra) (hl : w.store.Linked)
    (hrun : (cregUnregister client).run env w = .ok (r, w')) : Unregisters env client w w' := by
  cases hi : w.store.clientRegistry.slotOf? client with
  | none =>
    simp only [cregUnregister, run_bind, run_getStore, hi, run_pure, Except.ok.injEq,
      Prod.mk.injEq] at hrun
    exact hrun.2 ▸ .unknown
  | some i =>
    cases hlogout : (clientLogout client).run env w with
    | error e =>
      have hblind := Blind.clientLogout client env w (w.store.clientRegistry.shift i)
      have hshift : (modifyRegistry (·.shift i)).run env w
          = .ok ((), w.withRegistry (w.store.clientRegistry.shift i)) := rfl
      rw [hlogout] at hblind
      simp only [cregUnregister, run_bind, run_getStore, hi, hshift, hblind, Except.map] at hrun
      simp at hrun
    | ok p =>
      have hlogsOut := clientLogout_logsOut hv hl hlogout
      obtain ⟨c, hc, hstate⟩ := hlogsOut.loggedOut
      rw [cregUnregister_run_logout hi hlogout hlogsOut,
        cregUnregister_run (by rw [hlogsOut.clientRegistry, hi]) hc hstate, Except.ok.injEq,
        Prod.mk.injEq] at hrun
      exact hrun.2 ▸ .gone hi hlogsOut

end Jeux
