import Jeux.Lemmas.Effect

/-!
What every operation keeps: the invariants of the store, and who is connected and logged in.
-/

namespace Jeux

def Client.session (c : Client) : Option PlayerPtr × ClientState := (c.player, c.loggedIn)

namespace Store

variable {s s' s'' : Store} {extra : ClientPtr → Nat} {client opponent : ClientPtr}
  {inv : InvitationPtr} {i : Invitation}

/-! ## An invitation in two lists -/

structure Shared (s : Store) (client opponent : ClientPtr) (inv : InvitationPtr) (i : Invitation)
    : Prop where
  invitation : s.invitations.get? inv = some i
  refCount : i.refCount = 2
  ends : (i.source = client ∧ i.target = opponent) ∨ (i.source = opponent ∧ i.target = client)
  distinct : opponent ≠ client
  mine : ∃ c, s.clients.get? client = some c ∧ inv ∈ c.invitations
  theirs : ∃ c, s.clients.get? opponent = some c ∧ inv ∈ c.invitations

theorem Linked.shared (hl : s.Linked) (hv : s.Valid extra) (hi : s.invitations.get? inv = some i)
    (hstate : i.state ≠ .closedState ∨ i.game ≠ none)
    (hends : (i.source = client ∧ i.target = opponent) ∨ (i.source = opponent ∧ i.target = client))
    : s.Shared client opponent inv i := by
  have hor : i.source = client ∨ i.target = client := by
    cases hends with
    | inl h => exact .inl h.1
    | inr h => exact .inr h.2
  have horo : i.source = opponent ∨ i.target = opponent := by
    cases hends with
    | inl h => exact .inr h.2
    | inr h => exact .inl h.1
  obtain ⟨c, hc, hmem, -⟩ := hl.participant hv hi hstate hor
  obtain ⟨co, hco, hmemo, -⟩ := hl.participant hv hi hstate horo
  refine ⟨hi, hl.refCount_eq_two hv hi hstate, hends, ?_, ⟨c, hc, hmem⟩, ⟨co, hco, hmemo⟩⟩
  have hdistinct := (hv.invitation inv i hi).distinct
  rintro rfl
  cases hends with
  | inl h => exact hdistinct (h.1.trans h.2.symm)
  | inr h => exact hdistinct (h.1.trans h.2.symm)

theorem Shared.close (h : s.Shared client opponent inv i)
    : (s.close inv).Shared client opponent inv { i with state := .closedState } where
  invitation := by simp [h.invitation]
  refCount := h.refCount
  ends := h.ends
  distinct := h.distinct
  mine := h.mine
  theirs := h.theirs

theorem Shared.congr (h : s.Shared client opponent inv i) (hclients : s'.clients = s.clients)
    (hinvitations : s'.invitations = s.invitations) : s'.Shared client opponent inv i where
  invitation := by rw [hinvitations, h.invitation]
  refCount := h.refCount
  ends := h.ends
  distinct := h.distinct
  mine := by
    rw [hclients]
    exact h.mine
  theirs := by
    rw [hclients]
    exact h.theirs

theorem Shared.resign (h : s.Shared client opponent inv i) (game : GamePtr) (role : GameRole)
    : (s.resign inv game role).Shared client opponent inv { i with state := .closedState } :=
  Shared.close (h.congr rfl rfl)

theorem Shared.play (h : s.Shared client opponent inv i) (game : GamePtr) (move : GameMove)
    : (s.play game move).Shared client opponent inv i := h.congr rfl rfl

theorem Shared.post (h : s.Shared client opponent inv i) (expected : Int → Rat)
    (result : PostedResult) : (s.post expected result).Shared client opponent inv i :=
  h.congr (post_clients expected result) (post_invitations expected result)

theorem Shared.gone (h : s.Shared client opponent inv i)
    : (s.dissolve client opponent inv).invitations.get? inv = none := by
  rw [get?_dissolve_invitations h.invitation h.refCount, if_pos rfl]

theorem Shared.valid (h : s.Shared client opponent inv i) (hv : s.Valid extra)
    : (s.dissolve client opponent inv).Valid extra := by
  obtain ⟨c, hc, hmem⟩ := h.mine
  obtain ⟨co, hco, hmemo⟩ := h.theirs
  exact hv.dissolve h.invitation h.refCount h.distinct hc hco hmem hmemo

theorem Shared.linked (h : s.Shared client opponent inv i) (hl : s.Linked)
    : (s.dissolve client opponent inv).Linked :=
  hl.dissolve h.invitation h.refCount h.distinct h.ends

theorem Shared.settled (h : s.Shared client opponent inv i) (hs : s.Settled)
    : (s.dissolve client opponent inv).Settled :=
  hs.dissolve h.invitation h.refCount h.distinct h.ends

/-! ## Who is there -/

/--
A change that is of no concern to those who log in and out: the same clients are connected and
logged in, as the same players.
-/
structure KeepsSessions (s s' : Store) : Prop where
  clientRegistry : s'.clientRegistry = s.clientRegistry
  playerRegistry : s'.playerRegistry = s.playerRegistry
  loginSem : s'.loginSem = s.loginSem
  session : ∀ x, (s'.clients.get? x).map Client.session = (s.clients.get? x).map Client.session
  name : ∀ player,
    (s'.players.get? player).map Player.name = (s.players.get? player).map Player.name

theorem KeepsSessions.refl (s : Store) : s.KeepsSessions s :=
  ⟨rfl, rfl, rfl, fun _ => rfl, fun _ => rfl⟩

theorem KeepsSessions.trans (h : s.KeepsSessions s') (h' : s'.KeepsSessions s'')
    : s.KeepsSessions s'' where
  clientRegistry := h'.clientRegistry.trans h.clientRegistry
  playerRegistry := h'.playerRegistry.trans h.playerRegistry
  loginSem := h'.loginSem.trans h.loginSem
  session := fun x => (h'.session x).trans (h.session x)
  name := fun player => (h'.name player).trans (h.name player)

theorem KeepsSessions.get? (h : s.KeepsSessions s') {x : ClientPtr} {c : Client}
    (hc : s.clients.get? x = some c)
    : ∃ c', s'.clients.get? x = some c' ∧ c'.player = c.player ∧ c'.loggedIn = c.loggedIn := by
  have hsession := h.session x
  rw [hc, Option.map_some, Option.map_eq_some_iff] at hsession
  obtain ⟨c', hc', heq⟩ := hsession
  simp only [Client.session, Prod.mk.injEq] at heq
  exact ⟨c', hc', heq⟩

theorem KeepsSessions.get?_of_get? (h : s.KeepsSessions s') {x : ClientPtr} {c' : Client}
    (hc' : s'.clients.get? x = some c')
    : ∃ c, s.clients.get? x = some c ∧ c'.player = c.player ∧ c'.loggedIn = c.loggedIn := by
  have hsession := (h.session x).symm
  rw [hc', Option.map_some, Option.map_eq_some_iff] at hsession
  obtain ⟨c, hc, heq⟩ := hsession
  simp only [Client.session, Prod.mk.injEq] at heq
  exact ⟨c, hc, heq.1.symm, heq.2.symm⟩

theorem KeepsSessions.of_eq (hclients : s'.clients = s.clients)
    (hregistry : s'.clientRegistry = s.clientRegistry) (hplayers : s'.players = s.players)
    (hplayerRegistry : s'.playerRegistry = s.playerRegistry) (hsem : s'.loginSem = s.loginSem)
    : s.KeepsSessions s' where
  clientRegistry := hregistry
  playerRegistry := hplayerRegistry
  loginSem := hsem
  session := fun x => by rw [hclients]
  name := fun player => by rw [hplayers]

theorem keepsSessions_close (s : Store) (inv : InvitationPtr) : s.KeepsSessions (s.close inv) :=
  .of_eq rfl rfl rfl rfl rfl

theorem keepsSessions_acceptFailed (s : Store) (inv : InvitationPtr)
    : s.KeepsSessions (s.acceptFailed inv) := .of_eq rfl rfl rfl rfl rfl

theorem keepsSessions_accept (s : Store) (inv : InvitationPtr) : s.KeepsSessions (s.accept inv) :=
  .of_eq rfl rfl rfl rfl rfl

theorem keepsSessions_resign (s : Store) (inv : InvitationPtr) (game : GamePtr) (role : GameRole)
    : s.KeepsSessions (s.resign inv game role) := .of_eq rfl rfl rfl rfl rfl

theorem keepsSessions_play (s : Store) (game : GamePtr) (move : GameMove)
    : s.KeepsSessions (s.play game move) := .of_eq rfl rfl rfl rfl rfl

theorem keepsSessions_post (s : Store) (expected : Int → Rat) (result : PostedResult)
    : s.KeepsSessions (s.post expected result) where
  clientRegistry := post_clientRegistry expected result
  playerRegistry := by
    unfold post
    split
    . rfl
    . split <;> rfl
  loginSem := by
    unfold post
    split
    . rfl
    . split <;> rfl
  session := fun x => by rw [post_clients]
  name := by
    intro player
    unfold post
    split
    . rfl
    . split
      . simp only [modifyPlayer_players]
        rw [Heap.map_get?_modify, Heap.map_get?_modify]
        . intro p
          rfl
        . intro p
          rfl
      . rfl

theorem keepsSessions_unlink (s : Store) (client : ClientPtr) (inv : InvitationPtr)
    : s.KeepsSessions (s.unlink client inv) where
  clientRegistry := rfl
  playerRegistry := rfl
  loginSem := rfl
  session := fun x => by
    rw [unlink_clients, Heap.map_get?_modify]
    intro c
    simp [Client.session]
  name := fun player => rfl

theorem keepsSessions_release (s : Store) (inv : InvitationPtr) (i : Invitation)
    : s.KeepsSessions (s.release inv i) where
  clientRegistry := rfl
  playerRegistry := rfl
  loginSem := rfl
  session := fun x => by
    unfold release
    dsimp only
    rw [Heap.map_get?_modify, Heap.map_get?_modify]
    . intro c
      rfl
    . intro c
      rfl
  name := fun player => rfl

theorem keepsSessions_drop (s : Store) (client : ClientPtr) (inv : InvitationPtr)
    : s.KeepsSessions (s.drop client inv) := by
  unfold drop
  split
  . split
    . exact (keepsSessions_unlink s client inv).trans (keepsSessions_release _ inv _)
    . exact keepsSessions_unlink s client inv
  . exact .refl s

theorem keepsSessions_dissolve (s : Store) (client opponent : ClientPtr) (inv : InvitationPtr)
    : s.KeepsSessions (s.dissolve client opponent inv) :=
  (keepsSessions_drop s client inv).trans (keepsSessions_drop _ opponent inv)

theorem keepsSessions_invite (s : Store) (source target : ClientPtr)
    (sourceRole targetRole : GameRole)
    : s.KeepsSessions (s.invite source target sourceRole targetRole) where
  clientRegistry := rfl
  playerRegistry := rfl
  loginSem := rfl
  session := fun x => by
    unfold invite
    dsimp only
    rw [Heap.map_get?_modify, Heap.map_get?_modify]
    . intro c
      simp [Client.session]
    . intro c
      simp [Client.session]
  name := fun player => rfl

end Store

/-! ## What an operation keeps -/

section Effect

variable {env : Env} {w w' : World} {client : ClientPtr} {op : Operation} {r : Int}
  {extra : ClientPtr → Nat} {id : Int} {inv : InvitationPtr} {i : Invitation} {game : GamePtr}

theorem Store.Open.ends (h : w.store.Open client id inv i) (hv : w.store.Valid extra)
    : (i.source = client ∧ i.target = i.opponentOf client)
        ∨ (i.source = i.opponentOf client ∧ i.target = client) := by
  obtain ⟨-, i', -, -, hi', hor⟩ := hv.invitationOf h.named
  rw [h.invitation, Option.some.injEq] at hi'
  subst hi'
  exact opponentOf_ends hor

theorem Store.Open.shared (h : w.store.Open client id inv i) (hv : w.store.Valid extra)
    (hl : w.store.Linked) : w.store.Shared client (i.opponentOf client) inv i :=
  hl.shared hv h.invitation (.inl (by simp [h.state])) (h.ends hv)

theorem Store.Playing.shared (h : w.store.Playing client id inv i game) (hv : w.store.Valid extra)
    (hl : w.store.Linked) : w.store.Shared client (i.opponentOf client) inv i := by
  obtain ⟨-, i', -, -, hi', hor⟩ := hv.invitationOf h.named
  rw [h.invitation, Option.some.injEq] at hi'
  subst hi'
  exact hl.shared hv h.invitation (.inr (by simp [h.owned])) (opponentOf_ends hor)

theorem Store.Move.shared {text : CString} {g : Game} {move : GameMove}
    (h : w.store.Move client id text inv i game g move) (hv : w.store.Valid extra)
    (hl : w.store.Linked) : w.store.Shared client (i.opponentOf client) inv i := by
  obtain ⟨-, i', -, -, hi', hor⟩ := hv.invitationOf h.named
  rw [h.invitation, Option.some.injEq] at hi'
  subst hi'
  exact hl.shared hv h.invitation (.inr (by simp [h.owned])) (opponentOf_ends hor)

theorem Effect.keepsSessions (h : Effect env w client op r w')
    : w.store.KeepsSessions w'.store := by
  cases h with
  | refused => exact .refl _
  | made => exact Store.keepsSessions_invite ..
  | revokeUnsent => exact Store.keepsSessions_close ..
  | revoked =>
    exact (Store.keepsSessions_close ..).trans (Store.keepsSessions_dissolve ..)
  | revokedByTarget => exact (Store.keepsSessions_close ..).trans (Store.keepsSessions_drop ..)
  | declined =>
    exact (Store.keepsSessions_close ..).trans (Store.keepsSessions_dissolve ..)
  | declinedBySource => exact (Store.keepsSessions_close ..).trans (Store.keepsSessions_drop ..)
  | acceptNoRoom => exact Store.keepsSessions_acceptFailed ..
  | accepted => exact Store.keepsSessions_accept ..
  | resignUnsent => exact Store.keepsSessions_resign ..
  | resigned =>
    exact ((Store.keepsSessions_resign ..).trans (Store.keepsSessions_post ..)).trans
      (Store.keepsSessions_dissolve ..)
  | moveUnsent => exact Store.keepsSessions_play ..
  | moved => exact Store.keepsSessions_play ..
  | endUnsent => exact Store.keepsSessions_play ..
  | endUnsentSelf => exact Store.keepsSessions_play ..
  | finished =>
    exact ((Store.keepsSessions_play ..).trans (Store.keepsSessions_post ..)).trans
      (Store.keepsSessions_dissolve ..)

theorem Effect.valid (h : Effect env w client op r w') (hv : w.store.Valid extra)
    (hl : w.store.Linked) (hcall : w.store.Allowed extra client op) : w'.store.Valid extra := by
  cases h with
  | refused => exact hv
  | made n halloc hcs hct hplayer hp =>
    obtain ⟨hne, ⟨ct', hct', hplayert⟩, hroles⟩ := hcall.invited _ _ _ rfl
    obtain rfl := Option.some.inj (hct.symm.trans hct')
    exact hv.invite hne.symm hroles hcs (by simp [hplayer]) hct hplayert
  | revokeUnsent => exact hv.close _
  | revoked hopen hsource =>
    have hshared := hopen.shared hv hl
    rw [opponentOf_source hsource] at hshared
    exact hshared.close.valid (hv.close _)
  | revokedByTarget hopen =>
    obtain ⟨c, hc, hmem⟩ := (hopen.shared hv hl).mine
    exact (hv.close _).drop hc hmem
  | declined hopen htarget =>
    have hshared := hopen.shared hv hl
    rw [(hv.invitation _ _ hopen.invitation).opponentOf_target htarget] at hshared
    exact hshared.close.valid (hv.close _)
  | declinedBySource hopen =>
    obtain ⟨c, hc, hmem⟩ := (hopen.shared hv hl).mine
    exact (hv.close _).drop hc hmem
  | acceptNoRoom hopen =>
    exact hv.acceptFailed hopen.invitation
      ((hv.invitation _ _ hopen.invitation).game_eq_none hopen.state)
  | accepted hopen =>
    exact hv.accept hopen.invitation
      ((hv.invitation _ _ hopen.invitation).game_eq_none hopen.state)
  | resignUnsent => exact hv.resign _ _ _
  | resigned hplay =>
    exact (((hplay.shared hv hl).resign _ _).post _ _).valid ((hv.resign _ _ _).post _ _)
  | moveUnsent => exact hv.play _ _
  | moved => exact hv.play _ _
  | endUnsent => exact hv.play _ _
  | endUnsentSelf => exact hv.play _ _
  | finished hmove =>
    exact (((hmove.shared hv hl).play _ _).post _ _).valid ((hv.play _ _).post _ _)

theorem Effect.linked (h : Effect env w client op r w') (hv : w.store.Valid extra)
    (hl : w.store.Linked) (hcall : w.store.Allowed extra client op) : w'.store.Linked := by
  cases h with
  | refused => exact hl
  | made n halloc hcs hct hplayer hp =>
    obtain ⟨hne, -⟩ := hcall.invited _ _ _ rfl
    exact hl.invite hv hne.symm hcs hct
  | revokeUnsent => exact hl.close _
  | revoked hopen hsource =>
    have hshared := hopen.shared hv hl
    rw [opponentOf_source hsource] at hshared
    exact hshared.close.linked (hl.close _)
  | revokedByTarget hopen =>
    have hok := hv.invitation _ _ hopen.invitation
    have hshared := (hopen.shared hv hl).close
    exact (hl.close _).drop hshared.invitation hshared.refCount rfl (hok.game_eq_none hopen.state)
      hok.refCount hok.distinct
  | declined hopen htarget =>
    have hshared := hopen.shared hv hl
    rw [(hv.invitation _ _ hopen.invitation).opponentOf_target htarget] at hshared
    exact hshared.close.linked (hl.close _)
  | declinedBySource hopen =>
    have hok := hv.invitation _ _ hopen.invitation
    have hshared := (hopen.shared hv hl).close
    exact (hl.close _).drop hshared.invitation hshared.refCount rfl (hok.game_eq_none hopen.state)
      hok.refCount hok.distinct
  | acceptNoRoom hopen => exact hl.acceptFailed hopen.invitation hopen.state
  | accepted hopen => exact hl.accept hopen.invitation hopen.state
  | resignUnsent => exact hl.resign _ _ _
  | resigned hplay =>
    exact (((hplay.shared hv hl).resign _ _).post _ _).linked ((hl.resign _ _ _).post _ _)
  | moveUnsent => exact hl.play _ _
  | moved => exact hl.play _ _
  | endUnsent => exact hl.play _ _
  | endUnsentSelf => exact hl.play _ _
  | finished hmove =>
    exact (((hmove.shared hv hl).play _ _).post _ _).linked ((hl.play _ _).post _ _)

theorem Effect.settled (h : Effect env w client op r w') (hv : w.store.Valid extra)
    (hs : w.store.Settled) (hcall : w.store.Callable client op) : w'.store.Settled := by
  cases h with
  | refused => exact hs
  | made n halloc hcs hct hplayer hp =>
    obtain ⟨hne, ⟨ct, hct', hin⟩, -⟩ := hcall.invited _ _ _ rfl
    rw [hct, Option.some.injEq] at hct'
    subst hct'
    exact hs.invite hv hne.symm hcs (hcall.session _ hcs (by simp [hplayer])) hct hin
  | revokeUnsent => exact hs.close _
  | revoked hopen hsource =>
    have hshared := hopen.shared hv hs.linked
    rw [opponentOf_source hsource] at hshared
    exact hshared.close.settled (hs.close _)
  | revokedByTarget hopen =>
    have hok := hv.invitation _ _ hopen.invitation
    have hshared := (hopen.shared hv hs.linked).close
    exact (hs.close _).drop hshared.invitation hshared.refCount rfl (hok.game_eq_none hopen.state)
      hok.refCount hok.distinct
  | declined hopen htarget =>
    have hshared := hopen.shared hv hs.linked
    rw [(hv.invitation _ _ hopen.invitation).opponentOf_target htarget] at hshared
    exact hshared.close.settled (hs.close _)
  | declinedBySource hopen =>
    have hok := hv.invitation _ _ hopen.invitation
    have hshared := (hopen.shared hv hs.linked).close
    exact (hs.close _).drop hshared.invitation hshared.refCount rfl (hok.game_eq_none hopen.state)
      hok.refCount hok.distinct
  | acceptNoRoom hopen => exact hs.acceptFailed hopen.invitation hopen.state
  | accepted hopen => exact hs.accept hopen.invitation hopen.state
  | resignUnsent => exact hs.resign _ _ _
  | resigned hplay =>
    exact (((hplay.shared hv hs.linked).resign _ _).post _ _).settled ((hs.resign _ _ _).post _ _)
  | moveUnsent => exact hs.play _ _
  | moved => exact hs.play _ _
  | endUnsent => exact hs.play _ _
  | endUnsentSelf => exact hs.play _ _
  | finished hmove =>
    exact (((hmove.shared hv hs.linked).play _ _).post _ _).settled ((hs.play _ _).post _ _)

end Effect

end Jeux
