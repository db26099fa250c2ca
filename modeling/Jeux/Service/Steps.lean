import Jeux.Service.Invariant

/-!
The operations that make up one step of the server. What every operation keeps every step keeps.
-/

namespace Jeux

open ServerM

variable {env : Env} {w w' : World} {client : ClientPtr} {c : Client} {σ σ' : Server} {e : Event}
  {op : Operation} {r : Int}

/-! ## The operations of an event -/

namespace Server

def opOf? (σ : Server) : Event → Option (ClientPtr × Operation)
  | .packet client pkt => (requestOp? σ.world.store client pkt).map (client, ·)
  | .call client op => some (client, op)
  | _ => none

/--
`σ.Asks e w client op`: while `e` is handled, `op` is called for `client` in `w`. It is what the
event asks for, or what `client_logout` chooses.
-/
inductive Asks (σ : Server) (e : Event) (w : World) (client : ClientPtr) : Operation → Prop
  | request {op : Operation} (hop : σ.opOf? e = some (client, op)) (hw : w = σ.world)
      : Asks σ e w client op
  | logout {c : Client} {node : InvitationNode} {i : Invitation}
      (he : e = .hangUp client
        ∨ ∃ pkt, e = .packet client pkt ∧ PacketType.ofByte? pkt.hdr.type = some .no)
      (hc : w.store.clients.get? client = some c) (hnode : node ∈ c.inviteHead)
      (hi : w.store.invitations.get? node.invitation = some i)
      : Asks σ e w client (logoutOp client i node.id)

end Server

theorem LogoutRun.preserves {P : World → Prop} {nodes : List InvitationNode}
    (h : LogoutRun env client w nodes w') (hserves : w.store.Serves (fun _ => 0) client)
    (he : e = .hangUp client
      ∨ ∃ pkt, e = .packet client pkt ∧ PacketType.ofByte? pkt.hdr.type = some .no)
    (heffect : ∀ op r w w', σ.Asks e w client op → w.store.Serves (fun _ => 0) client →
      w.store.Callable client op → Effect env w client op r w' → P w → P w')
    (hP : P w) : P w' := by
  induction h with
  | nil => exact hP
  | cons hc hnode hi hstep _ ih =>
    exact ih (hstep.serves hserves (hserves.callable (logoutOp_ne_make _ _ _)))
      (heffect _ _ _ _ (.logout he hc hnode hi) hserves
        (hserves.callable (logoutOp_ne_make _ _ _)) hstep hP)

/-! ## What the sessions are no part of -/

namespace Store

variable {s s' s'' : Store}

def ratingOf (s : Store) (player : PlayerPtr) : Option Int :=
  (s.players.get? player).map (·.rating)

structure Quiet (s s' : Store) : Prop where
  invitations : s'.invitations = s.invitations
  games : s'.games = s.games
  ratings : ∀ player rating, s.ratingOf player = some rating → s'.ratingOf player = some rating

theorem Quiet.refl (s : Store) : s.Quiet s := ⟨rfl, rfl, fun _ _ h => h⟩

theorem Quiet.trans (h : s.Quiet s') (h' : s'.Quiet s'') : s.Quiet s'' where
  invitations := h'.invitations.trans h.invitations
  games := h'.games.trans h.games
  ratings := fun player rating hrating => h'.ratings player rating (h.ratings player rating hrating)

theorem Quiet.of_players (hinvitations : s'.invitations = s.invitations)
    (hgames : s'.games = s.games) (hplayers : s'.players = s.players) : s.Quiet s' where
  invitations := hinvitations
  games := hgames
  ratings := by
    intro player rating h
    rw [ratingOf, hplayers]
    exact h

theorem quiet_pushPlayer (s : Store) (p : Player) (registry : PlayerRegistry)
    : s.Quiet { s with players := s.players.push p, playerRegistry := registry } where
  invitations := rfl
  games := rfl
  ratings := by
    intro player rating h
    obtain ⟨p', hp, hrating⟩ := Option.map_eq_some_iff.mp h
    simp [ratingOf, Heap.get?_push_of_get? hp, hrating]

theorem quiet_enlist (s : Store) (name : CString) : s.Quiet (s.enlist name) := by
  unfold enlist
  split
  . exact .refl s
  . exact quiet_pushPlayer s _ _

theorem quiet_login (s : Store) (client : ClientPtr) (player : PlayerPtr)
    : s.Quiet (s.login client player) where
  invitations := rfl
  games := rfl
  ratings := by
    intro player' rating h
    rw [ratingOf, login_players, Heap.map_get?_modify]
    . exact h
    . intro p
      rfl

theorem quiet_leave (s : Store) (client : ClientPtr) (player : PlayerPtr)
    : s.Quiet (s.leave client player) where
  invitations := rfl
  games := rfl
  ratings := by
    intro player' rating h
    rw [ratingOf, leave_players, Heap.map_get?_modify]
    . exact h
    . intro p
      rfl

theorem quiet_unregister (s : Store) (client : ClientPtr) (i : Nat)
    : s.Quiet (s.unregister client i) := by
  unfold unregister unrefClient
  split
  . split
    . exact .of_players rfl rfl rfl
    . exact .of_players rfl rfl rfl
  . exact .of_players rfl rfl rfl

end Store

inductive Server.Acts (env : Env) (σ : Server) (e : Event) : World → Prop
  | nothing : Acts env σ e σ.world
  | asked {client : ClientPtr} {op : Operation} {r : Int} {w : World}
      (hop : σ.opOf? e = some (client, op)) (hserves : σ.world.store.Serves (fun _ => 0) client)
      (hcall : σ.world.store.Callable client op) (heffect : Effect env σ.world client op r w)
      : Acts env σ e w
  | departed {client : ClientPtr} {c : Client} {w : World}
      (he : e = .hangUp client
        ∨ ∃ pkt, e = .packet client pkt ∧ PacketType.ofByte? pkt.hdr.type = some .no)
      (hserves : σ.world.store.Serves (fun _ => 0) client)
      (hc : σ.world.store.clients.get? client = some c)
      (hlogout : LogoutRun env client σ.world c.inviteHead w) : Acts env σ e w

theorem Server.Steps.acts (h : Steps env σ e σ') (hok : σ.Ok)
    : ∃ w, σ.Acts env e w ∧ w.store.Quiet σ'.world.store
        ∧ σ'.world.trace.posted = w.trace.posted := by
  cases h with
  | idle => exact ⟨_, .nothing, .refl _, rfl⟩
  | connects hconnects =>
    refine ⟨_, .nothing, ?_, ?_⟩
    . cases hconnects with
      | refused => exact .refl _
      | failed => exact .of_players rfl rfl rfl
      | connected => exact .of_players rfl rfl rfl
    . cases hconnects with
      | refused => rfl
      | failed => rfl
      | connected => rfl
  | @serves client pkt gate gate' w hgate hserved =>
    have hserves : σ.world.store.Serves (fun _ => 0) client := hok.serves (by simp [hgate])
    have hop : ∀ op, requestOp? σ.world.store client pkt = some op →
        σ.opOf? (.packet client pkt) = some (client, op) := by
      intro op hop
      simp [opOf?, hop]
    cases hserved with
    | ignored => exact ⟨_, .nothing, .refl _, rfl⟩
    | shut => exact ⟨_, .nothing, .refl _, rfl⟩
    | users => exact ⟨_, .nothing, .refl _, rfl⟩
    | unfit => exact ⟨_, .nothing, .refl _, rfl⟩
    | invited _ _ hrequest hcall heffect =>
      exact ⟨_, .asked (hop _ hrequest) hserves hcall heffect, .refl _, rfl⟩
    | answered _ _ _ _ hrequest hcall heffect =>
      refine ⟨_, .asked (hop _ hrequest) hserves hcall heffect, ?_, ?_⟩
      . unfold World.answered
        split
        . exact .refl _
        . exact .refl _
      . unfold World.answered
        split
        . rfl
        . rfl
    | loginRefused => exact ⟨_, .nothing, .refl _, rfl⟩
    | loginNoRoom _ _ _ _ _ hstore _ hposted =>
      refine ⟨_, .nothing, ?_, hposted⟩
      cases hstore with
      | inl heq =>
        rw [World.nacked_store, heq]
        exact .refl _
      | inr hpush =>
        obtain ⟨p, heq⟩ := hpush
        rw [World.nacked_store, heq]
        exact Store.quiet_pushPlayer _ p _
    | loginTaken => exact ⟨_, .nothing, Store.quiet_enlist _ _, rfl⟩
    | loggedIn =>
      exact ⟨_, .nothing, (Store.quiet_enlist _ _).trans (Store.quiet_login _ _ _), rfl⟩
  | departs he hconnected hdeparts =>
    cases hdeparts with
    | loggedOut => exact ⟨_, .nothing, Store.quiet_unregister _ _ _, rfl⟩
    | loggedIn hc _ _ hlogout =>
      exact ⟨_, .departed he (hok.serves hconnected) hc hlogout,
        (Store.quiet_leave _ _ _).trans (Store.quiet_unregister _ _ _), rfl⟩
  | calls hconnected hcall heffect =>
    exact ⟨_, .asked rfl (hok.serves hconnected) hcall heffect, .refl _, rfl⟩

theorem Server.Steps.preserves {P : Store → Prop} (h : Steps env σ e σ') (hok : σ.Ok)
    (hquiet : ∀ s s', s'.invitations = s.invitations → s'.games = s.games → P s → P s')
    (heffect : ∀ client op r w w', σ.Asks e w client op → w.store.Serves (fun _ => 0) client →
      w.store.Callable client op → Effect env w client op r w' → P w.store → P w'.store)
    (hP : P σ.world.store) : P σ'.world.store := by
  obtain ⟨w, hacts, hrest, -⟩ := h.acts hok
  apply hquiet w.store _ hrest.invitations hrest.games
  cases hacts with
  | nothing => exact hP
  | asked hop hserves hcall hstep => exact heffect _ _ _ _ _ (.request hop rfl) hserves hcall hstep hP
  | departed he hserves hc hlogout =>
    exact hlogout.preserves (P := fun w => P w.store) hserves he
      (fun op r w w' => heffect _ op r w w') hP

/-! ## What holds of every invitation -/

def Store.gameOf (s : Store) (i : Invitation) : Option Game := i.game.bind s.games.get?

theorem Effect.forall_live {Q : Invitation → Option Game → Prop} {extra : ClientPtr → Nat}
    (h : Effect env w client op r w') (hv : w.store.Valid extra) (hs : w.store.Settled)
    (hQ : ∀ inv i, w.store.invitations.get? inv = some i → Q i (w.store.gameOf i))
    (hsubject : ∀ inv i, op.subject? w.store client = some inv →
      w'.store.invitations.get? inv = some i → Q i (w'.store.gameOf i))
    : ∀ inv i, w'.store.invitations.get? inv = some i → Q i (w'.store.gameOf i) := by
  intro inv i hi
  by_cases hinv : op.subject? w.store client = some inv
  . exact hsubject inv i hinv hi
  . have hsame := h.sameAt hv hs.linked hinv
    rw [hsame.invitation] at hi
    have hgame : w'.store.gameOf i = w.store.gameOf i := by
      unfold Store.gameOf
      cases hown : i.game with
      | none => rfl
      | some game => exact hsame.game i game hi hown
    rw [hgame]
    exact hQ inv i hi

section Entry

variable {s : Store} {opponent : ClientPtr} {inv : InvitationPtr} {i i' : Invitation}

theorem Store.Shared.get?_drop (h : s.Shared client opponent inv i)
    (hi' : (s.drop client inv).invitations.get? inv = some i') : i' = i.dropRef := by
  rw [drop_shared h.invitation (by have := h.refCount; omega)] at hi'
  simpa [h.invitation, eq_comm] using hi'

theorem Store.get?_accept (hi : s.invitations.get? inv = some i)
    (hi' : (s.accept inv).invitations.get? inv = some i')
    : i' = { i with state := .acceptedState, game := some s.games.next } := by
  simpa [Store.accept, hi, eq_comm] using hi'

end Entry

/--
A game can only be that of an accepted invitation, and goes on, with no winner so far.
-/
def Store.GamesOn (s : Store) : Prop :=
  ∀ inv i, s.invitations.get? inv = some i → ∀ g ∈ s.gameOf i,
    i.state = .acceptedState ∧ g.isOver = false ∧ g.winner = .nullRole

theorem gameApplyMove_winner {g : Game} {move : GameMove}
    (hon : (gameApplyMove g move).2.isOver = false)
    : (gameApplyMove g move).2.winner = g.winner := by
  unfold gameApplyMove gameIsOver at *
  split at hon
  . next h => rw [if_pos h]
  . next h =>
    rw [if_neg h]
    split at hon
    . next h => rw [if_pos h]
    . next h =>
      rw [if_neg h]
      dsimp only at hon ⊢
      split at hon
      . simp at hon
      . split at hon
        . simp at hon
        . next hfull => rw [if_neg hfull]

theorem Effect.gamesOn {extra : ClientPtr → Nat} (h : Effect env w client op r w')
    (hsends : ∀ n, env.sendOk n = true) (hserves : w.store.Serves extra client)
    (hon : w.store.GamesOn) : w'.store.GamesOn := by
  have hv := hserves.valid
  have hs := hserves.settled
  apply h.forall_live (Q := fun i g => ∀ g' ∈ g, i.state = .acceptedState ∧ g'.isOver = false
    ∧ g'.winner = .nullRole) hv hs hon
  intro inv i hsubject hi g hg
  obtain ⟨game, hown, hg⟩ := Option.bind_eq_some_iff.mp hg
  cases h with
  | refused => exact hon inv i hi g (Option.bind_eq_some_iff.mpr ⟨game, hown, hg⟩)
  | made =>
    obtain rfl := Option.some.inj hsubject
    simp only [Store.invite, Heap.get?_push_next, Option.some.injEq] at hi
    subst hi
    simp [newInvitation] at hown
  | revokeUnsent _ hsend => simp [hsends] at hsend
  | revoked hopen hsource =>
    obtain rfl := Option.some.inj (hopen.named.symm.trans hsubject)
    have hshared := (hopen.shared hv hs.linked).close
    rw [opponentOf_source hsource] at hshared
    rw [hshared.gone] at hi
    simp at hi
  | revokedByTarget hopen =>
    obtain rfl := Option.some.inj (hopen.named.symm.trans hsubject)
    obtain rfl := (hopen.shared hv hs.linked).close.get?_drop hi
    simp [(hv.invitation _ _ hopen.invitation).game_eq_none hopen.state] at hown
  | declined hopen htarget =>
    obtain rfl := Option.some.inj (hopen.named.symm.trans hsubject)
    have hshared := (hopen.shared hv hs.linked).close
    rw [(hv.invitation _ _ hopen.invitation).opponentOf_target htarget] at hshared
    rw [hshared.gone] at hi
    simp at hi
  | declinedBySource hopen =>
    obtain rfl := Option.some.inj (hopen.named.symm.trans hsubject)
    obtain rfl := (hopen.shared hv hs.linked).close.get?_drop hi
    simp [(hv.invitation _ _ hopen.invitation).game_eq_none hopen.state] at hown
  | acceptNoRoom hopen =>
    obtain rfl := Option.some.inj (hopen.named.symm.trans hsubject)
    rw [Store.acceptFailed_invitations, Heap.get?_modify_self, hopen.invitation, Option.map_some,
      Option.some.injEq] at hi
    subst hi
    simp at hown
  | accepted hopen =>
    obtain rfl := Option.some.inj (hopen.named.symm.trans hsubject)
    obtain rfl := Store.get?_accept hopen.invitation hi
    obtain rfl := Option.some.inj hown
    simp only [Store.accept, Heap.get?_push_next, Option.some.injEq] at hg
    subst hg
    exact ⟨rfl, rfl, rfl⟩
  | resignUnsent _ hsend => simp [hsends] at hsend
  | @resigned _ _ i' game' _ _ player playero hplay =>
    obtain rfl := Option.some.inj (hplay.named.symm.trans hsubject)
    have hgone := (((hplay.shared hv hs.linked).resign game' (i'.roleOf client)).post env.expected
      (resultOf (i'.roleOf client) player playero (i'.roleOf (i'.opponentOf client)))).gone
    exact absurd (hgone.symm.trans hi) (by simp)
  | moveUnsent _ hsend => simp [hsends] at hsend
  | @moved _ _ _ _ game g₀ move hmove _ hover =>
    obtain rfl := Option.some.inj (hmove.named.symm.trans hsubject)
    obtain rfl := Option.some.inj (hmove.invitation.symm.trans hi)
    obtain rfl := Option.some.inj (hmove.owned.symm.trans hown)
    -- the game went on before, so a move that does not end it leaves it without a winner
    obtain ⟨hstate, -, hwinner⟩ := hon _ _ hmove.invitation g₀
      (Option.bind_eq_some_iff.mpr ⟨_, hown, hmove.board⟩)
    have hplayed : (w.store.play game move).games.get? game = some (gameApplyMove g₀ move).2 := by
      simp [hmove.board]
    obtain rfl := Option.some.inj (hplayed.symm.trans hg)
    exact ⟨hstate, hover, (gameApplyMove_winner hover).trans hwinner⟩
  | endUnsent _ _ _ hend => simp [hsends] at hend
  | endUnsentSelf _ _ _ _ hself => simp [hsends] at hself
  | @finished _ _ _ i' game' g₀ move _ _ player playero hmove =>
    obtain rfl := Option.some.inj (hmove.named.symm.trans hsubject)
    have hgone := (((hmove.shared hv hs.linked).play game' move).post env.expected
      (resultOf (i'.roleOf client) player playero (gameApplyMove g₀ move).2.winner)).gone
    exact absurd (hgone.symm.trans hi) (by simp)

end Jeux
