import Jeux.Service.Invariant

/-!
Operations that fail. Some return `-1` when they have already done what they were asked for.
-/

namespace Jeux

open ServerM

variable {env : Env} {w w' : World} {client : ClientPtr} {σ : Server} {op : Operation} {r : Int}
  {inv : InvitationPtr} {i : Invitation} {extra : ClientPtr → Nat} {game : GamePtr}

/--
The game service is the same: the lists with their ids, the states of the invitations, the games
and the ratings.
-/
structure Store.SameService (s s' : Store) : Prop where
  lists : ∀ x, (s'.clients.get? x).map (·.inviteHead) = (s.clients.get? x).map (·.inviteHead)
  states : ∀ inv, (s'.invitations.get? inv).map (·.state) = (s.invitations.get? inv).map (·.state)
  games : ∀ game, s'.games.get? game = s.games.get? game
  ratings : ∀ player,
    (s'.players.get? player).map (·.rating) = (s.players.get? player).map (·.rating)

theorem Store.SameService.refl (s : Store) : s.SameService s :=
  ⟨fun _ => rfl, fun _ => rfl, fun _ => rfl, fun _ => rfl⟩

/--
The operation is carried out, and then something goes wrong that makes it return `-1`: there is no
room for the game, a packet about it cannot be sent, or an invitation is not found in the list of
the client again because that client is the target.
-/
def Operation.Leaks (env : Env) (w : World) (client : ClientPtr) : Operation → Prop
  | .make _ _ _ => False
  | .decline _ => False
  | .revoke id => ∃ inv i, w.store.Open client id inv i
      ∧ (env.sendOk w.trace.sent.length = false ∨ i.source ≠ client)
  | .accept id => ∃ inv i, w.store.Open client id inv i ∧ i.target = client
      ∧ (env.allocOk w.trace.allocs = false ∨ env.sendOk w.trace.sent.length = false)
  | .resign id => (∃ inv i game, w.store.Playing client id inv i game)
      ∧ env.sendOk w.trace.sent.length = false
  | .move id text => env.allocOk w.trace.allocs = true
      ∧ ∃ inv i game g move, w.store.Move client id text inv i game g move
        ∧ (env.sendOk w.trace.sent.length = false
          ∨ ((gameApplyMove g move).2.isOver = true
            ∧ (env.sendOk (w.trace.sent.length + 1) = false
              ∨ env.sendOk (w.trace.sent.length + 2) = false)))

theorem Operation.Leaks.granted (h : op.Leaks env w client) : op.Granted env w client := by
  cases op with
  | make => exact h.elim
  | decline => exact h.elim
  | revoke =>
    obtain ⟨inv, i, hopen, -⟩ := h
    exact ⟨inv, i, hopen⟩
  | accept =>
    obtain ⟨inv, i, hopen, htarget, -⟩ := h
    exact ⟨inv, i, hopen, htarget⟩
  | resign => exact h.1
  | move =>
    obtain ⟨halloc, inv, i, game, g, move, hmove, -⟩ := h
    exact ⟨halloc, inv, i, game, g, move, hmove⟩

/-! ## What gives a change away -/

theorem gameApplyMove_ne {g : Game} {move : GameMove} (h : (gameApplyMove g move).1 = 0)
    : (gameApplyMove g move).2 ≠ g := by
  intro heq
  have hturn := congrArg Game.currentPlayer heq
  unfold gameApplyMove at h hturn
  split at h
  . simp at h
  . next hrole =>
    split at h
    . simp at h
    . next hfree =>
      rw [if_neg hrole, if_neg hfree] at hturn
      have hover : ∀ g', (gameIsOver g').2.currentPlayer = g'.currentPlayer := by
        intro g'
        unfold gameIsOver
        split
        . rfl
        . split <;> rfl
      rw [hover] at hturn
      dsimp only at hturn
      split at hturn
      . next hfirst => simp [hfirst] at hturn
      . next hfirst => exact hfirst hturn.symm

theorem Store.Move.changes {id : Int} {text : CString} {g : Game} {move : GameMove}
    (h : w.store.Move client id text inv i game g move)
    : ¬ w.store.SameService (w.store.play game move) := by
  intro hsame
  have hgame := hsame.games game
  rw [h.board] at hgame
  simp only [Store.play_games, Heap.get?_modify_self, h.board, Option.map_some,
    Option.some.injEq] at hgame
  exact gameApplyMove_ne (legalMove?_eq_some h.legal).2 hgame

theorem Store.SameService.stateAt_eq {s s' : Store} (h : s.SameService s')
    (hi : s.invitations.get? inv = some i) : s'.stateAt inv = some i.state := by
  have hstate := h.states inv
  rw [hi, Option.map_some, Option.map_eq_some_iff] at hstate
  obtain ⟨i', hi', heq⟩ := hstate
  rw [Store.stateAt_of_get? hi', heq]

theorem Effect.refused_of_same (h : Effect env w client op r w')
    (hserves : w.store.Serves extra client) (hsame : w.store.SameService w'.store)
    : r = -1 ∧ ¬ op.Granted env w client := by
  have hv := hserves.valid
  have hl := hserves.settled.linked
  -- an invitation that was open or being played is so no more
  have hturned : ∀ {inv i st}, w.store.invitations.get? inv = some i →
      w'.store.stateAt inv = some st → st = i.state := by
    intro inv i st hi hst
    rw [hsame.stateAt_eq hi, Option.some.injEq] at hst
    exact hst.symm
  cases h with
  | refused _ _ hno => exact ⟨rfl, hno⟩
  | @made target cs ct sourceRole targetRole =>
    have hstate := hsame.states w.store.invitations.next
    simp [Store.invite] at hstate
  | revokeUnsent hopen =>
    have hstate := hturned hopen.invitation (Store.stateAt_close hopen.invitation)
    simp [hopen.state] at hstate
  | revoked hopen | declined hopen =>
    have hstate := hturned hopen.invitation
      ((Store.stateAt_dissolve ..).trans (Store.stateAt_close hopen.invitation))
    simp [hopen.state] at hstate
  | revokedByTarget hopen | declinedBySource hopen =>
    have hstate := hturned hopen.invitation
      ((Store.stateAt_drop ..).trans (Store.stateAt_close hopen.invitation))
    simp [hopen.state] at hstate
  | acceptNoRoom hopen =>
    have hstate := hturned hopen.invitation (Store.stateAt_modifyInvitation hopen.invitation _)
    simp [hopen.state] at hstate
  | accepted hopen =>
    have hstate := hturned hopen.invitation (Store.stateAt_accept hopen.invitation)
    simp [hopen.state] at hstate
  | resignUnsent hplay =>
    have hstate := hturned hplay.invitation (Store.stateAt_close hplay.invitation)
    simp [hplay.state] at hstate
  | resigned hplay =>
    have hclosed := Store.stateAt_close hplay.invitation
    have hstate := hturned hplay.invitation
      (((Store.stateAt_dissolve ..).trans (Store.stateAt_post ..)).trans hclosed)
    simp [hplay.state] at hstate
  | moveUnsent hmove | moved hmove | endUnsent hmove | endUnsentSelf hmove =>
    exact absurd hsame hmove.changes
  | @finished id text inv i game g move c co player playero hmove =>
    have hgone := (((hmove.shared hv hl).play game move).post env.expected
      (resultOf (i.roleOf client) player playero (gameApplyMove g move).2.winner)).gone
    have hstate := hsame.states inv
    simp only [World.conclude, endedTwice, endedOnce, World.ended, World.moved, hgone,
      hmove.invitation] at hstate
    simp at hstate

/--
The code reports what it cannot carry through to its end as if nothing had been done.
-/
theorem Effect.eq_of_leaks (h : Effect env w client op r w') (hleaks : op.Leaks env w client)
    : r = -1 := by
  cases h with
  | refused | revokeUnsent | revokedByTarget | acceptNoRoom | resignUnsent | moveUnsent | endUnsent
  | endUnsentSelf => rfl
  | made | declined | declinedBySource => exact hleaks.elim
  | revoked hopen hsource hsend =>
    obtain ⟨inv', i', hopen', hor⟩ := hleaks
    obtain rfl := Option.some.inj (hopen.named.symm.trans hopen'.named)
    obtain rfl := Option.some.inj (hopen.invitation.symm.trans hopen'.invitation)
    simp [hsend, hsource] at hor
  | accepted _ _ halloc =>
    obtain ⟨inv', i', -, -, hor⟩ := hleaks
    simp only [halloc, Bool.true_eq_false, false_or] at hor
    simp [hor]
  | resigned _ _ _ _ _ hsend =>
    obtain ⟨-, hunsent⟩ := hleaks
    simp [hsend] at hunsent
  | moved hmove hsend hover =>
    obtain ⟨-, inv', i', game', g', move', hmove', hor⟩ := hleaks
    obtain ⟨-, -, -, rfl, rfl⟩ := hmove.unique hmove'
    simp [hsend, hover] at hor
  | finished hmove _ _ _ _ hsend hover hend hself =>
    obtain ⟨-, inv', i', game', g', move', hmove', hor⟩ := hleaks
    obtain ⟨-, -, -, rfl, rfl⟩ := hmove.unique hmove'
    simp [hsend, hend, hself] at hor

theorem Effect.sameService_iff (h : Effect env w client op r w')
    (hserves : w.store.Serves extra client)
    : w.store.SameService w'.store ↔ r = -1 ∧ ¬ op.Leaks env w client := by
  constructor
  . intro hsame
    obtain ⟨hr, hno⟩ := h.refused_of_same hserves hsame
    exact ⟨hr, fun hleaks => hno hleaks.granted⟩
  . rintro ⟨hr, hno⟩
    cases h with
    | refused => exact .refl _
    | made n _ hcs =>
      have := (hserves.valid.client _ _ hcs).ids.nextId_spec.1
      omega
    | revoked | declined | declinedBySource | resigned | moved | finished => simp at hr
    | revokeUnsent hopen hsend => exact absurd ⟨_, _, hopen, .inl hsend⟩ hno
    | revokedByTarget hopen htarget =>
      have hdistinct := (hserves.valid.invitation _ _ hopen.invitation).distinct
      exact absurd ⟨_, _, hopen, .inr fun hsource => hdistinct (hsource.trans htarget.symm)⟩ hno
    | acceptNoRoom hopen htarget halloc => exact absurd ⟨_, _, hopen, htarget, .inl halloc⟩ hno
    | accepted hopen htarget =>
      cases hsend : env.sendOk w.trace.sent.length with
      | true => simp [hsend] at hr
      | false => exact absurd ⟨_, _, hopen, htarget, .inr hsend⟩ hno
    | resignUnsent hplay hsend => exact absurd ⟨⟨_, _, _, hplay⟩, hsend⟩ hno
    | moveUnsent hmove hsend halloc => exact absurd ⟨halloc, _, _, _, _, _, hmove, .inl hsend⟩ hno
    | endUnsent hmove _ hover hend halloc =>
      exact absurd ⟨halloc, _, _, _, _, _, hmove, .inr ⟨hover, .inl hend⟩⟩ hno
    | endUnsentSelf hmove _ hover _ hself halloc =>
      exact absurd ⟨halloc, _, _, _, _, _, hmove, .inr ⟨hover, .inr hself⟩⟩ hno

theorem Effect.unchanged_iff (h : Effect env w client op r w')
    (hserves : w.store.Serves extra client)
    : (r = -1 → w.store.SameService w'.store) ↔ ¬ op.Leaks env w client := by
  have hiff := h.sameService_iff hserves
  constructor
  . intro hsame hleaks
    exact (hiff.mp (hsame (h.eq_of_leaks hleaks))).2 hleaks
  . intro hno hr
    exact hiff.mpr ⟨hr, hno⟩

namespace Server

/--
In every state that can be reached, an operation that returns `-1` has changed nothing, if and only
if it is not one of those that fail too late.
-/
theorem unchanged_iff_of_reachable (h : Reachable env σ) (hconnected : σ.connections client ≠ none)
    (hfits : op.Fits σ.world.store client) (hrun : (op.call client).run env σ.world = .ok (r, w'))
    : (r = -1 → σ.world.store.SameService w'.store) ↔ ¬ op.Leaks env σ.world client := by
  have hok := ok_of_reach initial_ok h
  have hserves := hok.serves hconnected
  exact (hserves.effect (hok.callable hconnected hfits) hrun).unchanged_iff hserves

/--
`A` invites `B` and calls for its own invitation to be accepted.
-/
theorem unchanged_of_accepted_by_source
    : ∃ σ w', Reachable calmEnv σ
        ∧ ((Operation.accept 0).call 0).run calmEnv σ.world = .ok (-1, w')
        ∧ (σ.world.store.invitations.get? 0).map (·.state) = some .openState
        ∧ (((-1 : Int) = -1 → σ.world.store.SameService w'.store)
          ↔ ¬ (Operation.accept 0).Leaks calmEnv σ.world 0) := by
  obtain ⟨σ, hreach, hP⟩ := Machine.Reach.of_any_run (machine calmEnv) (fun _ _ => True)
    initialServer invitedEvents
    (fun σ => σ.connections 0 ≠ none
      ∧ (((Operation.accept 0).call 0).run calmEnv σ.world).toOption.map (·.1) = some (-1)
      ∧ (σ.world.store.invitations.get? 0).map (·.state) = some .openState) (by decide +kernel)
  obtain ⟨hconnected, hrun, hopen⟩ := of_decide_eq_true hP
  cases hrun' : ((Operation.accept 0).call 0).run calmEnv σ.world with
  | error f => simp [hrun', Except.toOption] at hrun
  | ok rw =>
    obtain ⟨r, w'⟩ := rw
    simp only [hrun', Except.toOption, Option.map_some, Option.some.injEq] at hrun
    subst hrun
    exact ⟨σ, w', hreach, hrun', hopen,
      unchanged_iff_of_reachable hreach hconnected trivial hrun'⟩

/--
`A` invites `B` and revokes the invitation, but the connection to `B` is lost. The invitation is
closed all the same.
-/
theorem changed_of_revoke_unsent
    : ¬ ∀ env σ client (op : Operation) w', Reachable env σ → σ.connections client ≠ none →
        op.Fits σ.world.store client → (op.call client).run env σ.world = .ok (-1, w') →
        σ.world.store.SameService w'.store := by
  intro h
  obtain ⟨σ, hreach, hP⟩ := Machine.Reach.of_any_run (machine faultyEnv) (fun _ _ => True)
    initialServer invitedEvents
    (fun σ => σ.connections 0 ≠ none
      ∧ (((Operation.revoke 0).call 0).run faultyEnv σ.world).toOption.any fun rw =>
        rw.1 = -1 ∧ (rw.2.store.invitations.get? 0).map (·.state)
          ≠ (σ.world.store.invitations.get? 0).map (·.state)) (by decide +kernel)
  obtain ⟨hconnected, hrun⟩ := of_decide_eq_true hP
  cases hrun' : ((Operation.revoke 0).call 0).run faultyEnv σ.world with
  | error f => simp [hrun', Except.toOption] at hrun
  | ok rw =>
    obtain ⟨r, w'⟩ := rw
    simp only [hrun', Except.toOption, Option.any_some, decide_eq_true_eq] at hrun
    obtain ⟨rfl, hchanged⟩ := hrun
    exact hchanged ((h faultyEnv σ 0 (.revoke 0) w' hreach hconnected trivial hrun').states 0)

end Server

end Jeux
