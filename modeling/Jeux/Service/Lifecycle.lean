import Jeux.Service.Invitations

/-!
The life of an invitation over whole runs: which operations change its state, and who calls them.
-/

namespace Jeux

open ServerM

variable {env : Env} {w w' : World} {client : ClientPtr} {c : Client} {σ σ' : Server} {e : Event}
  {op : Operation} {r : Int} {inv : InvitationPtr} {i : Invitation} {extra : ClientPtr → Nat}
  {st st' : InvitationState} {nodes : List InvitationNode}

/-! ## Changes of state -/

def Operation.Ongoing (s : Store) (client : ClientPtr) : Operation → Prop
  | .move id text => ∀ inv ∈ s.invitationOf client id, ∀ i ∈ s.invitations.get? inv,
      ∀ game ∈ i.game, ∀ g ∈ s.games.get? game, ∀ move ∈ legalMove? g (i.roleOf client) text,
        (gameApplyMove g move).2.isOver = false
  | _ => True

instance (s : Store) (client : ClientPtr) (op : Operation) : Decidable (op.Ongoing s client) := by
  unfold Operation.Ongoing
  split <;> infer_instance

/--
`op.Turns s client inv i st`: called by `client`, `op` takes the invitation `inv`, which is `i` so
far, to the state `st`.
-/
inductive Operation.Turns (s : Store) (client : ClientPtr) (inv : InvitationPtr) (i : Invitation)
    : Operation → InvitationState → Prop
  | accept {id : Int} (h : s.Open client id inv i) (htarget : i.target = client)
      : Turns s client inv i (.accept id) .acceptedState
  | revoke {id : Int} (h : s.Open client id inv i) (hsource : i.source = client)
      : Turns s client inv i (.revoke id) .closedState
  | decline {id : Int} (h : s.Open client id inv i) (htarget : i.target = client)
      : Turns s client inv i (.decline id) .closedState
  | resign {id : Int} {game : GamePtr} (h : s.Playing client id inv i game)
      (hor : i.source = client ∨ i.target = client)
      : Turns s client inv i (.resign id) .closedState

theorem Operation.Turns.state_ne_closed {s : Store} (h : op.Turns s client inv i st)
    : i.state ≠ .closedState := by
  cases h with
  | accept h => simp [h.state]
  | revoke h => simp [h.state]
  | decline h => simp [h.state]
  | resign h => simp [h.state]

theorem Effect.turns (h : Effect env w client op r w') (hsends : ∀ n, env.sendOk n = true)
    (hproper : op.Proper w.store client) (hongoing : op.Ongoing w.store client)
    (hserves : w.store.Serves extra client) (hst : w.store.stateAt inv = some st)
    : (w'.store.invitations.get? inv = w.store.invitations.get? inv
          ∧ w'.store.stateAt inv = some st)
        ∨ ∃ i st', w.store.invitations.get? inv = some i ∧ op.Turns w.store client inv i st'
            ∧ w'.store.stateAt inv = some st'
            ∧ (w'.store.invitations.get? inv = none → st' = .closedState) := by
  have hv := hserves.valid
  have hs := hserves.settled
  by_cases hsubject : op.subject? w.store client = some inv
  . cases h with
    | refused => exact .inl ⟨rfl, hst⟩
    | made =>
      obtain rfl := Option.some.inj hsubject
      simp [Store.stateAt] at hst
    | revokeUnsent _ hsend => simp [hsends] at hsend
    | revoked hopen hsource =>
      obtain rfl := Option.some.inj (hopen.named.symm.trans hsubject)
      refine .inr ⟨_, _, hopen.invitation, .revoke hopen hsource, ?_, fun _ => rfl⟩
      rw [Store.stateAt_dissolve, Store.stateAt_close hopen.invitation]
    | revokedByTarget hopen htarget =>
      have hsource := hproper _ hopen.named _ hopen.invitation hopen.state
      exact absurd (hsource.trans htarget.symm) (hv.invitation _ _ hopen.invitation).distinct
    | declined hopen htarget =>
      obtain rfl := Option.some.inj (hopen.named.symm.trans hsubject)
      refine .inr ⟨_, _, hopen.invitation, .decline hopen htarget, ?_, fun _ => rfl⟩
      rw [Store.stateAt_dissolve, Store.stateAt_close hopen.invitation]
    | declinedBySource hopen hsource =>
      have htarget := hproper _ hopen.named _ hopen.invitation hopen.state
      exact absurd (hsource.trans htarget.symm) (hv.invitation _ _ hopen.invitation).distinct
    | acceptNoRoom hopen htarget =>
      obtain rfl := Option.some.inj (hopen.named.symm.trans hsubject)
      refine .inr ⟨_, _, hopen.invitation, .accept hopen htarget,
        Store.stateAt_modifyInvitation hopen.invitation _, ?_⟩
      simp [hopen.invitation]
    | accepted hopen htarget =>
      obtain rfl := Option.some.inj (hopen.named.symm.trans hsubject)
      refine .inr ⟨_, _, hopen.invitation, .accept hopen htarget,
        Store.stateAt_accept hopen.invitation, ?_⟩
      simp [Store.accept, hopen.invitation]
    | resignUnsent _ hsend => simp [hsends] at hsend
    | resigned hplay =>
      obtain rfl := Option.some.inj (hplay.named.symm.trans hsubject)
      obtain ⟨-, i', -, -, hi', hor⟩ := hv.invitationOf hplay.named
      obtain rfl := Option.some.inj (hplay.invitation.symm.trans hi')
      refine .inr ⟨_, _, hplay.invitation, .resign hplay hor, ?_, fun _ => rfl⟩
      rw [World.conclude, Store.stateAt_dissolve, Store.stateAt_post]
      exact Store.stateAt_close hplay.invitation
    | moveUnsent _ hsend => simp [hsends] at hsend
    | moved => exact .inl ⟨rfl, hst⟩
    | endUnsent _ _ _ hend => simp [hsends] at hend
    | endUnsentSelf _ _ _ _ hself => simp [hsends] at hself
    | finished hmove _ _ _ _ _ hover =>
      have hon := hongoing _ hmove.named _ hmove.invitation _ hmove.owned _ hmove.board _ hmove.legal
      simp [hover] at hon
  . have hsame := h.sameAt hv hs.linked hsubject
    exact .inl ⟨hsame.invitation, hsame.stateAt h.extends hst⟩

theorem Store.stateAt_eq_none {s : Store}
    : s.stateAt inv = none ↔ s.invitations.next ≤ inv := by
  rw [stateAt, Option.map_eq_none_iff, Heap.last?_eq_none]

theorem Store.stateAt_modifyInvitation_eq_none {s : Store} {u : InvitationPtr}
    {f : Invitation → Invitation}
    : (s.modifyInvitation u f).stateAt inv = none ↔ s.stateAt inv = none := by
  rw [stateAt_eq_none, stateAt_eq_none, modifyInvitation_invitations, Heap.next_modify]

theorem Effect.fresh (h : Effect env w client op r w') (hst : w.store.stateAt inv = none)
    : w'.store.stateAt inv = none
        ∨ (w'.store.invitations.get? inv ≠ none
          ∧ ∃ target sourceRole targetRole, op = .make target sourceRole targetRole) := by
  have hclose : ∀ u, (w.store.close u).stateAt inv = none :=
    fun u => Store.stateAt_modifyInvitation_eq_none.mpr hst
  cases h with
  | made =>
    by_cases hinv : inv = w.store.invitations.next
    . exact .inr ⟨by simp [Store.invite, hinv], _, _, _, rfl⟩
    . refine .inl (Store.stateAt_eq_none.mpr ?_)
      simp only [Store.invite, Heap.next_push]
      exact Nat.lt_of_le_of_ne (Store.stateAt_eq_none.mp hst) (Ne.symm hinv)
  | refused => exact .inl hst
  | revokeUnsent => exact .inl (hclose _)
  | revoked => exact .inl (by rw [Store.stateAt_dissolve, hclose])
  | revokedByTarget => exact .inl (by rw [Store.stateAt_drop, hclose])
  | declined => exact .inl (by rw [Store.stateAt_dissolve, hclose])
  | declinedBySource => exact .inl (by rw [Store.stateAt_drop, hclose])
  | acceptNoRoom => exact .inl (Store.stateAt_modifyInvitation_eq_none.mpr hst)
  | accepted => exact .inl (Store.stateAt_modifyInvitation_eq_none.mpr hst)
  | resignUnsent => exact .inl (hclose _)
  | resigned =>
    rw [World.conclude, Store.stateAt_dissolve, Store.stateAt_post]
    exact .inl (hclose _)
  | moveUnsent => exact .inl hst
  | moved => exact .inl hst
  | endUnsent => exact .inl hst
  | endUnsentSelf => exact .inl hst
  | finished =>
    rw [World.conclude, Store.stateAt_dissolve, Store.stateAt_post]
    exact .inl hst

/-! ## Logging out -/

theorem Operation.Turns.of_logoutOp {s : Store} {i' : Invitation} {id : Int}
    (h : (logoutOp client i' id).Turns s client inv i st)
    : st = .closedState ∧ i.Active ∧ (i.source = client ∨ i.target = client) := by
  unfold logoutOp at h
  split at h
  . cases h with
    | resign hplay hor => exact ⟨rfl, .inr ⟨hplay.state, by simp [hplay.owned]⟩, hor⟩
  . split at h
    . cases h with
      | revoke hopen hsource => exact ⟨rfl, .inl hopen.state, .inl hsource⟩
    . cases h with
      | decline hopen htarget => exact ⟨rfl, .inl hopen.state, .inr htarget⟩

theorem ongoing_logoutOp (s : Store) (client : ClientPtr) (i : Invitation) (id : Int)
    : (logoutOp client i id).Ongoing s client := by
  unfold logoutOp
  split
  . trivial
  . split <;> trivial

theorem LogoutRun.turns (h : LogoutRun env client w nodes w') (hsends : ∀ n, env.sendOk n = true)
    (hserves : w.store.Serves extra client) (hst : w.store.stateAt inv = some st)
    : (w'.store.invitations.get? inv = w.store.invitations.get? inv
          ∧ w'.store.stateAt inv = some st)
        ∨ ∃ i, w.store.invitations.get? inv = some i ∧ i.Active
            ∧ (i.source = client ∨ i.target = client)
            ∧ w'.store.stateAt inv = some .closedState := by
  induction h generalizing st with
  | nil => exact .inl ⟨rfl, hst⟩
  | @cons w w₁ w' c i₀ node _ _ hc hnode hi heffect hrest ih =>
    have hnamed := hserves.valid.invitationOf_node hc hnode
    have hserves₁ := heffect.serves hserves (hserves.callable (logoutOp_ne_make _ _ _))
    cases heffect.turns hsends (proper_logoutOp hserves.valid hnamed hi)
      (ongoing_logoutOp _ _ _ _) hserves hst with
    | inl hsame =>
      rw [← hsame.1]
      exact ih hserves₁ hsame.2
    | inr hturn =>
      obtain ⟨i, st', hi, hturns, hst', -⟩ := hturn
      obtain ⟨rfl, hactive, hor⟩ := hturns.of_logoutOp
      refine .inr ⟨i, hi, hactive, hor, ?_⟩
      cases ih hserves₁ hst' with
      | inl hsame => exact hsame.2
      | inr hagain =>
        obtain ⟨-, -, -, -, hclosed⟩ := hagain
        exact hclosed

theorem LogoutRun.fresh (h : LogoutRun env client w nodes w')
    (hst : w.store.stateAt inv = none) : w'.store.stateAt inv = none := by
  induction h with
  | nil => exact hst
  | cons _ _ _ heffect _ ih =>
    apply ih
    cases heffect.fresh hst with
    | inl hfresh => exact hfresh
    | inr hmade =>
      obtain ⟨-, target, sourceRole, targetRole, hop⟩ := hmade
      exact absurd hop (logoutOp_ne_make _ _ _ target sourceRole targetRole)

/-! ## Whole runs -/

namespace Server

def Ongoing (σ : Server) (e : Event) : Prop :=
  ∀ p ∈ σ.opOf? e, p.2.Ongoing σ.world.store p.1

instance (σ : Server) (e : Event) : Decidable (σ.Ongoing e) := by
  unfold Ongoing
  infer_instance

/--
`σ.Turns e inv i st`: while `e` is handled the invitation `inv`, which is `i` so far, is taken to
the state `st`. The operation asked for does so, or `client_logout` of a participant, which revokes
an open invitation, declines it, or resigns a game.
-/
inductive Turns (σ : Server) (e : Event) (inv : InvitationPtr) (i : Invitation)
    : InvitationState → Prop
  | asked {client : ClientPtr} {op : Operation} {st : InvitationState}
      (hop : σ.opOf? e = some (client, op)) (h : op.Turns σ.world.store client inv i st)
      : Turns σ e inv i st
  | departed {client : ClientPtr}
      (he : e = .hangUp client
        ∨ ∃ pkt, e = .packet client pkt ∧ PacketType.ofByte? pkt.hdr.type = some .no)
      (hactive : i.Active) (hor : i.source = client ∨ i.target = client)
      : Turns σ e inv i .closedState

theorem Turns.state_ne_closed (h : σ.Turns e inv i st) : i.state ≠ .closedState := by
  cases h with
  | asked _ h => exact h.state_ne_closed
  | departed _ hactive =>
    cases hactive with
    | inl hopen => simp [hopen]
    | inr haccepted => simp [haccepted.1]

theorem Steps.turns (h : Steps env σ e σ') (hok : σ.Ok) (hsends : ∀ n, env.sendOk n = true)
    (hproper : σ.Proper e) (hongoing : σ.Ongoing e) (hst : σ.world.store.stateAt inv = some st)
    : (σ'.world.store.invitations.get? inv = σ.world.store.invitations.get? inv
          ∧ σ'.world.store.stateAt inv = some st)
        ∨ ∃ i st', σ.world.store.invitations.get? inv = some i ∧ σ.Turns e inv i st'
            ∧ σ'.world.store.stateAt inv = some st'
            ∧ (σ'.world.store.invitations.get? inv = none → st' = .closedState) := by
  obtain ⟨w, hacts, hquiet, -⟩ := h.acts hok
  rw [hquiet.invitations, Store.stateAt_congr hquiet.invitations]
  cases hacts with
  | nothing => exact .inl ⟨rfl, hst⟩
  | asked hop hserves _ heffect =>
    cases heffect.turns hsends (hproper _ hop) (hongoing _ hop) hserves hst with
    | inl hsame => exact .inl hsame
    | inr hturn =>
      obtain ⟨i, st', hi, hturns, hrest⟩ := hturn
      exact .inr ⟨i, st', hi, .asked hop hturns, hrest⟩
  | departed he hserves _ hlogout =>
    cases hlogout.turns hsends hserves hst with
    | inl hsame => exact .inl hsame
    | inr hturn =>
      obtain ⟨i, hi, hactive, hor, hclosed⟩ := hturn
      exact .inr ⟨i, _, hi, .departed he hactive hor, hclosed, fun _ => rfl⟩

def GoneClosed (s : Store) : Prop :=
  ∀ inv st, s.invitations.get? inv = none → s.stateAt inv = some st → st = .closedState

theorem Steps.goneClosed (h : Steps env σ e σ') (hok : σ.Ok) (hsends : ∀ n, env.sendOk n = true)
    (hproper : σ.Proper e) (hongoing : σ.Ongoing e) (hgone : GoneClosed σ.world.store)
    : GoneClosed σ'.world.store := by
  intro inv st' hdead hst'
  cases hst : σ.world.store.stateAt inv with
  | some st =>
    cases h.turns hok hsends hproper hongoing hst with
    | inl hsame =>
      obtain ⟨hget, hsame⟩ := hsame
      rw [hdead] at hget
      obtain rfl := Option.some.inj (hsame.symm.trans hst')
      exact hgone inv st hget.symm hst
    | inr hturn =>
      obtain ⟨i, st'', -, -, hst'', hclosed⟩ := hturn
      obtain rfl := Option.some.inj (hst''.symm.trans hst')
      exact hclosed hdead
  | none =>
    -- what was not there before is still not there, or live
    exfalso
    obtain ⟨w, hacts, hquiet, -⟩ := h.acts hok
    rw [hquiet.invitations] at hdead
    rw [Store.stateAt_congr hquiet.invitations] at hst'
    cases hacts with
    | nothing => simp [hst] at hst'
    | asked _ _ _ heffect =>
      cases heffect.fresh hst with
      | inl hfresh => simp [hfresh] at hst'
      | inr hmade => exact hmade.1 hdead
    | departed _ _ _ hlogout => simp [hlogout.fresh hst] at hst'

/--
The life of invitations, as far as it can be seen from the state `σ`. The events `allowed` change
the state of an invitation as they should, and what is closed stays closed. What has left the lists
is closed. Who may not revoke or decline an invitation is refused.
-/
structure Lifecycle (env : Env) (allowed : Server → Event → Prop) (σ : Server) : Prop where
  turns : ∀ e σ', allowed σ e → (machine env).step σ e = some σ' → ∀ inv st,
    σ.world.store.stateAt inv = some st → σ'.world.store.stateAt inv = some st
      ∨ ∃ i st', σ.world.store.invitations.get? inv = some i ∧ i.state = st
          ∧ σ.Turns e inv i st' ∧ σ'.world.store.stateAt inv = some st'
  final : ∀ e σ', allowed σ e → (machine env).step σ e = some σ' → ∀ inv,
    σ.world.store.stateAt inv = some .closedState → σ'.world.store.stateAt inv = some .closedState
  left : ∀ inv st, σ.world.store.stateAt inv = some st →
    (∀ client, σ.world.store.listed client inv = 0) → st = .closedState
  revoke : ∀ client id inv i, allowed σ (.call client (.revoke id)) →
    σ.connections client ≠ none → σ.world.store.invitationOf client id = some inv →
    σ.world.store.invitations.get? inv = some i → i.source ≠ client →
    (clientRevokeInvitation client id).run env σ.world = .ok (-1, σ.world)
  decline : ∀ client id inv i, allowed σ (.call client (.decline id)) →
    σ.connections client ≠ none → σ.world.store.invitationOf client id = some inv →
    σ.world.store.invitations.get? inv = some i → i.target ≠ client →
    (clientDeclineInvitation client id).run env σ.world = .ok (-1, σ.world)

/--
As long as nobody asks for anything improper and no move ends a game, invitations live as they
should.
-/
theorem lifecycle_of_reach (hsends : ∀ n, env.sendOk n = true)
    (h : (machine env).Reach (fun σ e => σ.Proper e ∧ σ.Ongoing e) initialServer σ)
    : Lifecycle env (fun σ e => σ.Proper e ∧ σ.Ongoing e) σ := by
  have hinv : σ.Ok ∧ GoneClosed σ.world.store := by
    apply h.invariant (fun σ => σ.Ok ∧ GoneClosed σ.world.store)
    . refine ⟨initial_ok, ?_⟩
      intro inv st _ hst
      simp [Store.stateAt, initialServer, initialWorld, initialStore] at hst
    . rintro σ e σ' ⟨hok, hgone⟩ ⟨hproper, hongoing⟩ hstep
      have hsteps := steps_of_step hok hstep
      exact ⟨hsteps.ok hok, hsteps.goneClosed hok hsends hproper hongoing hgone⟩
  obtain ⟨hok, hgone⟩ := hinv
  have hv := hok.steady.valid
  constructor
  . rintro e σ' ⟨hproper, hongoing⟩ hstep inv st hst
    cases (steps_of_step hok hstep).turns hok hsends hproper hongoing hst with
    | inl hsame => exact .inl hsame.2
    | inr hturn =>
      obtain ⟨i, st', hi, hturns, hst', -⟩ := hturn
      rw [Store.stateAt_of_get? hi, Option.some.injEq] at hst
      exact .inr ⟨i, st', hi, hst, hturns, hst'⟩
  . rintro e σ' ⟨hproper, hongoing⟩ hstep inv hst
    cases (steps_of_step hok hstep).turns hok hsends hproper hongoing hst with
    | inl hsame => exact hsame.2
    | inr hturn =>
      obtain ⟨i, st', hi, hturns, -, -⟩ := hturn
      rw [Store.stateAt_of_get? hi, Option.some.injEq] at hst
      exact absurd hst hturns.state_ne_closed
  . intro inv st hst hnone
    cases hi : σ.world.store.invitations.get? inv with
    | none => exact hgone inv st hi hst
    | some i =>
      have hpositive := hok.steady.settled.positive inv i hi
      simp [hnone] at hpositive
  . rintro client id inv i ⟨hproper, -⟩ hconnected hnamed hi hsource
    obtain ⟨c, hc⟩ := (hok.serves hconnected).exists_client
    apply clientRevokeInvitation_run_refused hv hc
    intro inv' i' hnamed' hi' hopen
    obtain rfl := Option.some.inj (hnamed.symm.trans hnamed')
    obtain rfl := Option.some.inj (hi.symm.trans hi')
    exact hsource (hproper _ rfl _ hnamed _ hi hopen)
  . rintro client id inv i ⟨hproper, -⟩ hconnected hnamed hi htarget
    obtain ⟨c, hc⟩ := (hok.serves hconnected).exists_client
    apply clientDeclineInvitation_run_refused hv hc
    intro inv' i' hnamed' hi' hopen
    obtain rfl := Option.some.inj (hnamed.symm.trans hnamed')
    obtain rfl := Option.some.inj (hi.symm.trans hi')
    exact htarget (hproper _ rfl _ hnamed _ hi hopen)

def livesEvents : List Event :=
  twoPlayers ++ [.packet 0 (request .invite 0 .firstPlayerRole [66] fits_B),
    .packet 0 (request .invite 0 .secondPlayerRole [66] fits_B),
    .packet 1 (request .decline 0 .nullRole [] fits_nil),
    .packet 1 (request .accept 1 .nullRole [] fits_nil),
    .packet 0 (request .resign 1 .nullRole [] fits_nil)]

theorem lifecycle_of_lives
    : ∃ σ, (machine calmEnv).Reach (fun σ e => σ.Proper e ∧ σ.Ongoing e) initialServer σ
        ∧ σ.world.store.stateAt 0 = some .closedState
        ∧ σ.world.store.stateAt 1 = some .closedState
        ∧ Lifecycle calmEnv (fun σ e => σ.Proper e ∧ σ.Ongoing e) σ := by
  obtain ⟨σ, hreach, hP⟩ := Machine.Reach.of_any_run (machine calmEnv)
    (fun σ e => σ.Proper e ∧ σ.Ongoing e) initialServer livesEvents
    (fun σ => σ.world.store.stateAt 0 = some .closedState
      ∧ σ.world.store.stateAt 1 = some .closedState) (by decide +kernel)
  obtain ⟨hfirst, hsecond⟩ := of_decide_eq_true hP
  exact ⟨σ, hreach, hfirst, hsecond, lifecycle_of_reach (fun _ => rfl) hreach⟩

/--
`B` is not refused when it revokes the invitation.
-/
theorem not_lifecycle_of_revoked_by_target
    : ¬ ∀ env σ, (∀ n, env.sendOk n = true) → Reachable env σ →
        Lifecycle env (fun _ _ => True) σ := by
  intro h
  obtain ⟨σ, hreach, hP⟩ := Machine.Reach.of_any_run (machine calmEnv) (fun _ _ => True)
    initialServer invitedEvents
    (fun σ => σ.connections 1 ≠ none ∧ σ.world.store.invitationOf 1 0 = some 0
      ∧ (σ.world.store.invitations.get? 0).map (·.source) = some 0
      ∧ ((clientRevokeInvitation 1 0).run calmEnv σ.world).toOption ≠ some (-1, σ.world))
    (by decide +kernel)
  obtain ⟨hconnected, hnamed, hsource, hrun⟩ := of_decide_eq_true hP
  obtain ⟨i, hi, hsource⟩ := Option.map_eq_some_iff.mp hsource
  apply hrun
  rw [(h calmEnv σ (fun _ => rfl) hreach).revoke 1 0 0 i trivial hconnected hnamed hi
    (by simp [hsource])]
  rfl

end Server

end Jeux
