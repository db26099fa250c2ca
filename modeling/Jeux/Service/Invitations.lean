import Jeux.Service.Steps

/-!
The lists of invitations over whole runs. They stay in balance as long as no open invitation is
revoked by its target or declined by its source.
-/

namespace Jeux

open ServerM

variable {env : Env} {w w' : World} {client : ClientPtr} {c : Client} {σ σ' : Server} {e : Event}
  {op : Operation} {r : Int} {inv : InvitationPtr} {i : Invitation} {extra : ClientPtr → Nat}

/-! ## What is asked for -/

def Operation.Proper (s : Store) (client : ClientPtr) : Operation → Prop
  | .revoke id => ∀ inv ∈ s.invitationOf client id, ∀ i ∈ s.invitations.get? inv,
      i.state = .openState → i.source = client
  | .decline id => ∀ inv ∈ s.invitationOf client id, ∀ i ∈ s.invitations.get? inv,
      i.state = .openState → i.target = client
  | _ => True

instance (s : Store) (client : ClientPtr) (op : Operation) : Decidable (op.Proper s client) := by
  unfold Operation.Proper
  split <;> infer_instance

/--
An event that does not ask for more.
-/
def Server.Proper (σ : Server) (e : Event) : Prop :=
  ∀ p ∈ σ.opOf? e, p.2.Proper σ.world.store p.1

instance (σ : Server) (e : Event) : Decidable (σ.Proper e) := by
  unfold Server.Proper
  infer_instance

theorem proper_logoutOp {s : Store} {id : Int} (hv : s.Valid extra)
    (hnamed : s.invitationOf client id = some inv) (hi : s.invitations.get? inv = some i)
    : (logoutOp client i id).Proper s client := by
  obtain ⟨-, i', -, -, hi', hor⟩ := hv.invitationOf hnamed
  rw [hi, Option.some.injEq] at hi'
  subst hi'
  have hself : ∀ inv' ∈ s.invitationOf client id, ∀ i' ∈ s.invitations.get? inv', i' = i := by
    intro inv' hinv' i' hi'
    rw [hnamed, Option.mem_def, Option.some.injEq] at hinv'
    rw [← hinv', hi, Option.mem_def, Option.some.injEq] at hi'
    exact hi'.symm
  unfold logoutOp
  split
  . trivial
  . split
    . next hsource =>
      intro inv' hinv' i' hi' _
      rw [hself inv' hinv' i' hi']
      exact hsource
    . next hsource =>
      intro inv' hinv' i' hi' _
      rw [hself inv' hinv' i' hi']
      cases hor with
      | inl h => exact absurd h hsource
      | inr h => exact h

theorem Server.Asks.proper (h : σ.Asks e w client op) (hproper : σ.Proper e)
    (hserves : w.store.Serves extra client) : op.Proper w.store client := by
  cases h with
  | request hop hw =>
    subst hw
    exact hproper _ hop
  | logout _ hc hnode hi =>
    exact proper_logoutOp hserves.valid (hserves.valid.invitationOf_node hc hnode) hi

/-! ## Balance -/

/--
An invitation with the game it has, if any: open without a game, or accepted with a game that is
going on.
-/
def InPlay (i : Invitation) (g : Option Game) : Prop :=
  (i.state = .openState ∧ i.game = none) ∨ (i.state = .acceptedState ∧ ∃ g' ∈ g, g'.isOver = false)

/--
Every invitation in some list is in the lists of its source and its target, once in each, and in no
other. The two are different clients, one has the first move and the other the second. It is open
and has no game, or is accepted and has a game that is not over.
-/
def Store.Balanced (s : Store) : Prop :=
  ∀ client c inv, s.clients.get? client = some c → inv ∈ c.invitations →
    ∃ i, s.invitations.get? inv = some i
      ∧ s.listed i.source inv = 1 ∧ s.listed i.target inv = 1
      ∧ (∀ x, x ≠ i.source → x ≠ i.target → s.listed x inv = 0)
      ∧ i.source ≠ i.target
      ∧ ((i.sourceRole = .firstPlayerRole ∧ i.targetRole = .secondPlayerRole)
        ∨ (i.sourceRole = .secondPlayerRole ∧ i.targetRole = .firstPlayerRole))
      ∧ InPlay i (i.game.bind s.games.get?)

def Store.AllActive (s : Store) : Prop :=
  ∀ inv i, s.invitations.get? inv = some i → i.Active

theorem Store.Valid.inPlay {s : Store} (hv : s.Valid extra) (hon : s.GamesOn)
    (hi : s.invitations.get? inv = some i) (hactive : i.Active) : InPlay i (s.gameOf i) := by
  have hok := hv.invitation inv i hi
  cases hactive with
  | inl hopen => exact .inl ⟨hopen, hok.game_eq_none hopen⟩
  | inr haccepted =>
    obtain ⟨game, hown⟩ := Option.ne_none_iff_exists'.mp haccepted.2
    obtain ⟨-, g, hg, -⟩ := hok.game game hown
    have hgame : s.gameOf i = some g := by simp [gameOf, hown, hg]
    exact .inr ⟨haccepted.1, g, hgame, (hon inv i hi g hgame).2.1⟩

theorem Store.Steady.balanced {s : Store} (h : s.Steady) (hactive : s.AllActive) (hon : s.GamesOn)
    : s.Balanced := by
  intro client c inv hc hmem
  obtain ⟨i, hi, -⟩ := (h.valid.client client c hc).mine inv hmem
  have hok := h.valid.invitation inv i hi
  obtain ⟨cs, hcs, hmems, -⟩ := h.settled.participant h.valid hi (hactive inv i hi) (.inl rfl)
  obtain ⟨ct, hct, hmemt, -⟩ := h.settled.participant h.valid hi (hactive inv i hi) (.inr rfl)
  exact ⟨i, hi, h.valid.listed_eq_one hcs hmems, h.valid.listed_eq_one hct hmemt,
    fun x hs ht => h.valid.listed_eq_zero hi hs.symm ht.symm, hok.distinct, hok.roles,
    h.valid.inPlay hon hi (hactive inv i hi)⟩

theorem Effect.allActive (h : Effect env w client op r w') (henv : env.Reliable)
    (hproper : op.Proper w.store client) (hserves : w.store.Serves extra client)
    (hactive : w.store.AllActive) : w'.store.AllActive := by
  have hv := hserves.valid
  have hs := hserves.settled
  apply h.forall_live (Q := fun i _ => i.Active) hv hs hactive
  intro inv i hsubject hi
  cases h with
  | refused => exact hactive inv i hi
  | made =>
    obtain rfl := Option.some.inj hsubject
    simp only [Store.invite, Heap.get?_push_next, Option.some.injEq] at hi
    subst hi
    exact .inl rfl
  | revokeUnsent _ hsend => simp [henv.sends] at hsend
  | revoked hopen hsource =>
    obtain rfl := Option.some.inj (hopen.named.symm.trans hsubject)
    have hshared := (hopen.shared hv hs.linked).close
    rw [opponentOf_source hsource] at hshared
    rw [hshared.gone] at hi
    simp at hi
  | revokedByTarget hopen htarget =>
    have hsource := hproper _ hopen.named _ hopen.invitation hopen.state
    exact absurd (hsource.trans htarget.symm) (hv.invitation _ _ hopen.invitation).distinct
  | declined hopen htarget =>
    obtain rfl := Option.some.inj (hopen.named.symm.trans hsubject)
    have hshared := (hopen.shared hv hs.linked).close
    rw [(hv.invitation _ _ hopen.invitation).opponentOf_target htarget] at hshared
    rw [hshared.gone] at hi
    simp at hi
  | declinedBySource hopen hsource =>
    have htarget := hproper _ hopen.named _ hopen.invitation hopen.state
    exact absurd (hsource.trans htarget.symm) (hv.invitation _ _ hopen.invitation).distinct
  | acceptNoRoom _ _ halloc => simp [henv.allocs] at halloc
  | accepted hopen =>
    obtain rfl := Option.some.inj (hopen.named.symm.trans hsubject)
    obtain rfl := Store.get?_accept hopen.invitation hi
    exact .inr ⟨rfl, by simp⟩
  | resignUnsent _ hsend => simp [henv.sends] at hsend
  | @resigned _ _ i' game _ _ player playero hplay =>
    obtain rfl := Option.some.inj (hplay.named.symm.trans hsubject)
    have hgone := (((hplay.shared hv hs.linked).resign game (i'.roleOf client)).post env.expected
      (resultOf (i'.roleOf client) player playero (i'.roleOf (i'.opponentOf client)))).gone
    exact absurd (hgone.symm.trans hi) (by simp)
  | moveUnsent _ hsend => simp [henv.sends] at hsend
  | moved => exact hactive inv i hi
  | endUnsent _ _ _ hend => simp [henv.sends] at hend
  | endUnsentSelf _ _ _ _ hself => simp [henv.sends] at hself
  | @finished _ _ _ i' game g move _ _ player playero hmove =>
    obtain rfl := Option.some.inj (hmove.named.symm.trans hsubject)
    have hgone := (((hmove.shared hv hs.linked).play game move).post env.expected
      (resultOf (i'.roleOf client) player playero (gameApplyMove g move).2.winner)).gone
    exact absurd (hgone.symm.trans hi) (by simp)

/-! ## Whole runs -/

namespace Server

theorem gamesOn_of_reach {guard : Server → Event → Prop} (hsends : ∀ n, env.sendOk n = true)
    (h : (machine env).Reach guard initialServer σ) : σ.Ok ∧ σ.world.store.GamesOn := by
  apply h.invariant (fun σ => σ.Ok ∧ σ.world.store.GamesOn)
    ⟨initial_ok, by simp [Store.GamesOn, initialServer, initialWorld, initialStore]⟩
  rintro σ e σ' ⟨hok, hon⟩ - hstep
  have hsteps := steps_of_step hok hstep
  refine ⟨hsteps.ok hok, hsteps.preserves hok ?_ ?_ hon⟩
  . intro s s' hinvitations hgames hon inv i hi g hg
    rw [hinvitations] at hi
    unfold Store.gameOf at hg
    rw [hgames] at hg
    exact hon inv i hi g hg
  . intro client op r w w' _ hserves _ heffect hon
    exact heffect.gamesOn hsends hserves hon

/--
As long as nobody asks for anything improper the lists stay in balance.
-/
theorem balanced_of_reach (henv : env.Reliable)
    (h : (machine env).Reach Proper initialServer σ) : σ.world.store.Balanced := by
  obtain ⟨hok, hon⟩ := gamesOn_of_reach henv.sends h
  refine hok.steady.balanced ?_ hon
  have hboth : σ.Ok ∧ σ.world.store.AllActive := by
    apply h.invariant (fun σ => σ.Ok ∧ σ.world.store.AllActive)
      ⟨initial_ok, by simp [Store.AllActive, initialServer, initialWorld, initialStore]⟩
    rintro σ e σ' ⟨hok, hactive⟩ hproper hstep
    have hsteps := steps_of_step hok hstep
    refine ⟨hsteps.ok hok, hsteps.preserves hok ?_ ?_ hactive⟩
    . intro s s' hinvitations _ hactive inv i hi
      rw [hinvitations] at hi
      exact hactive inv i hi
    . intro client op r w w' hasks hserves _ heffect hactive
      exact heffect.allActive henv (hasks.proper hproper hserves) hserves hactive
  exact hboth.2

def inPlayEvents : List Event :=
  twoPlayers ++ [.packet 0 (request .invite 0 .firstPlayerRole [66] fits_B),
    .packet 1 (request .accept 0 .nullRole [] fits_nil),
    .packet 1 (request .invite 0 .firstPlayerRole [65] fits_A)]

theorem balanced_of_two_invitations
    : ∃ σ, (machine calmEnv).Reach Proper initialServer σ
        ∧ (σ.world.store.clients.get? 0).map (·.invitations) = some [1, 0]
        ∧ σ.world.store.Balanced := by
  obtain ⟨σ, hreach, hlist⟩ := Machine.Reach.of_any_run (machine calmEnv) Proper initialServer
    inPlayEvents (fun σ => (σ.world.store.clients.get? 0).map (·.invitations) = some [1, 0])
    (by decide +kernel)
  exact ⟨σ, hreach, of_decide_eq_true hlist, balanced_of_reach calmEnv_reliable hreach⟩

def revokedByTargetEvents : List Event :=
  twoPlayers ++ [.packet 0 (request .invite 0 .firstPlayerRole [66] fits_B),
    .packet 1 (request .revoke 0 .nullRole [] fits_nil)]

/--
`B` revokes the invitation that `A` has made. It stays in the list of `A`, but is closed.
-/
theorem not_balanced_of_revoked_by_target
    : ¬ ∀ env σ, env.Reliable → Reachable env σ → σ.world.store.Balanced := by
  intro h
  obtain ⟨σ, hreach, hP⟩ := Machine.Reach.of_any_run (machine calmEnv) (fun _ _ => True)
    initialServer revokedByTargetEvents
    (fun σ => (σ.world.store.clients.get? 0).map (·.invitations) = some [0]
      ∧ (σ.world.store.invitations.get? 0).map (·.state) = some .closedState)
    (by decide +kernel)
  obtain ⟨hlist, hclosed⟩ := of_decide_eq_true hP
  obtain ⟨c, hc, hmem⟩ := Option.map_eq_some_iff.mp hlist
  obtain ⟨i, hi, hstate⟩ := Option.map_eq_some_iff.mp hclosed
  obtain ⟨i', hi', -, -, -, -, -, hinplay⟩ :=
    h calmEnv σ calmEnv_reliable hreach 0 c 0 hc (by simp [hmem])
  obtain rfl := Option.some.inj (hi.symm.trans hi')
  simp [InPlay, hstate] at hinplay

end Server

end Jeux
