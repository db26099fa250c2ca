import Jeux.Service.Results

/-!
What `client_logout` leaves behind.
-/

namespace Jeux

open ServerM

variable {env : Env} {w w' : World} {client : ClientPtr} {c : Client} {σ σ' : Server} {e : Event}
  {op : Operation} {r : Int} {inv : InvitationPtr} {i : Invitation} {extra : ClientPtr → Nat}
  {nodes : List InvitationNode} {game : GamePtr} {n : Nat}

/-! ## Games that go on -/

def Game.Undecided (g : Game) : Prop := g.isOver = false → g.winner = .nullRole

theorem gameApplyMove_isOver {g : Game} {move : GameMove}
    (hon : (gameApplyMove g move).2.isOver = false) : g.isOver = false := by
  unfold gameApplyMove gameIsOver at hon
  split at hon
  . exact hon
  . split at hon
    . exact hon
    . dsimp only at hon
      split at hon
      . simp at hon
      . split at hon
        . simp at hon
        . exact hon

theorem Game.Undecided.applyMove {g : Game} (h : g.Undecided) (move : GameMove)
    : (gameApplyMove g move).2.Undecided := by
  intro hon
  rw [gameApplyMove_winner hon]
  exact h (gameApplyMove_isOver hon)

theorem Game.Undecided.resign {g : Game} (h : g.Undecided) (role : GameRole)
    : (gameResign g role).2.Undecided := by
  unfold gameResign
  split
  . exact h
  . simp [Undecided]

namespace Store

variable {s : Store}

def Undecided (s : Store) : Prop := ∀ game g, s.games.get? game = some g → g.Undecided

theorem Undecided.congr {s' : Store} (h : s.Undecided) (hgames : s'.games = s.games)
    : s'.Undecided := by
  unfold Undecided
  rw [hgames]
  exact h

theorem Undecided.modifyGame (h : s.Undecided) (game : GamePtr) {f : Game → Game}
    (hf : ∀ g, g.Undecided → (f g).Undecided) : (s.modifyGame game f).Undecided := by
  intro game' g' hg'
  obtain ⟨g, hg, rfl⟩ := Heap.get?_modify_eq_some.mp hg'
  split
  . exact hf g (h game' g hg)
  . exact h game' g hg

theorem Undecided.resign (h : s.Undecided) (inv : InvitationPtr) (game : GamePtr) (role : GameRole)
    : (s.resign inv game role).Undecided :=
  (h.modifyGame game fun _ hg => hg.resign role).congr rfl

theorem Undecided.accept (h : s.Undecided) (inv : InvitationPtr) : (s.accept inv).Undecided := by
  intro game g hg
  simp only [Store.accept, Heap.get?_push] at hg
  split at hg
  . rw [Option.some.injEq] at hg
    simp [← hg, Game.Undecided, gameCreate]
  . exact h game g hg

theorem Undecided.drop (h : s.Undecided) (client : ClientPtr) (inv : InvitationPtr)
    : (s.drop client inv).Undecided := by
  unfold Store.drop
  split
  . split
    . unfold release
      intro game g hg
      dsimp only at hg
      split at hg
      . rw [Heap.get?_free] at hg
        split at hg
        . simp at hg
        . obtain ⟨g', hg', rfl⟩ := Heap.get?_modify_eq_some.mp hg
          split
          . exact h game g' hg'
          . exact h game g' hg'
      . exact h game g hg
    . exact h.congr rfl
  . exact h

theorem Undecided.dissolve (h : s.Undecided) (client opponent : ClientPtr) (inv : InvitationPtr)
    : (s.dissolve client opponent inv).Undecided := (h.drop client inv).drop opponent inv

end Store

theorem Effect.undecided (h : Effect env w client op r w') (hundecided : w.store.Undecided)
    : w'.store.Undecided := by
  have hplay : ∀ game move, (w.store.play game move).Undecided :=
    fun game move => hundecided.modifyGame game fun _ hg => hg.applyMove move
  cases h with
  | refused => exact hundecided
  | made => exact hundecided
  | revokeUnsent => exact hundecided
  | revoked => exact Store.Undecided.dissolve (s := w.store.close _) hundecided _ _ _
  | revokedByTarget => exact Store.Undecided.drop (s := w.store.close _) hundecided _ _
  | declined => exact Store.Undecided.dissolve (s := w.store.close _) hundecided _ _ _
  | declinedBySource => exact Store.Undecided.drop (s := w.store.close _) hundecided _ _
  | acceptNoRoom => exact hundecided
  | accepted => exact hundecided.accept _
  | resignUnsent => exact hundecided.resign _ _ _
  | resigned =>
    exact ((hundecided.resign _ _ _).congr (Store.post_games _ _)).dissolve _ _ _
  | moveUnsent => exact hplay _ _
  | moved => exact hplay _ _
  | endUnsent => exact hplay _ _
  | endUnsentSelf => exact hplay _ _
  | finished => exact ((hplay _ _).congr (Store.post_games _ _)).dissolve _ _ _

theorem Server.undecided_of_reachable (h : Reachable env σ) : σ.Ok ∧ σ.world.store.Undecided := by
  apply h.invariant (fun σ => σ.Ok ∧ σ.world.store.Undecided)
  . exact ⟨initial_ok, by simp [Store.Undecided, initialServer, initialWorld, initialStore]⟩
  . rintro σ e σ' ⟨hok, hundecided⟩ - hstep
    have hsteps := steps_of_step hok hstep
    exact ⟨hsteps.ok hok, hsteps.preserves hok (fun _ _ _ hgames h => h.congr hgames)
      (fun _ _ _ _ _ _ _ _ heffect => heffect.undecided) hundecided⟩

/-! ## One node -/

/--
What `client_logout` needs to get rid of an invitation: that there is something left to do about it,
and that the packet about it can be sent, unless it is one about a declined invitation.
-/
def Invitation.Leavable (env : Env) (client : ClientPtr) (n : Nat) (i : Invitation) : Prop :=
  i.Active ∧ (env.sendOk n = true ∨ (i.state = .openState ∧ i.target = client))

def Store.ResignedBy (s s' : Store) (client : ClientPtr) (inv : InvitationPtr) (p : PostedResult)
    : Prop :=
  ∃ i game, s.invitations.get? inv = some i ∧ i.game = some game
    ∧ s.playerAt i.first = some p.player1 ∧ s.playerAt i.second = some p.player2
    ∧ p.result = i.roleOf (i.opponentOf client)
    ∧ ∀ g, s.games.get? game = some g → g.isOver = false → s'.winnerAt game = some p.result

structure World.Leaves (w w' : World) (client : ClientPtr) (inv : InvitationPtr) (i : Invitation)
    : Prop where
  gone : w'.store.invitations.get? inv = none
  closed : w'.store.stateAt inv = some .closedState
  sent : w'.trace.sent.length = w.trace.sent.length + 1
  posted : match i.game with
    | none => w'.trace.posted = w.trace.posted
    | some _ => ∃ p, w'.trace.posted = w.trace.posted ++ [p]
        ∧ w.store.ResignedBy w'.store client inv p

theorem Effect.leaves_of_logoutOp {id : Int} (h : Effect env w client (logoutOp client i id) r w')
    (hserves : w.store.Serves extra client) (hundecided : w.store.Undecided)
    (hnamed : w.store.invitationOf client id = some inv)
    (hi : w.store.invitations.get? inv = some i)
    (hleavable : i.Leavable env client w.trace.sent.length) : w.Leaves w' client inv i := by
  have hv := hserves.valid
  have hs := hserves.settled
  have hok := hv.invitation inv i hi
  obtain ⟨hactive, hsend⟩ := hleavable
  obtain ⟨-, i', -, -, hi', hor⟩ := hv.invitationOf hnamed
  obtain rfl := Option.some.inj (hi.symm.trans hi')
  cases hgame : i.game with
  | none =>
    have hopen : i.state = .openState := hactive.resolve_right fun h => h.2 hgame
    by_cases hsource : i.source = client
    . have hop : logoutOp client i id = .revoke id := by simp [logoutOp, hgame, hsource]
      rw [hop] at h
      cases h with
      | refused _ _ hno => exact absurd ⟨inv, i, hnamed, hi, hopen⟩ hno
      | revokeUnsent hopen' hunsent =>
        cases hsend with
        | inl hsend => simp [hunsent] at hsend
        | inr hor => exact absurd (hsource.trans hor.2.symm) hok.distinct
      | revoked hopen' =>
        obtain rfl := Option.some.inj (hopen'.named.symm.trans hnamed)
        obtain rfl := Option.some.inj (hopen'.invitation.symm.trans hi)
        have hshared := (hopen'.shared hv hs.linked).close
        rw [opponentOf_source hsource] at hshared
        refine ⟨hshared.gone, ?_, by simp, ?_⟩
        . rw [Store.stateAt_dissolve, Store.stateAt_close hi]
        . rw [hgame]
          rfl
      | revokedByTarget hopen' htarget =>
        obtain rfl := Option.some.inj (hopen'.named.symm.trans hnamed)
        obtain rfl := Option.some.inj (hopen'.invitation.symm.trans hi)
        exact absurd (hsource.trans htarget.symm) hok.distinct
    . have hop : logoutOp client i id = .decline id := by simp [logoutOp, hgame, hsource]
      rw [hop] at h
      cases h with
      | refused _ _ hno => exact absurd ⟨inv, i, hnamed, hi, hopen⟩ hno
      | declined hopen' htarget =>
        obtain rfl := Option.some.inj (hopen'.named.symm.trans hnamed)
        obtain rfl := Option.some.inj (hopen'.invitation.symm.trans hi)
        have hshared := (hopen'.shared hv hs.linked).close
        rw [hok.opponentOf_target htarget] at hshared
        refine ⟨hshared.gone, ?_, by simp, ?_⟩
        . rw [Store.stateAt_dissolve, Store.stateAt_close hi]
        . rw [hgame]
          rfl
      | declinedBySource hopen' hsource' =>
        obtain rfl := Option.some.inj (hopen'.named.symm.trans hnamed)
        obtain rfl := Option.some.inj (hopen'.invitation.symm.trans hi)
        exact absurd hsource' hsource
  | some game =>
    have haccepted := hactive.resolve_left (hok.state_ne_open (by simp [hgame]))
    have hop : logoutOp client i id = .resign id := by simp [logoutOp, hgame]
    rw [hop] at h
    cases h with
    | refused _ _ hno => exact absurd ⟨inv, i, game, hnamed, hi, haccepted.1, hgame⟩ hno
    | resignUnsent _ hunsent =>
      cases hsend with
      | inl hsend => simp [hunsent] at hsend
      | inr hopen => simp [haccepted.1] at hopen
    | @resigned _ inv' i' game' c co player playero hplay hc hco hplayer hplayero =>
      obtain rfl := Option.some.inj (hplay.named.symm.trans hnamed)
      obtain rfl := Option.some.inj (hplay.invitation.symm.trans hi)
      obtain rfl := Option.some.inj (hplay.owned.symm.trans hgame)
      have hshared := ((hplay.shared hv hs.linked).resign game' (i'.roleOf client)).post env.expected
        (resultOf (i'.roleOf client) player playero (i'.roleOf (i'.opponentOf client)))
      obtain ⟨hfirst, hsecond⟩ := playerAt_resultOf hok.roles hor hc hco hplayer hplayero
        (i'.roleOf (i'.opponentOf client))
      refine ⟨hshared.gone, ?_, by simp [World.conclude], ?_⟩
      . rw [World.conclude, Store.stateAt_dissolve, Store.stateAt_post]
        exact Store.stateAt_close hi
      . rw [hgame]
        refine ⟨_, rfl, i', game', hi, hgame, hfirst, hsecond, rfl, ?_⟩
        intro g hg hover
        rw [World.conclude, Store.winnerAt_dissolve, Store.winnerAt_post,
          Store.winnerAt_resign hg (hundecided game' g hg hover),
          ← roleOf_opponentOf hok.roles hok.distinct]
        rfl

theorem Effect.stays_of_logoutOp {id : Int} (h : Effect env w client (logoutOp client i id) r w')
    (hserves : w.store.Serves extra client)
    (hnamed : w.store.invitationOf client id = some inv)
    (hi : w.store.invitations.get? inv = some i)
    (hleavable : ¬ i.Leavable env client w.trace.sent.length)
    : w'.store.clients = w.store.clients := by
  have hok := hserves.valid.invitation inv i hi
  cases hgame : i.game with
  | none =>
    by_cases hsource : i.source = client
    . have hop : logoutOp client i id = .revoke id := by simp [logoutOp, hgame, hsource]
      rw [hop] at h
      cases h with
      | refused => rfl
      | revokeUnsent => rfl
      | revoked hopen _ hsend =>
        obtain rfl := Option.some.inj (hopen.named.symm.trans hnamed)
        obtain rfl := Option.some.inj (hopen.invitation.symm.trans hi)
        exact absurd ⟨.inl hopen.state, .inl hsend⟩ hleavable
      | revokedByTarget hopen htarget =>
        obtain rfl := Option.some.inj (hopen.named.symm.trans hnamed)
        obtain rfl := Option.some.inj (hopen.invitation.symm.trans hi)
        exact absurd (hsource.trans htarget.symm) hok.distinct
    . have hop : logoutOp client i id = .decline id := by simp [logoutOp, hgame, hsource]
      rw [hop] at h
      cases h with
      | refused => rfl
      | declined hopen htarget =>
        obtain rfl := Option.some.inj (hopen.named.symm.trans hnamed)
        obtain rfl := Option.some.inj (hopen.invitation.symm.trans hi)
        exact absurd ⟨.inl hopen.state, .inr ⟨hopen.state, htarget⟩⟩ hleavable
      | declinedBySource hopen hsource' =>
        obtain rfl := Option.some.inj (hopen.named.symm.trans hnamed)
        obtain rfl := Option.some.inj (hopen.invitation.symm.trans hi)
        exact absurd hsource' hsource
  | some game =>
    have hop : logoutOp client i id = .resign id := by simp [logoutOp, hgame]
    rw [hop] at h
    cases h with
    | refused => rfl
    | resignUnsent => rfl
    | resigned hplay _ _ _ _ hsend =>
      obtain rfl := Option.some.inj (hplay.named.symm.trans hnamed)
      obtain rfl := Option.some.inj (hplay.invitation.symm.trans hi)
      exact absurd ⟨.inr ⟨hplay.state, by simp [hgame]⟩, .inl hsend⟩ hleavable

/-! ## The list -/

/--
`client_logout` gets rid of all invitations of a list, when `n` packets have been sent before.
-/
def Store.CanLeave (s : Store) (env : Env) (client : ClientPtr) : Nat → List InvitationNode → Prop
  | _, [] => True
  | n, node :: nodes =>
    (∃ i, s.invitations.get? node.invitation = some i ∧ i.Leavable env client n)
      ∧ s.CanLeave env client (n + 1) nodes

theorem Store.canLeave_congr {s s' : Store}
    (h : ∀ node ∈ nodes, s'.invitations.get? node.invitation = s.invitations.get? node.invitation)
    : s'.CanLeave env client n nodes ↔ s.CanLeave env client n nodes := by
  induction nodes generalizing n with
  | nil => exact Iff.rfl
  | cons node rest ih =>
    simp only [CanLeave, h node List.mem_cons_self,
      ih fun other hother => h other (List.mem_cons_of_mem _ hother)]

def Store.hasGame (s : Store) (inv : InvitationPtr) : Bool :=
  ((s.invitations.get? inv).bind (·.game)).isSome

/--
All invitations of a list have been closed and have left the lists, and the results of all games
among them have been posted, in this order.
-/
structure World.LeavesAll (w w' : World) (client : ClientPtr) (nodes : List InvitationNode)
    : Prop where
  closed : ∀ node ∈ nodes, w'.store.invitations.get? node.invitation = none
    ∧ w'.store.stateAt node.invitation = some .closedState
  posted : ∃ posts : List (InvitationPtr × PostedResult),
    w'.trace.posted = w.trace.posted ++ posts.map (·.2)
      ∧ posts.map (·.1) = (nodes.map (·.invitation)).filter w.store.hasGame
      ∧ ∀ p ∈ posts, w.store.ResignedBy w'.store client p.1 p.2

theorem Store.ResignedBy.of_sameAt {s s₁ s' : Store} {p : PostedResult}
    (h : s₁.ResignedBy s' client inv p) (hsame : s.SameAt s₁ inv)
    (hsessions : s.KeepsSessions s₁) : s.ResignedBy s' client inv p := by
  obtain ⟨i, game, hi, hown, hfirst, hsecond, hresult, hwinner⟩ := h
  rw [hsessions.playerAt] at hfirst hsecond
  rw [hsame.invitation] at hi
  refine ⟨i, game, hi, hown, hfirst, hsecond, hresult, ?_⟩
  intro g hg hover
  apply hwinner g _ hover
  rw [hsame.game i game hi hown, hg]

theorem Store.ResignedBy.extends {s s₁ s' : Store} {p : PostedResult}
    (h : s.ResignedBy s₁ client inv p) (hv : s.Valid extra) (hv₁ : s₁.Valid extra)
    (hkeeps : s.KeepsGames s₁) (hgone : s₁.invitations.get? inv = none) (hextends : s.Extends s₁)
    (hextends' : s₁.Extends s') : s.ResignedBy s' client inv p := by
  obtain ⟨i, game, hi, hown, hfirst, hsecond, hresult, hwinner⟩ := h
  refine ⟨i, game, hi, hown, hfirst, hsecond, hresult, ?_⟩
  intro g hg hover
  rw [← hwinner g hg hover]
  apply Store.winnerAt_of_gone hextends' (hv.game_gone hv₁ hkeeps hi hown hgone)
  exact Nat.lt_of_lt_of_le (Heap.lt_next_of_get? hg) hextends.games.next_le

theorem World.Leaves.posts (h : w.Leaves w' client inv i)
    (hi : w.store.invitations.get? inv = some i)
    : ∃ posts : List (InvitationPtr × PostedResult),
        w'.trace.posted = w.trace.posted ++ posts.map (·.2)
          ∧ posts.map (·.1) = [inv].filter w.store.hasGame
          ∧ ∀ p ∈ posts, w.store.ResignedBy w'.store client p.1 p.2 := by
  have hposted := h.posted
  cases hgame : i.game with
  | none =>
    rw [hgame] at hposted
    exact ⟨[], by simpa using hposted, by simp [Store.hasGame, hi, hgame], by simp⟩
  | some game =>
    rw [hgame] at hposted
    obtain ⟨p, hposted, hresigned⟩ := hposted
    refine ⟨[(inv, p)], by simpa using hposted, by simp [Store.hasGame, hi, hgame], ?_⟩
    intro q hq
    obtain rfl := List.mem_singleton.mp hq
    exact hresigned

theorem LogoutRun.leavesAll (h : LogoutRun env client w nodes w')
    (hserves : w.store.Serves extra client) (hundecided : w.store.Undecided)
    (hnodup : (nodes.map (·.invitation)).Nodup)
    (hleave : w.store.CanLeave env client w.trace.sent.length nodes)
    : w.LeavesAll w' client nodes := by
  induction h with
  | nil => exact ⟨by simp, [], by simp, by simp, by simp⟩
  | @cons w w₁ w' c i₀ node rest r hc hnode hi heffect hrest ih =>
    rw [List.map_cons, List.nodup_cons] at hnodup
    obtain ⟨⟨i, hi', hleavable⟩, hleave⟩ := hleave
    obtain rfl := Option.some.inj (hi.symm.trans hi')
    have hnamed := hserves.valid.invitationOf_node hc hnode
    have hserves₁ := heffect.serves hserves (hserves.callable (logoutOp_ne_make _ _ _))
    have hleaves := heffect.leaves_of_logoutOp hserves hundecided hnamed hi hleavable
    -- the operation for this node leaves the others alone
    have hsame : ∀ other ∈ rest, w.store.SameAt w₁.store other.invitation := by
      intro other hother
      apply heffect.sameAt hserves.valid hserves.settled.linked
      rw [subject?_logoutOp, hnamed, ne_eq, Option.some.injEq]
      intro heq
      exact hnodup.1 (heq ▸ List.mem_map_of_mem hother)
    have hsessions := heffect.keepsSessions
    have hall : w₁.LeavesAll w' client rest := by
      apply ih hserves₁ (heffect.undecided hundecided) hnodup.2
      rw [hleaves.sent, Store.canLeave_congr fun other hother => (hsame other hother).invitation]
      exact hleave
    have hlater := hrest.sameAt hserves₁ hnodup.1
    constructor
    . intro other hother
      cases List.mem_cons.mp hother with
      | inl heq =>
        subst heq
        exact ⟨hlater.invitation.trans hleaves.gone, hlater.stateAt hrest.extends hleaves.closed⟩
      | inr hmem => exact hall.closed other hmem
    . obtain ⟨posts, hposted, hmap, hresigned⟩ := hleaves.posts hi
      obtain ⟨posts', hposted', hmap', hresigned'⟩ := hall.posted
      have hfilter : (rest.map (·.invitation)).filter w₁.store.hasGame
          = (rest.map (·.invitation)).filter w.store.hasGame := by
        apply List.filter_congr
        intro inv hinv
        obtain ⟨other, hother, rfl⟩ := List.mem_map.mp hinv
        rw [Store.hasGame, Store.hasGame, (hsame other hother).invitation]
      refine ⟨posts ++ posts', ?_, ?_, ?_⟩
      . rw [hposted', hposted, List.map_append, List.append_assoc]
      . rw [List.map_append, hmap, hmap', hfilter, List.map_cons]
        exact (List.filter_append [node.invitation] _).symm
      . intro p hp
        cases List.mem_append.mp hp with
        | inl hp =>
          have hgone : w₁.store.invitations.get? p.1 = none := by
            have hmem : p.1 ∈ posts.map (·.1) := List.mem_map_of_mem hp
            rw [hmap] at hmem
            rw [List.mem_singleton.mp (List.mem_of_mem_filter hmem)]
            exact hleaves.gone
          exact (hresigned p hp).extends hserves.valid hserves₁.valid
            heffect.keepsGames_of_logoutOp hgone heffect.extends hrest.extends
        | inr hp =>
          have hmem : p.1 ∈ posts'.map (·.1) := List.mem_map_of_mem hp
          rw [hmap'] at hmem
          obtain ⟨other, hother, heq⟩ := List.mem_map.mp (List.mem_of_mem_filter hmem)
          exact (hresigned' p hp).of_sameAt (heq ▸ hsame other hother) hsessions

theorem LogoutRun.canLeave (h : LogoutRun env client w nodes w')
    (hserves : w.store.Serves extra client) (hundecided : w.store.Undecided)
    (hnodup : (nodes.map (·.invitation)).Nodup)
    (hempty : ∀ c', w'.store.clients.get? client = some c' → c'.inviteHead = [])
    : w.store.CanLeave env client w.trace.sent.length nodes := by
  induction h with
  | nil => trivial
  | @cons w w₁ w' c i node rest r hc hnode hi heffect hrest ih =>
    rw [List.map_cons, List.nodup_cons] at hnodup
    have hnamed := hserves.valid.invitationOf_node hc hnode
    have hserves₁ := heffect.serves hserves (hserves.callable (logoutOp_ne_make _ _ _))
    by_cases hleavable : i.Leavable env client w.trace.sent.length
    . have hleaves := heffect.leaves_of_logoutOp hserves hundecided hnamed hi hleavable
      have hleave := ih hserves₁ (heffect.undecided hundecided) hnodup.2 hempty
      refine ⟨⟨i, hi, hleavable⟩, ?_⟩
      rw [hleaves.sent] at hleave
      rw [← Store.canLeave_congr]
      . exact hleave
      . intro other hother
        refine (heffect.sameAt hserves.valid hserves.settled.linked ?_).invitation
        rw [subject?_logoutOp, hnamed, ne_eq, Option.some.injEq]
        intro heq
        exact hnodup.1 (heq ▸ List.mem_map_of_mem hother)
    . exfalso
      have hstays := heffect.stays_of_logoutOp hserves hnamed hi hleavable
      obtain ⟨c', hc', hmem⟩ :=
        (hrest.sameAt hserves₁ hnodup.1).node_mem (c := c) (by rw [hstays, hc]) hnode
      rw [hempty c' hc'] at hmem
      simp at hmem

/-! ## After the call -/

/--
`client` has left nothing behind: its list is empty and all its ids are free, each invitation it had
is closed and in no list any more, and each game it had has been resigned and the result posted, once
and with the opponent as the winner.
-/
structure World.LeftCleanly (w w' : World) (client : ClientPtr) (c : Client) : Prop where
  list : ∃ c', w'.store.clients.get? client = some c' ∧ c'.inviteHead = [] ∧ c'.idUsage = 0
    ∧ ∀ id < c'.currentIdSize, c'.availableIds[id]? = some (id : Int)
  closed : ∀ inv ∈ c.invitations, w'.store.stateAt inv = some .closedState
    ∧ ∀ x, w'.store.listed x inv = 0
  posted : ∃ posts : List (InvitationPtr × PostedResult),
    w'.trace.posted = w.trace.posted ++ posts.map (·.2)
      ∧ posts.map (·.1) = c.invitations.filter w.store.hasGame
      ∧ ∀ p ∈ posts, w.store.ResignedBy w'.store client p.1 p.2

theorem Store.listed_leave {s : Store} {player : PlayerPtr} (x : ClientPtr) (inv : InvitationPtr)
    : (s.leave client player).listed x inv = s.listed x inv := by
  unfold listed
  rw [leave_clients, Heap.get?_modify]
  by_cases hx : x = client
  . rw [if_pos hx]
    cases s.clients.get? x <;> rfl
  . rw [if_neg hx]

theorem LogoutRun.leftCleanly {player : PlayerPtr} (h : LogoutRun env client w c.inviteHead w')
    (hserves : w.store.Serves extra client) (hundecided : w.store.Undecided)
    (hc : w.store.clients.get? client = some c)
    (hleave : w.store.CanLeave env client w.trace.sent.length c.inviteHead)
    : w.LeftCleanly { w' with store := w'.store.leave client player } client c := by
  have hnodup : (c.inviteHead.map (·.invitation)).Nodup :=
    (hserves.valid.client client c hc).nodup
  have hall := h.leavesAll hserves hundecided hnodup hleave
  have hserves' := h.serves hserves
  have hnone : ∀ inv, w'.store.invitations.get? inv = none → ∀ x, w'.store.listed x inv = 0 := by
    intro inv hgone x
    cases hx : w'.store.clients.get? x with
    | none => simp [Store.listed, hx]
    | some cx =>
      rw [Store.listed_of_get? hx, List.count_eq_zero]
      intro hmem
      obtain ⟨i, hi, -⟩ := (hserves'.valid.client x cx hx).mine inv hmem
      rw [hgone] at hi
      simp at hi
  constructor
  . obtain ⟨c', hc', -⟩ := h.keepsSessions.get? hc
    have hids := (hserves'.valid.client client c' hc').ids
    have hempty : c'.inviteHead = [] := by
      rw [List.eq_nil_iff_forall_not_mem]
      intro node hnode
      have hlisted := hserves'.valid.listed_eq_one hc' (List.mem_map_of_mem hnode)
      by_cases hmem : node.invitation ∈ c.inviteHead.map (·.invitation)
      . obtain ⟨other, hother, heq⟩ := List.mem_map.mp hmem
        rw [← heq, hnone _ (hall.closed other hother).1] at hlisted
        simp at hlisted
      . rw [(h.sameAt hserves hmem).listed] at hlisted
        exact hmem (Store.mem_of_listed hc (by omega))
    refine ⟨{ c' with loggedIn := .loggedOut }, by simp [hc'], hempty, ?_, ?_⟩
    . simpa [Client.ids, hempty] using hids.usage
    . intro id hid
      simpa [Client.ids, hempty] using hids.slot id hid
  . intro inv hinv
    obtain ⟨node, hnode, rfl⟩ := List.mem_map.mp hinv
    obtain ⟨hgone, hclosed⟩ := hall.closed node hnode
    refine ⟨hclosed, fun x => ?_⟩
    rw [Store.listed_leave, hnone _ hgone]
  . exact hall.posted

namespace Server

/--
`client_logout` of a client that is logged in always returns `0`. It leaves nothing behind if and
only if there is something to be done about every invitation in the list, and every packet sent can
be written but for those about declined invitations.
-/
theorem logout_leaves_iff (h : Reachable env σ) (hconnected : σ.connections client ≠ none)
    (hc : σ.world.store.clients.get? client = some c) (hin : c.loggedIn = .loggedIn)
    : ∃ w', (clientLogout client).run env σ.world = .ok (0, w')
        ∧ (σ.world.LeftCleanly w' client c
          ↔ σ.world.store.CanLeave env client σ.world.trace.sent.length c.inviteHead) := by
  obtain ⟨hok, hundecided⟩ := undecided_of_reachable h
  have hserves := hok.serves hconnected
  obtain ⟨w₁, player, -, hlogout, hrun⟩ := clientLogout_run env hserves hc hin
  refine ⟨_, hrun, ?_, fun hleave => hlogout.leftCleanly hserves hundecided hc hleave⟩
  intro hclean
  apply hlogout.canLeave hserves hundecided (hserves.valid.client client c hc).nodup
  intro c' hc'
  obtain ⟨c'', hc'', hempty, -⟩ := hclean.list
  simp only [Store.leave_clients, Heap.get?_modify_self, hc', Option.map_some,
    Option.some.injEq] at hc''
  rw [← hempty, ← hc'']

/--
`A` invites `B` and logs out.
-/
theorem logout_leaves_of_invited
    : ∃ σ c w', Reachable calmEnv σ ∧ σ.world.store.clients.get? 0 = some c ∧ c.invitations = [0]
        ∧ (clientLogout 0).run calmEnv σ.world = .ok (0, w')
        ∧ (σ.world.LeftCleanly w' 0 c
          ↔ σ.world.store.CanLeave calmEnv 0 σ.world.trace.sent.length c.inviteHead) := by
  obtain ⟨σ, hreach, hP⟩ := Machine.Reach.of_any_run (machine calmEnv) (fun _ _ => True)
    initialServer invitedEvents
    (fun σ => σ.connections 0 ≠ none ∧ (σ.world.store.clients.get? 0).any fun c =>
      c.invitations = [0] ∧ c.loggedIn = .loggedIn) (by decide +kernel)
  obtain ⟨hconnected, hP⟩ := of_decide_eq_true hP
  cases hc : σ.world.store.clients.get? 0 with
  | none => simp [hc] at hP
  | some c =>
    rw [hc, Option.any_some, decide_eq_true_eq] at hP
    obtain ⟨w', hrun, hiff⟩ := logout_leaves_iff hreach hconnected hc hP.2
    exact ⟨σ, c, w', hreach, hc, hP.1, hrun, hiff⟩

/--
`A` invites `B` and logs out, but the connection to `B` is lost. The invitation stays in the list.
-/
theorem not_leftCleanly_of_unsent
    : ¬ ∀ env σ client c, Reachable env σ → σ.connections client ≠ none →
        σ.world.store.clients.get? client = some c → c.loggedIn = .loggedIn →
        ∃ w', (clientLogout client).run env σ.world = .ok (0, w')
          ∧ σ.world.LeftCleanly w' client c := by
  intro h
  obtain ⟨σ, hreach, hP⟩ := Machine.Reach.of_any_run (machine faultyEnv) (fun _ _ => True)
    initialServer invitedEvents
    (fun σ => σ.connections 0 ≠ none
      ∧ ((σ.world.store.clients.get? 0).any fun c => c.loggedIn = .loggedIn)
      ∧ ((clientLogout 0).run faultyEnv σ.world).toOption.any fun rw =>
        (rw.2.store.clients.get? 0).any fun c => c.inviteHead ≠ []) (by decide +kernel)
  obtain ⟨hconnected, hin, hlist⟩ := of_decide_eq_true hP
  cases hc : σ.world.store.clients.get? 0 with
  | none => simp [hc] at hin
  | some c =>
    rw [hc, Option.any_some, decide_eq_true_eq] at hin
    obtain ⟨w', hrun, hclean⟩ := h faultyEnv σ 0 c hreach hconnected hc hin
    obtain ⟨c', hc', hempty, -⟩ := hclean.list
    rw [hrun] at hlist
    simp [Except.toOption, hc', hempty] at hlist

end Server

end Jeux
