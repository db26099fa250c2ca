import Jeux.Service.Handling

/-!
Requests that end a game. Its result is posted, and nothing else changes the rating of a player.
-/

namespace Jeux

open ServerM

variable {answers : Env} {w w' : World} {s s' t : Store} {client : ClientPtr} {op : Operation}
  {r : Int} {extra : ClientPtr → Nat} {σ τ : Server} {q : ClientRequest} {player : PlayerPtr}
  {result result' : PostedResult} {expected expected' : Int → Rat}

/-! ## Results one after the other -/

namespace Store

theorem post_players_congr (h : s'.players = s.players)
    : (s'.post expected result).players = (s.post expected result).players := by
  unfold post
  rw [h]
  split
  . exact h
  . split
    . simp only [modifyPlayer, h]
    . exact h

theorem get?_post_of_ne (hne1 : player ≠ result.player1) (hne2 : player ≠ result.player2)
    : (s.post expected result).players.get? player = s.players.get? player := by
  unfold post
  split
  . rfl
  . split
    . simp only [modifyPlayer, Heap.get?_modify, if_neg hne1, if_neg hne2]
    . rfl

end Store

/-! ## Operations that end a game -/

/--
`s.Concludes answers client op result`: called by `client`, `op` ends a game, nothing fails on the
way, and `result` is posted. An opponent with no other reference is freed before the operation is
done with it, which is a fault.
-/
inductive Store.Concludes (s : Store) (answers : Env) (client : ClientPtr)
    : Operation → PostedResult → Prop
  | resigned {id : Int} {inv : InvitationPtr} {i : Invitation} {game : GamePtr} {c co : Client}
      {player playero : PlayerPtr} (h : s.Playing client id inv i game)
      (hc : s.clients.get? client = some c) (hco : s.clients.get? (i.opponentOf client) = some co)
      (hplayer : c.player = some player) (hplayero : co.player = some playero)
      (hkeep : co.refCount ≠ 1) (hsend : answers.sendOk 0 = true)
      : Concludes s answers client (.resign id)
          (resultOf (i.roleOf client) player playero (i.roleOf (i.opponentOf client)))
  | finished {id : Int} {text : CString} {inv : InvitationPtr} {i : Invitation} {game : GamePtr}
      {g : Game} {move : GameMove} {c co : Client} {player playero : PlayerPtr}
      (h : s.Move client id text inv i game g move) (hc : s.clients.get? client = some c)
      (hco : s.clients.get? (i.opponentOf client) = some co) (hplayer : c.player = some player)
      (hplayero : co.player = some playero) (hkeep : co.refCount ≠ 1)
      (halloc : answers.allocOk 0 = true) (hover : (gameApplyMove g move).2.isOver = true)
      (hsend : ∀ n < 3, answers.sendOk n = true)
      : Concludes s answers client (.move id text)
          (resultOf (i.roleOf client) player playero (gameApplyMove g move).2.winner)

theorem Store.Playing.unique {id : Int} {inv inv' : InvitationPtr} {i i' : Invitation}
    {game game' : GamePtr} (h : s.Playing client id inv i game)
    (h' : s.Playing client id inv' i' game') : inv' = inv ∧ i' = i ∧ game' = game := by
  obtain rfl := Option.some.inj (h.named.symm.trans h'.named)
  obtain rfl := Option.some.inj (h.invitation.symm.trans h'.invitation)
  obtain rfl := Option.some.inj (h.owned.symm.trans h'.owned)
  exact ⟨rfl, rfl, rfl⟩

namespace Store.Concludes

theorem unique (h : s.Concludes answers client op result)
    (h' : s.Concludes answers client op result') : result' = result := by
  cases h with
  | resigned h hc hco hplayer hplayero =>
    cases h' with
    | resigned h' hc' hco' hplayer' hplayero' =>
      obtain ⟨rfl, rfl, rfl⟩ := h.unique h'
      obtain rfl := Option.some.inj (hc.symm.trans hc')
      obtain rfl := Option.some.inj (hco.symm.trans hco')
      obtain rfl := Option.some.inj (hplayer.symm.trans hplayer')
      obtain rfl := Option.some.inj (hplayero.symm.trans hplayero')
      rfl
  | finished h hc hco hplayer hplayero =>
    cases h' with
    | finished h' hc' hco' hplayer' hplayero' =>
      obtain ⟨rfl, rfl, rfl, rfl, rfl⟩ := h.unique h'
      obtain rfl := Option.some.inj (hc.symm.trans hc')
      obtain rfl := Option.some.inj (hco.symm.trans hco')
      obtain rfl := Option.some.inj (hplayer.symm.trans hplayer')
      obtain rfl := Option.some.inj (hplayero.symm.trans hplayero')
      rfl

/--
What the operation does then. It would come to nothing only if the opponent went away.
-/
theorem run (h : w.store.Concludes answers client op result) (hw : w.store.Holds extra client)
    : ∃ w', (op.call client).run (answers.since w.trace) w = .ok (0, w')
        ∧ w'.store.players = (w.store.post answers.expected result).players := by
  cases h with
  | resigned h hc hco hplayer hplayero hkeep hsend =>
    have hsend' : (answers.since w.trace).sendOk w.trace.sent.length = true := by simpa using hsend
    have hrun := clientResignGame_run hw.valid hw.linked hw.held h.named h.invitation h.state
      h.owned hc hco hplayer hplayero hsend'
    rw [if_neg hkeep] at hrun
    refine ⟨_, hrun, ?_⟩
    rw [World.conclude, Store.dissolve_players]
    exact post_players_congr rfl
  | finished h hc hco hplayer hplayero hkeep halloc hover hsend =>
    have hends := (endsGame_since w).mpr ⟨hsend 0 (by decide), hover, hsend 1 (by decide),
      hsend 2 (by decide)⟩
    obtain ⟨c', co', player', playero', hc', hco', hplayer', hplayero', hrun⟩ :=
      clientMakeMove_run_ends hw.valid hw.linked hw.held h hends (by simpa using halloc)
    obtain rfl := Option.some.inj (hc.symm.trans hc')
    obtain rfl := Option.some.inj (hco.symm.trans hco')
    obtain rfl := Option.some.inj (hplayer.symm.trans hplayer')
    obtain rfl := Option.some.inj (hplayero.symm.trans hplayero')
    rw [if_neg hkeep] at hrun
    refine ⟨_, hrun, ?_⟩
    rw [World.conclude, Store.dissolve_players]
    exact post_players_congr rfl

end Store.Concludes

section Effects

variable {id : Int} {text : CString}

theorem Store.Concludes.playing (h : s.Concludes answers client (.resign id) result)
    : answers.sendOk 0 = true ∧ ∃ inv i game, s.Playing client id inv i game := by
  cases h with
  | resigned h _ _ _ _ _ hsend => exact ⟨hsend, _, _, _, h⟩

theorem Store.Concludes.moving (h : s.Concludes answers client (.move id text) result)
    : answers.allocOk 0 = true ∧ (∀ n < 3, answers.sendOk n = true)
        ∧ ∃ inv i game g move, s.Move client id text inv i game g move
          ∧ (gameApplyMove g move).2.isOver = true := by
  cases h with
  | finished h _ _ _ _ _ halloc hover hsend => exact ⟨halloc, hsend, _, _, _, _, _, h, hover⟩

/--
An operation that returns either has ended a game, or has left all ratings as they were.
-/
theorem Effect.concludes (h : Effect (answers.since w.trace) w client op r w')
    (hw : w.store.Holds extra client)
    (hrun : (op.call client).run (answers.since w.trace) w = .ok (r, w'))
    : (∃ result, w.store.Concludes answers client op result)
        ∨ ((∀ result, ¬ w.store.Concludes answers client op result)
          ∧ w'.store.players = w.store.players) := by
  cases h with
  | refused _ _ hno =>
    refine .inr ⟨?_, rfl⟩
    intro result hconcludes
    apply hno
    cases hconcludes with
    | resigned h => exact ⟨_, _, _, h⟩
    | finished h _ _ _ _ _ halloc => exact ⟨by simpa using halloc, _, _, _, _, _, h⟩
  | resignUnsent h hsend =>
    refine .inr ⟨?_, rfl⟩
    intro result hconcludes
    simp [hconcludes.playing.1] at hsend
  | @resigned _ _ i _ _ co _ _ h hc hco hplayer hplayero hsend =>
    have hrun' := clientResignGame_run hw.valid hw.linked hw.held h.named h.invitation h.state
      h.owned hc hco hplayer hplayero hsend
    by_cases hkeep : co.refCount = 1
    . rw [if_pos hkeep] at hrun'
      rw [Operation.call, hrun'] at hrun
      simp at hrun
    . exact .inl ⟨_, .resigned h hc hco hplayer hplayero hkeep (by simpa using hsend)⟩
  | moveUnsent h hsend =>
    refine .inr ⟨?_, rfl⟩
    intro result hconcludes
    simp [hconcludes.moving.2.1 0 (by decide)] at hsend
  | moved h _ hover =>
    refine .inr ⟨?_, rfl⟩
    intro result hconcludes
    obtain ⟨-, -, _, _, _, _, _, h', hover'⟩ := hconcludes.moving
    obtain ⟨rfl, rfl, rfl, rfl, rfl⟩ := h.unique h'
    simp [hover] at hover'
  | endUnsent h _ _ hend =>
    refine .inr ⟨?_, rfl⟩
    intro result hconcludes
    simp [hconcludes.moving.2.1 1 (by decide)] at hend
  | endUnsentSelf h _ _ _ hself =>
    refine .inr ⟨?_, rfl⟩
    intro result hconcludes
    simp [hconcludes.moving.2.1 2 (by decide)] at hself
  | @finished _ _ _ i _ g move _ co _ _ h hc hco hplayer hplayero hsend hover hend hself halloc =>
    obtain ⟨c', co', player', playero', -, hco', -, -, hrun'⟩ :=
      clientMakeMove_run_ends hw.valid hw.linked hw.held h ⟨hsend, hover, hend, hself⟩ halloc
    obtain rfl := Option.some.inj (hco.symm.trans hco')
    by_cases hkeep : co.refCount = 1
    . rw [if_pos hkeep] at hrun'
      rw [Operation.call, hrun'] at hrun
      simp at hrun
    . refine .inl ⟨_, .finished h hc hco hplayer hplayero hkeep (by simpa using halloc) hover ?_⟩
      have hends := (endsGame_since w).mp ⟨hsend, hover, hend, hself⟩
      intro n hn
      obtain rfl | rfl | rfl : n = 0 ∨ n = 1 ∨ n = 2 := by omega
      . exact hends.1
      . exact hends.2.2.1
      . exact hends.2.2.2
  | revoked | declined => exact .inr ⟨(by rintro _ ⟨⟩), Store.dissolve_players ..⟩
  | revokedByTarget | declinedBySource => exact .inr ⟨(by rintro _ ⟨⟩), Store.drop_players ..⟩
  | _ => exact .inr ⟨(by rintro _ ⟨⟩), rfl⟩

end Effects

/-! ## Requests that end a game -/

namespace Server

def Concludes (σ : Server) (q : ClientRequest) (result : PostedResult) : Prop :=
  ∃ op, σ.Grants q op ∧ σ.world.store.Concludes q.answers q.client op result

theorem Concludes.unique (h : σ.Concludes q result) (h' : σ.Concludes q result')
    : result' = result := by
  obtain ⟨op, hgrants, hconcludes⟩ := h
  obtain ⟨op', hgrants', hconcludes'⟩ := h'
  obtain rfl := Option.some.inj (hgrants.asks.symm.trans hgrants'.asks)
  exact hconcludes.unique hconcludes'

theorem Receives.handle_error {f : Fault} (h : σ.Receives q) (hok : σ.Ok) (hgrants : σ.Grants q op)
    (hrun : (op.call q.client).run (q.answers.since σ.world.trace) σ.world = .error f)
    : σ.handle q = .error f := by
  obtain ⟨gate, hgate, hopen⟩ := hgrants.gate
  obtain ⟨type, htype, hrequest, -⟩ := h.type
  rw [handle_eq hgate htype hrequest,
    servicePacket_run_error hok.steady.valid hopen hgrants.asks hrun]

theorem Receives.handle_ok (h : σ.Receives q) (hok : σ.Ok) (hgrants : σ.Grants q op)
    (hrun : (op.call q.client).run (q.answers.since σ.world.trace) σ.world = .ok (r, w'))
    : ∃ τ, σ.handle q = .ok τ ∧ τ.world.store = w'.store := by
  obtain ⟨gate, hgate, hopen⟩ := hgrants.gate
  obtain ⟨type, htype, hrequest, -⟩ := h.type
  have hserves := hok.serves h.connected
  have heffect := hserves.effect (hok.steady.callable hserves.registered hgrants.asks) hrun
  obtain ⟨c, hc⟩ := hserves.exists_client
  obtain ⟨c', hc', -⟩ := heffect.keepsSessions.get? hc
  obtain ⟨data, hserve⟩ := servicePacket_run_request hok.steady.valid hopen hgrants.asks hrun hc'
  rw [handle_eq hgate htype hrequest, hserve]
  refine ⟨_, rfl, ?_⟩
  dsimp only
  split
  . rfl
  . unfold World.answered
    split <;> rfl

/--
A request that ends a game is handled without a fault.
-/
theorem Receives.concludes (h : σ.Receives q) (hok : σ.Ok) (hconcludes : σ.Concludes q result)
    : ∃ τ, σ.handle q = .ok τ := by
  obtain ⟨op, hgrants, hconcludes⟩ := hconcludes
  obtain ⟨w', hrun, -⟩ := hconcludes.run (h.holds hok)
  obtain ⟨τ, hτ, -⟩ := h.handle_ok hok hgrants hrun
  exact ⟨τ, hτ⟩

/--
A request changes ratings only by the result of a game that it ends.
-/
theorem Receives.players (h : σ.Receives q) (hok : σ.Ok) (hhandle : σ.handle q = .ok τ)
    : (∃ result, σ.Concludes q result
          ∧ τ.world.store.players = (σ.world.store.post q.answers.expected result).players)
        ∨ ((∀ result, ¬ σ.Concludes q result)
          ∧ τ.world.store.players = σ.world.store.players) := by
  by_cases hgrants : ∃ op, σ.Grants q op
  . obtain ⟨op, hgrants⟩ := hgrants
    have hserves := hok.serves h.connected
    cases hrun : (op.call q.client).run (q.answers.since σ.world.trace) σ.world with
    | error f => simp [h.handle_error hok hgrants hrun] at hhandle
    | ok p =>
      obtain ⟨r, w'⟩ := p
      obtain ⟨τ', hτ', hstore⟩ := h.handle_ok hok hgrants hrun
      obtain rfl := Except.ok.inj (hhandle.symm.trans hτ')
      have heffect := hserves.effect (hok.steady.callable hserves.registered hgrants.asks) hrun
      rw [hstore]
      rcases heffect.concludes (h.holds hok) hrun with ⟨result, hconcludes⟩ | ⟨hnone, hsame⟩
      . obtain ⟨w'', hrun', hplayers⟩ := hconcludes.run (h.holds hok)
        obtain ⟨-, rfl⟩ := Prod.mk.inj (Except.ok.inj (hrun.symm.trans hrun'))
        exact .inl ⟨result, ⟨op, hgrants, hconcludes⟩, hplayers⟩
      . refine .inr ⟨?_, hsame⟩
        rintro result ⟨op', hgrants', hconcludes⟩
        obtain rfl := Option.some.inj (hgrants.asks.symm.trans hgrants'.asks)
        exact hnone result hconcludes
  . have hoperates := (h.handling hok hhandle).operates
    refine .inr ⟨fun result ⟨op, hg, _⟩ => hgrants ⟨op, hg⟩, ?_⟩
    generalize τ.world.store = s' at hoperates ⊢
    cases hoperates with
    | nothing => rfl
    | called hg => exact absurd ⟨_, hg⟩ hgrants

theorem Receives.players_of_concludes (h : σ.Receives q) (hok : σ.Ok) (hhandle : σ.handle q = .ok τ)
    (hconcludes : σ.Concludes q result)
    : τ.world.store.players = (σ.world.store.post q.answers.expected result).players := by
  rcases h.players hok hhandle with ⟨result', hconcludes', heq⟩ | ⟨hnone, -⟩
  . rw [heq, hconcludes.unique hconcludes']
  . exact absurd hconcludes (hnone result)

theorem Receives.players_of_not_concludes (h : σ.Receives q) (hok : σ.Ok)
    (hhandle : σ.handle q = .ok τ) (hnone : ∀ result, ¬ σ.Concludes q result)
    : τ.world.store.players = σ.world.store.players := by
  rcases h.players hok hhandle with ⟨result, hconcludes, -⟩ | ⟨-, heq⟩
  . exact absurd hconcludes (hnone result)
  . exact heq

end Server

end Jeux
