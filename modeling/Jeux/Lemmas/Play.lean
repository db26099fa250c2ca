import Jeux.Lemmas.Operations

/-!
Resigning games and making moves, with the posting of results.
-/

namespace Jeux

open ServerM

variable {env : Env} {w : World} {extra : ClientPtr → Nat} {client : ClientPtr} {c : Client}
  {id : Int} {inv : InvitationPtr} {i : Invitation}

/-! ## The game -/

theorem gameIsOver_gameIsOver (g : Game)
    : gameIsOver (gameIsOver g).2 = ((gameIsOver g).2.isOver, (gameIsOver g).2) := by
  unfold gameIsOver
  cases hwinner : boardWinner? g.rows with
  | some winner => simp [hwinner]
  | none =>
    cases hfull : boardFull g.rows with
    | true => simp [hwinner, hfull]
    | false => simp [hwinner, hfull]

def legalMove? (g : Game) (role : GameRole) (text : CString) : Option GameMove :=
  (gameParseMove g role text).filter fun move => (gameApplyMove g move).1 = 0

theorem gameApplyMove_code (g : Game) (move : GameMove)
    : (gameApplyMove g move).1 = 0 ∨ gameApplyMove g move = (-1, g) := by
  unfold gameApplyMove
  split
  . exact .inr rfl
  . split
    . exact .inr rfl
    . exact .inl rfl

theorem gameIsOver_gameApplyMove {g : Game} {move : GameMove} (h : (gameApplyMove g move).1 = 0)
    : gameIsOver (gameApplyMove g move).2
        = ((gameApplyMove g move).2.isOver, (gameApplyMove g move).2) := by
  unfold gameApplyMove at h ⊢
  split at h
  . simp at h
  . next hturn =>
    split at h
    . simp at h
    . next hfree =>
      simp only [hturn, hfree, ↓reduceIte]
      rw [gameIsOver_gameIsOver]

/-! ## Participants -/

theorem participant_run (hi : w.store.invitations.get? inv = some i)
    (hdistinct : i.source ≠ i.target) (hor : i.source = client ∨ i.target = client)
    : (participant client (some inv)).run env w
        =
      .ok (some (i.roleOf client, i.opponentOf client, i.roleOf (i.opponentOf client)), w) := by
  by_cases hsource : i.source = client
  . have hne : ¬ i.source = i.target := hdistinct
    simp only [participant, run_bind, invGetSource_run hi, hsource, ↓reduceIte,
      run_nonNull_some, invGetSourceRole, run_derefInvitation, hi, run_pure, invGetTarget_run hi,
      invGetTargetRole, Invitation.roleOf, Invitation.opponentOf]
    rw [← hsource, if_neg hne]
  . have htarget : i.target = client := by
      cases hor with
      | inl h => exact absurd h hsource
      | inr h => exact h
    simp only [participant, run_bind, invGetSource_run hi, hsource, ↓reduceIte,
      run_nonNull_some, invGetSourceRole, run_derefInvitation, hi, run_pure, invGetTarget_run hi,
      invGetTargetRole, Invitation.roleOf, Invitation.opponentOf, Option.some.injEq, htarget]

theorem Store.InvitationOk.roleOf_ne_null {s : Store} (h : s.InvitationOk inv i)
    : i.roleOf client ≠ .nullRole := by
  unfold Invitation.roleOf
  split <;> rcases h.roles with ⟨hs, ht⟩ | ⟨hs, ht⟩ <;> simp [hs, ht]

theorem opponentOf_ends (hor : i.source = client ∨ i.target = client)
    : (i.source = client ∧ i.target = i.opponentOf client)
        ∨ (i.source = i.opponentOf client ∧ i.target = client) := by
  unfold Invitation.opponentOf
  by_cases hsource : i.source = client
  . simp [hsource]
  . cases hor with
    | inl h => exact absurd h hsource
    | inr h => simp [hsource, h]

theorem opponentOf_or (hor : i.source = client ∨ i.target = client)
    : i.source = i.opponentOf client ∨ i.target = i.opponentOf client := by
  rcases opponentOf_ends hor with h | h
  . exact .inr h.2
  . exact .inl h.1

theorem opponentOf_source (h : i.source = client) : i.opponentOf client = i.target := by
  simp [Invitation.opponentOf, h]

theorem Store.InvitationOk.opponentOf_target {s : Store} (hok : s.InvitationOk inv i)
    (h : i.target = client) : i.opponentOf client = i.source := by
  unfold Invitation.opponentOf
  split
  . next heq => exact absurd (heq.trans h.symm) hok.distinct
  . rfl

/-! ## Posting a result -/

/--
The result as `post_player_results` hands it to `player_post_result`: the player of the one who has
the first move comes first.
-/
def resultOf (role : GameRole) (player opponent : PlayerPtr) (winner : GameRole) : PostedResult where
  player1 := if role = .firstPlayerRole then player else opponent
  player2 := if role = .firstPlayerRole then opponent else player
  result := winner

theorem playerPostResult_run {player1 player2 : PlayerPtr} {p1 p2 : Player} (winner : GameRole)
    (hp1 : w.store.players.get? player1 = some p1) (hp2 : w.store.players.get? player2 = some p2)
    : (playerPostResult player1 player2 winner).run env w
        =
      .ok ((), {
        store := w.store.post env.expected ⟨player1, player2, winner⟩
        trace := { w.trace with posted := w.trace.posted ++ [⟨player1, player2, winner⟩] } }) := by
  by_cases heq : player1 = player2
  . simp only [playerPostResult, run_bind, run_modifyTrace, heq, ↓reduceIte, run_pure,
      Store.post]
  . simp only [playerPostResult, run_bind, run_modifyTrace, heq, ↓reduceIte,
      run_derefPlayer, hp1, hp2, run_read, run_modifyStore, Store.post]

theorem postPlayerResults_run {opponent : ClientPtr} {co : Client} {player playero : PlayerPtr}
    {p po : Player} (role winner : GameRole) (hc : w.store.clients.get? client = some c)
    (hco : w.store.clients.get? opponent = some co) (hplayer : c.player = some player)
    (hplayero : co.player = some playero) (hp : w.store.players.get? player = some p)
    (hpo : w.store.players.get? playero = some po)
    : (postPlayerResults client opponent role winner).run env w
        =
      .ok (0, {
        store := w.store.post env.expected (resultOf role player playero winner)
        trace := { w.trace with
          posted := w.trace.posted ++ [resultOf role player playero winner] } }) := by
  by_cases hrole : role = .firstPlayerRole
  . simp only [postPlayerResults, run_bind, hrole, ↓reduceIte, clientGetPlayer,
      run_derefClient, hc, hco, hplayer, hplayero, run_pure, playerPostResult_run winner hp hpo,
      resultOf]
  . simp only [postPlayerResults, run_bind, hrole, ↓reduceIte, clientGetPlayer,
      run_derefClient, hc, hco, hplayer, hplayero, run_pure, playerPostResult_run winner hpo hp,
      resultOf]

/-! ## `client_resign_game` -/

theorem clientResignGame_run_refused (hv : w.store.Valid extra)
    (hc : w.store.clients.get? client = some c)
    (hno : ∀ inv i, w.store.invitationOf client id = some inv →
      w.store.invitations.get? inv = some i → i.state ≠ .acceptedState ∨ i.game = none)
    : (clientResignGame client id).run env w = .ok (-1, w) := by
  simp only [clientResignGame, run_bind, clientGetInvitation_run id hc]
  cases hid : w.store.invitationOf client id with
  | none => rfl
  | some inv =>
    obtain ⟨-, i, -, -, hi, hor⟩ := hv.invitationOf hid
    have hok := hv.invitation inv i hi
    simp only [participant_run hi hok.distinct hor, run_bind,
      invClose_run_refused hi hok.roleOf_ne_null (hno inv i hid hi), ↓reduceIte, run_pure]

theorem clientResignGame_run_accepted {game : GamePtr} (hv : w.store.Valid extra)
    (hid : w.store.invitationOf client id = some inv)
    (hi : w.store.invitations.get? inv = some i) (hstate : i.state = .acceptedState)
    (hgame : i.game = some game)
    : (clientResignGame client id).run env w
        =
      (if env.sendOk w.trace.sent.length then (do
          if (← postPlayerResults client (i.opponentOf client) (i.roleOf client)
              (i.roleOf (i.opponentOf client))) = -1 then
            return -1
          else
            removeBoth client (i.opponentOf client) inv : ServerM Int)
        else pure (-1)).run env
        { store := w.store.resign inv game (i.roleOf client)
          trace := w.trace.send env (i.opponentOf client)
            (noticeOf env w .resigned (i.opponentOf client) inv) none } := by
  obtain ⟨c, i', hc, -, hi', hor⟩ := hv.invitationOf hid
  rw [hi, Option.some.injEq] at hi'
  subst hi'
  have hok := hv.invitation inv i hi
  obtain ⟨-, g, hg, -⟩ := hok.game game hgame
  obtain ⟨co, hco, -⟩ := hok.live (opponentOf_or hor)
  simp only [clientResignGame, run_bind, clientGetInvitation_run id hc, hid,
    participant_run hi hok.distinct hor, run_nonNull_some,
    invClose_run_resign hi hstate hgame hg hok.roleOf_ne_null, run_ite]
  rw [if_neg (by decide)]
  generalize hw₁ : World.mk (w.store.resign inv game (i.roleOf client)) _ = w₁
  have hco₁ : w₁.store.clients.get? (i.opponentOf client) = some co := by
    rw [← hw₁]
    exact hco
  simp only [clientGetInvitationId_run inv hco₁, run_newHeader, clientSendPacket_run _ none hco₁]
  subst hw₁
  have hidOf : (w.store.resign inv game (i.roleOf client)).idOf (i.opponentOf client) inv
      = w.store.idOf (i.opponentOf client) inv := rfl
  rw [hidOf]
  change (if protoSendPacket _ (noticeOf env w .resigned (i.opponentOf client) inv) none ≠ 0
    then _ else _) = _
  rw [protoSendPacket_none _ _ rfl]
  cases env.sendOk w.trace.sent.length with
  | false => rfl
  | true =>
    simp only [removeBoth, run_bind, run_ite, ↓reduceIte, ne_eq, not_true_eq_false]
    rfl

theorem clientResignGame_run_unsent {game : GamePtr} (hv : w.store.Valid extra)
    (hid : w.store.invitationOf client id = some inv)
    (hi : w.store.invitations.get? inv = some i) (hstate : i.state = .acceptedState)
    (hgame : i.game = some game) (hsend : env.sendOk w.trace.sent.length = false)
    : (clientResignGame client id).run env w
        =
      .ok (-1, {
        store := w.store.resign inv game (i.roleOf client)
        trace := w.trace.send env (i.opponentOf client)
          (noticeOf env w .resigned (i.opponentOf client) inv) none }) := by
  rw [clientResignGame_run_accepted hv hid hi hstate hgame, hsend]
  rfl

/-! ## The end of a game -/

def World.conclude (w : World) (env : Env) (client opponent : ClientPtr) (inv : InvitationPtr)
    (result : PostedResult) : World where
  store := (w.store.post env.expected result).dissolve client opponent inv
  trace := { w.trace with posted := w.trace.posted ++ [result] }

theorem removeBoth_run_posted (env : Env) {opponent : ClientPtr} {co : Client} {player playero : PlayerPtr}
    (hv : w.store.Valid extra) (hi : w.store.invitations.get? inv = some i)
    (hends : (i.source = client ∧ i.target = opponent) ∨ (i.source = opponent ∧ i.target = client))
    (hc : w.store.clients.get? client = some c) (hco : w.store.clients.get? opponent = some co)
    (hmem : inv ∈ c.invitations) (hmemo : inv ∈ co.invitations) (hkeep : c.refCount ≠ 1)
    (hkeepo : co.refCount ≠ 1) (hplayer : c.player = some player)
    (hplayero : co.player = some playero) (role winner : GameRole)
    : ∃ w₁, (postPlayerResults client opponent role winner).run env w = .ok (0, w₁)
        ∧ (removeBoth client opponent inv).run env w₁
            = .ok (0, w.conclude env client opponent inv (resultOf role player playero winner)) := by
  obtain ⟨p, hp⟩ := hv.player_live hc hplayer
  obtain ⟨po, hpo⟩ := hv.player_live hco hplayero
  refine ⟨_, postPlayerResults_run role winner hc hco hplayer hplayero hp hpo, ?_⟩
  apply removeBoth_run (i := i) (hv.post env.expected _)
  . rwa [Store.post_clients]
  . rwa [Store.post_clients]
  . rwa [Store.post_invitations]
  . exact hends
  . exact hmem
  . exact hmemo
  . exact hkeep
  . exact hkeepo

theorem removeBoth_run_posted_orphan (env : Env) {opponent : ClientPtr} {co : Client}
    {player playero : PlayerPtr} (hv : w.store.Valid extra)
    (hi : w.store.invitations.get? inv = some i) (href : i.refCount = 2)
    (hends : (i.source = client ∧ i.target = opponent) ∨ (i.source = opponent ∧ i.target = client))
    (hc : w.store.clients.get? client = some c) (hco : w.store.clients.get? opponent = some co)
    (hmem : inv ∈ c.invitations) (hmemo : inv ∈ co.invitations) (hkeep : c.refCount ≠ 1)
    (hone : co.refCount = 1) (hplayer : c.player = some player)
    (hplayero : co.player = some playero) (role winner : GameRole)
    : ∃ w₁, (postPlayerResults client opponent role winner).run env w = .ok (0, w₁)
        ∧ (removeBoth client opponent inv).run env w₁ = .error .useAfterFree := by
  obtain ⟨p, hp⟩ := hv.player_live hc hplayer
  obtain ⟨po, hpo⟩ := hv.player_live hco hplayero
  refine ⟨_, postPlayerResults_run role winner hc hco hplayer hplayero hp hpo, ?_⟩
  apply removeBoth_run_orphan (i := i) (hv.post env.expected _)
  . rwa [Store.post_clients]
  . rwa [Store.post_clients]
  . rwa [Store.post_invitations]
  . exact href
  . exact hends
  . exact hmem
  . exact hmemo
  . exact hkeep
  . exact hone

theorem clientResignGame_run {game : GamePtr} {co : Client} {player playero : PlayerPtr}
    (hv : w.store.Valid extra) (hl : w.store.Linked)
    (hheld : 0 < w.store.registered client + extra client)
    (hid : w.store.invitationOf client id = some inv)
    (hi : w.store.invitations.get? inv = some i) (hstate : i.state = .acceptedState)
    (hgame : i.game = some game) (hc : w.store.clients.get? client = some c)
    (hco : w.store.clients.get? (i.opponentOf client) = some co)
    (hplayer : c.player = some player) (hplayero : co.player = some playero)
    (hsend : env.sendOk w.trace.sent.length = true)
    : (clientResignGame client id).run env w
        =
      if co.refCount = 1 then .error .useAfterFree
      else .ok (0, World.conclude
        { store := w.store.resign inv game (i.roleOf client)
          trace := w.trace.send env (i.opponentOf client)
            (noticeOf env w .resigned (i.opponentOf client) inv) none }
        env client (i.opponentOf client) inv
        (resultOf (i.roleOf client) player playero (i.roleOf (i.opponentOf client)))) := by
  obtain ⟨-, i', -, -, hi', hor⟩ := hv.invitationOf hid
  rw [hi, Option.some.injEq] at hi'
  subst hi'
  have hplayed : i.state ≠ .closedState ∨ i.game ≠ none := .inr (by simp [hgame])
  obtain ⟨c', hc', hmem, -⟩ := hl.participant hv hi hplayed hor
  obtain ⟨co', hco', hmemo, -⟩ := hl.participant hv hi hplayed (opponentOf_or hor)
  obtain rfl := Option.some.inj (hc.symm.trans hc')
  obtain rfl := Option.some.inj (hco.symm.trans hco')
  have href := hl.refCount_eq_two hv hi hplayed
  have hkeep := hv.refCount_ne_one hc hi hor hheld
  have hi' : (w.store.resign inv game (i.roleOf client)).invitations.get? inv
      = some { i with state := .closedState } := by simp [hi]
  have hends := opponentOf_ends hor
  rw [clientResignGame_run_accepted hv hid hi hstate hgame, if_pos hsend]
  split
  . next hone =>
    obtain ⟨w₁, hpost, hremove⟩ := removeBoth_run_posted_orphan env
      (w := { store := w.store.resign inv game (i.roleOf client)
              trace := w.trace.send env (i.opponentOf client)
                (noticeOf env w .resigned (i.opponentOf client) inv) none })
      (hv.resign inv game (i.roleOf client)) hi' href hends hc hco hmem hmemo hkeep hone
      hplayer hplayero (i.roleOf client) (i.roleOf (i.opponentOf client))
    simp only [run_bind, hpost, run_ite]
    rw [if_neg (by decide)]
    exact hremove
  . next hkeepo =>
    obtain ⟨w₁, hpost, hremove⟩ := removeBoth_run_posted env
      (w := { store := w.store.resign inv game (i.roleOf client)
              trace := w.trace.send env (i.opponentOf client)
                (noticeOf env w .resigned (i.opponentOf client) inv) none })
      (hv.resign inv game (i.roleOf client)) hi' hends hc hco hmem hmemo hkeep hkeepo
      hplayer hplayero (i.roleOf client) (i.roleOf (i.opponentOf client))
    simp only [run_bind, hpost, run_ite]
    rw [if_neg (by decide)]
    exact hremove

/-! ## `client_make_move` -/

structure Store.Move (s : Store) (client : ClientPtr) (id : Int) (text : CString)
    (inv : InvitationPtr) (i : Invitation) (game : GamePtr) (g : Game) (move : GameMove)
    : Prop where
  named : s.invitationOf client id = some inv
  invitation : s.invitations.get? inv = some i
  owned : i.game = some game
  board : s.games.get? game = some g
  legal : legalMove? g (i.roleOf client) text = some move

theorem Store.Move.unique {s : Store} {text : CString} {inv' : InvitationPtr} {i' : Invitation}
    {game game' : GamePtr} {g g' : Game} {move move' : GameMove}
    (h : s.Move client id text inv i game g move) (h' : s.Move client id text inv' i' game' g' move')
    : inv' = inv ∧ i' = i ∧ game' = game ∧ g' = g ∧ move' = move := by
  obtain rfl := Option.some.inj (h.named.symm.trans h'.named)
  obtain rfl := Option.some.inj (h.invitation.symm.trans h'.invitation)
  obtain rfl := Option.some.inj (h.owned.symm.trans h'.owned)
  obtain rfl := Option.some.inj (h.board.symm.trans h'.board)
  obtain rfl := Option.some.inj (h.legal.symm.trans h'.legal)
  exact ⟨rfl, rfl, rfl, rfl, rfl⟩

theorem legalMove?_eq_some {g : Game} {role : GameRole} {text : CString} {move : GameMove}
    (h : legalMove? g role text = some move)
    : gameParseMove g role text = some move ∧ (gameApplyMove g move).1 = 0 := by
  unfold legalMove? at h
  simpa [Option.filter_eq_some_iff] using h

theorem clientMakeMove_run_refused (env : Env) (id : Int) (text : CString) (hv : w.store.Valid extra)
    (hc : w.store.clients.get? client = some c)
    (hno : env.allocOk w.trace.allocs = true →
      ∀ inv i game g move, ¬ w.store.Move client id text inv i game g move)
    : ∃ n, (clientMakeMove client id text).run env w
        = .ok (-1, { w with trace.allocs := n }) := by
  have hstay : w = { w with trace.allocs := w.trace.allocs } := rfl
  simp only [clientMakeMove, run_bind, clientGetInvitation_run id hc]
  cases hid : w.store.invitationOf client id with
  | none => exact ⟨w.trace.allocs, rfl⟩
  | some inv =>
    obtain ⟨-, i, -, -, hi, hor⟩ := hv.invitationOf hid
    have hok := hv.invitation inv i hi
    simp only [invGetGame_run hi]
    cases hgame : i.game with
    | none => exact ⟨w.trace.allocs, rfl⟩
    | some game =>
      obtain ⟨-, g, hg, -⟩ := hok.game game hgame
      simp only [participant_run hi hok.distinct hor, run_bind, run_allocate, run_ite]
      cases halloc : env.allocOk w.trace.allocs with
      | false => exact ⟨_, rfl⟩
      | true =>
        simp only [↓reduceIte, run_derefGame, hg]
        cases hparse : gameParseMove g (i.roleOf client) text with
        | none => exact ⟨_, rfl⟩
        | some move =>
          have hcode : gameApplyMove g move = (-1, g) := by
            cases gameApplyMove_code g move with
            | inr h => exact h
            | inl h =>
              refine absurd ⟨hid, hi, hgame, hg, ?_⟩ (hno halloc inv i game g move)
              simp [legalMove?, hparse, h, Option.filter]
          simp only [run_bind, run_derefGame, hg, hcode, run_modifyStore, ↓reduceIte, run_pure,
            Store.modifyGame]
          rw [Heap.modify_eq_self hg rfl]
          exact ⟨_, rfl⟩

def World.moved (w : World) (env : Env) (opponent : ClientPtr) (inv : InvitationPtr)
    (game : GamePtr) (g : Game) (move : GameMove) : World where
  store := w.store.play game move
  trace := Trace.send { w.trace with allocs := w.trace.allocs + 1 } env opponent
    (createHeader (env.clock w.trace.sent.length) .moved (w.store.idOf opponent inv) .nullRole 40)
    (some (gameUnparseState (gameApplyMove g move).2))

theorem clientMakeMove_run {text : CString} {game : GamePtr} {g : Game} {move : GameMove}
    (hv : w.store.Valid extra) (hmove : w.store.Move client id text inv i game g move)
    (halloc : env.allocOk w.trace.allocs = true)
    : (clientMakeMove client id text).run env w
        =
      (if env.sendOk w.trace.sent.length then
          finishMove client (i.opponentOf client) (i.roleOf client) id
            (w.store.idOf (i.opponentOf client) inv) inv game
        else pure (-1)).run env (w.moved env (i.opponentOf client) inv game g move) := by
  obtain ⟨hid, hi, hgame, hg, hlegal⟩ := hmove
  obtain ⟨hparse, hcode⟩ := legalMove?_eq_some hlegal
  obtain ⟨c, i', hc, -, hi', hor⟩ := hv.invitationOf hid
  rw [hi, Option.some.injEq] at hi'
  subst hi'
  have hok := hv.invitation inv i hi
  obtain ⟨co, hco, -⟩ := hok.live (opponentOf_or hor)
  simp only [clientMakeMove, run_bind, clientGetInvitation_run id hc, hid, invGetGame_run hi, hgame,
    participant_run hi hok.distinct hor, run_allocate, halloc, run_ite, ↓reduceIte, run_derefGame,
    hg, hparse, run_modifyStore, hcode]
  rw [if_neg (by decide)]
  generalize hw₁ : World.mk _ _ = w₁
  have hg₁ : (w.store.modifyGame game fun _ => (gameApplyMove g move).2).games.get? game
      = some (gameApplyMove g move).2 := by simp [hg]
  have hco₁ : w₁.store.clients.get? (i.opponentOf client) = some co := by
    rw [← hw₁]
    exact hco
  simp only [hg₁, run_nonNull_some, clientGetInvitationId_run inv hco₁, run_newHeader,
    clientSendPacket_run _ _ hco₁, gameUnparseState_length]
  rw [protoSendPacket_some _ _ (by simp [createHeader])]
  subst hw₁
  simp only [Store.modifyGame]
  rw [Heap.modify_congr (g := fun g => (gameApplyMove g move).2) hg rfl]
  cases env.sendOk w.trace.sent.length with
  | false => rfl
  | true => rfl

theorem finishMove_run_playing {opponent : ClientPtr} {role : GameRole} {ido : Int}
    {game : GamePtr} {g : Game} (hg : w.store.games.get? game = some g)
    (hover : gameIsOver g = (false, g))
    : (finishMove client opponent role id ido inv game).run env w = .ok (0, w) := by
  simp only [finishMove, run_bind, run_derefGame, hg, hover, run_modifyStore, Bool.not_false,
    ↓reduceIte, run_pure, Store.modifyGame]
  rw [Heap.modify_eq_self hg rfl]

def World.ended (w : World) (env : Env) (receiver : ClientPtr) (hdr : PacketHeader) : World :=
  { w with trace := w.trace.send env receiver hdr none }

def endedPacket (env : Env) (w : World) (id : Int) (winner : GameRole) : PacketHeader :=
  createHeader (env.clock w.trace.sent.length) .ended id winner 0

theorem finishMove_run_over {opponent : ClientPtr} {co : Client} {role : GameRole} {ido : Int}
    {game : GamePtr} {g : Game} (hc : w.store.clients.get? client = some c)
    (hco : w.store.clients.get? opponent = some co) (hg : w.store.games.get? game = some g)
    (hover : gameIsOver g = (true, g))
    : (finishMove client opponent role id ido inv game).run env w
        =
      if env.sendOk w.trace.sent.length then
        if env.sendOk (w.trace.sent.length + 1) then
          (do
            let _ ← postPlayerResults client opponent role g.winner
            removeBoth client opponent inv : ServerM Int).run env
            ((w.ended env opponent (endedPacket env w ido g.winner)).ended env client
              { endedPacket env w ido g.winner with id := UInt8.ofInt id })
        else
          .ok (-1, (w.ended env opponent (endedPacket env w ido g.winner)).ended env client
              { endedPacket env w ido g.winner with id := UInt8.ofInt id })
      else
        .ok (-1, w.ended env opponent (endedPacket env w ido g.winner)) := by
  have hstore : w.store.modifyGame game (fun _ => g) = w.store := by
    unfold Store.modifyGame
    rw [Heap.modify_eq_self hg rfl]
  simp only [finishMove, run_bind, run_derefGame, hg, hover, run_modifyStore, Bool.not_true,
    Bool.false_eq_true, ↓reduceIte, hstore, run_newHeader, clientSendPacket_run _ _ hco, run_ite,
    gameGetWinner]
  rw [protoSendPacket_none _ _ rfl]
  cases hsend : env.sendOk w.trace.sent.length with
  | false => rfl
  | true =>
    simp only [↓reduceIte]
    rw [if_neg (by decide)]
    generalize hw₁ : World.mk w.store _ = w₁
    have hc₁ : w₁.store.clients.get? client = some c := by rw [← hw₁, hc]
    have hlen : w₁.trace.sent.length = w.trace.sent.length + 1 := by simp [← hw₁]
    simp only [clientSendPacket_run _ _ hc₁]
    rw [protoSendPacket_none _ _ rfl, hlen]
    subst hw₁
    cases env.sendOk (w.trace.sent.length + 1) with
    | false => rfl
    | true =>
      simp only [removeBoth, run_bind, run_ite, ↓reduceIte]
      rfl

end Jeux
