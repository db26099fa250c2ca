import Jeux.Game.Rules
import Jeux.Service.Invitations

/-!
Ratings over whole runs: whose results are posted, when, and with what outcome.
-/

namespace Jeux

open ServerM

variable {env : Env} {w w' : World} {client : ClientPtr} {c : Client} {σ σ' : Server} {e : Event}
  {op : Operation} {r : Int} {inv : InvitationPtr} {i : Invitation} {extra : ClientPtr → Nat}
  {nodes : List InvitationNode} {game : GamePtr}

/-! ## Results -/

def Invitation.first (i : Invitation) : ClientPtr :=
  if i.sourceRole = .firstPlayerRole then i.source else i.target

def Invitation.second (i : Invitation) : ClientPtr :=
  if i.sourceRole = .firstPlayerRole then i.target else i.source

namespace Store

variable {s s' s'' : Store} {expected : Int → Rat}
  {posts posts' : List (InvitationPtr × PostedResult)}

def playerAt (s : Store) (client : ClientPtr) : Option PlayerPtr :=
  (s.clients.get? client).bind (·.player)

def postAll (s : Store) (expected : Int → Rat) (results : List PostedResult) : Store :=
  results.foldl (fun s result => s.post expected result) s

/--
`p` is the result of the game of `inv`, an invitation of `s`: the player of the one who has the
first move, that of the one who has the second, and the winner as the game records it in the end.
-/
def ResultOf (s s' : Store) (inv : InvitationPtr) (p : PostedResult) : Prop :=
  ∃ i game, s.invitations.get? inv = some i ∧ i.game = some game
    ∧ s.playerAt i.first = some p.player1 ∧ s.playerAt i.second = some p.player2
    ∧ s'.winnerAt game = some p.result

/--
The game of `inv` has ended by a move, and `result` is what its last board says.
-/
def PlayedOut (s s' : Store) (inv : InvitationPtr) (result : GameRole) : Prop :=
  ∃ i game board, s.invitations.get? inv = some i ∧ i.game = some game
    ∧ s'.boardAt game = some board ∧ Decides board result

/--
`client` has given up the game of `inv`, and `result` is the role of its opponent.
-/
def GivenUp (s : Store) (inv : InvitationPtr) (client : ClientPtr) (result : GameRole) : Prop :=
  ∃ i, s.invitations.get? inv = some i
    ∧ ((i.first = client ∧ result = .secondPlayerRole)
      ∨ (i.second = client ∧ result = .firstPlayerRole))

/--
From `s` to `s'` the games of the invitations in `posts` have come to their end, and no others, and
their results have been posted, in this order.
-/
structure Settles (expected : Int → Rat) (s s' : Store)
    (posts : List (InvitationPtr × PostedResult)) : Prop where
  nodup : (posts.map (·.1)).Nodup
  mem : ∀ inv, inv ∈ posts.map (·.1) ↔
    ∃ i, s.invitations.get? inv = some i ∧ i.game ≠ none ∧ s'.invitations.get? inv = none
  result : ∀ p ∈ posts, s.ResultOf s' p.1 p.2
  ratings : ∀ player,
    s'.ratingOf player = (s.postAll expected (posts.map (·.2))).ratingOf player

theorem ratingOf_congr (h : s'.players = s.players) (player : PlayerPtr)
    : s'.ratingOf player = s.ratingOf player := by
  rw [ratingOf, ratingOf, h]

theorem Settles.nil (hlive : ∀ inv i, s.invitations.get? inv = some i → i.game ≠ none →
      s'.invitations.get? inv ≠ none) (hplayers : s'.players = s.players)
    : Settles expected s s' [] where
  nodup := List.nodup_nil
  mem := by
    intro inv
    simp only [List.map_nil, List.not_mem_nil, false_iff]
    rintro ⟨i, hi, hgame, hgone⟩
    exact hlive inv i hi hgame hgone
  result := by simp
  ratings := ratingOf_congr hplayers

theorem postAll_append (s : Store) (results results' : List PostedResult)
    : s.postAll expected (results ++ results')
        =
      (s.postAll expected results).postAll expected results' := List.foldl_append

theorem ratingOf_post (s : Store) (expected : Int → Rat) (result : PostedResult) (player : PlayerPtr)
    : (s.post expected result).ratingOf player
        =
      if result.player1 = result.player2 then s.ratingOf player
      else
        match s.ratingOf result.player1, s.ratingOf result.player2 with
        | some rating1, some rating2 =>
          if player = result.player2 then
            some (postedRatings expected rating1 rating2 result.result).2
          else if player = result.player1 then
            some (postedRatings expected rating1 rating2 result.result).1
          else
            s.ratingOf player
        | _, _ => s.ratingOf player := by
  unfold post
  split
  . rfl
  . next hne =>
    unfold ratingOf
    cases hp1 : s.players.get? result.player1 with
    | none => rfl
    | some p1 =>
      cases hp2 : s.players.get? result.player2 with
      | none => rfl
      | some p2 =>
        simp only [modifyPlayer_players, Heap.get?_modify, Option.map_some]
        by_cases h2 : player = result.player2
        . simp [h2, hp2, Ne.symm hne]
        . by_cases h1 : player = result.player1
          . simp [h1, hp1, hne]
          . simp [h1, h2]

theorem ratingOf_postAll_ne_none (results : List PostedResult) (player : PlayerPtr)
    (h : s.ratingOf player ≠ none) : (s.postAll expected results).ratingOf player ≠ none := by
  induction results generalizing s with
  | nil => exact h
  | cons result rest ih =>
    apply ih
    dsimp only
    rw [ratingOf_post]
    split
    . exact h
    . split
      . split
        . simp
        . split
          . simp
          . exact h
      . exact h

theorem ratingOf_postAll (results : List PostedResult)
    (hratings : ∀ player, s'.ratingOf player = s.ratingOf player) (player : PlayerPtr)
    : (s'.postAll expected results).ratingOf player = (s.postAll expected results).ratingOf player := by
  induction results generalizing s s' with
  | nil => exact hratings player
  | cons result rest ih =>
    apply ih
    intro player
    dsimp only
    simp only [ratingOf_post, hratings]

structure KeepsGames (s s' : Store) : Prop where
  origin : ∀ inv i', s'.invitations.get? inv = some i' → ∃ i, s.invitations.get? inv = some i
    ∧ i'.game = i.game ∧ i'.first = i.first ∧ i'.second = i.second

theorem KeepsGames.refl (s : Store) : s.KeepsGames s := ⟨fun _ i hi => ⟨i, hi, rfl, rfl, rfl⟩⟩

theorem KeepsGames.trans (h : s.KeepsGames s') (h' : s'.KeepsGames s'') : s.KeepsGames s'' := by
  constructor
  intro inv i'' hi''
  obtain ⟨i', hi', hgame', hfirst', hsecond'⟩ := h'.origin inv i'' hi''
  obtain ⟨i, hi, hgame, hfirst, hsecond⟩ := h.origin inv i' hi'
  exact ⟨i, hi, hgame'.trans hgame, hfirst'.trans hfirst, hsecond'.trans hsecond⟩

theorem KeepsGames.of_eq (h : s'.invitations = s.invitations) : s.KeepsGames s' := by
  constructor
  intro inv i hi
  rw [h] at hi
  exact ⟨i, hi, rfl, rfl, rfl⟩

theorem keepsGames_modifyInvitation (s : Store) (inv : InvitationPtr) (f : Invitation → Invitation)
    (hf : ∀ i, (f i).game = i.game ∧ (f i).first = i.first ∧ (f i).second = i.second)
    : s.KeepsGames (s.modifyInvitation inv f) := by
  constructor
  intro u i' hi'
  obtain ⟨i, hi, rfl⟩ := Heap.get?_modify_eq_some.mp hi'
  refine ⟨i, hi, ?_⟩
  split
  . exact hf i
  . exact ⟨rfl, rfl, rfl⟩

theorem keepsGames_close (s : Store) (inv : InvitationPtr) : s.KeepsGames (s.close inv) :=
  keepsGames_modifyInvitation s inv _ fun _ => ⟨rfl, rfl, rfl⟩

theorem keepsGames_resign (s : Store) (inv : InvitationPtr) (game : GamePtr) (role : GameRole)
    : s.KeepsGames (s.resign inv game role) := by
  have hgame : s.KeepsGames (s.modifyGame game fun g => (gameResign g role).2) := .of_eq rfl
  exact hgame.trans (keepsGames_close _ inv)

theorem keepsGames_drop (s : Store) (client : ClientPtr) (inv : InvitationPtr)
    : s.KeepsGames (s.drop client inv) := by
  have hnode : s.KeepsGames (s.modifyClient client (·.unlink inv)) := .of_eq rfl
  have hunlink : s.KeepsGames (s.unlink client inv) := hnode.trans
    (keepsGames_modifyInvitation _ inv Invitation.dropRef fun _ => ⟨rfl, rfl, rfl⟩)
  unfold drop
  split
  . split
    . refine hunlink.trans ⟨?_⟩
      intro u i' hi'
      unfold release at hi'
      rw [Heap.get?_free] at hi'
      split at hi'
      . simp at hi'
      . exact ⟨i', hi', rfl, rfl, rfl⟩
    . exact hunlink
  . exact .refl s

theorem keepsGames_dissolve (s : Store) (client opponent : ClientPtr) (inv : InvitationPtr)
    : s.KeepsGames (s.dissolve client opponent inv) :=
  (keepsGames_drop s client inv).trans (keepsGames_drop _ opponent inv)

theorem keepsGames_post (s : Store) (expected : Int → Rat) (result : PostedResult)
    : s.KeepsGames (s.post expected result) := .of_eq (post_invitations expected result)

theorem KeepsSessions.playerAt (h : s.KeepsSessions s') (client : ClientPtr)
    : s'.playerAt client = s.playerAt client := by
  have hsession := h.session client
  unfold Store.playerAt
  cases hc : s.clients.get? client with
  | none =>
    rw [hc] at hsession
    simp only [Option.map_none, Option.map_eq_none_iff] at hsession
    rw [hsession]
  | some c =>
    obtain ⟨c', hc', hplayer, -⟩ := h.get? hc
    rw [hc', Option.bind_some, Option.bind_some, hplayer]

theorem Valid.game_gone (hv : s.Valid extra) (hv' : s'.Valid extra) (hkeeps : s.KeepsGames s')
    (hi : s.invitations.get? inv = some i) (hown : i.game = some game)
    (hgone : s'.invitations.get? inv = none) : s'.games.get? game = none := by
  cases hg : s'.games.get? game with
  | none => rfl
  | some g =>
    obtain ⟨inv', i', hi', hown'⟩ := hv'.owned game g hg
    obtain ⟨i₀, hi₀, hgame, -⟩ := hkeeps.origin inv' i' hi'
    have heq := (hv.invitation inv i hi).own game inv' i₀ hown hi₀ (hgame ▸ hown')
    rw [heq, hgone] at hi'
    simp at hi'

theorem winnerAt_of_gone (hextends : s.Extends s') (hg : s.games.get? game = none)
    (hlt : game < s.games.next) : s'.winnerAt game = s.winnerAt game := by
  rw [winnerAt, winnerAt, (hextends.games.freed game hlt hg).2]

theorem KeepsGames.givenUp {result : GameRole} (h : s.KeepsGames s')
    (hgiven : s'.GivenUp inv client result) : s.GivenUp inv client result := by
  obtain ⟨i', hi', hwho⟩ := hgiven
  obtain ⟨i, hi, -, hfirst, hsecond⟩ := h.origin inv i' hi'
  rw [hfirst, hsecond] at hwho
  exact ⟨i, hi, hwho⟩

theorem Settles.trans (h : Settles expected s s' posts) (h' : Settles expected s' s'' posts')
    (hv : s.Valid extra) (hv' : s'.Valid extra) (hkeeps : s.KeepsGames s')
    (hsessions : s.KeepsSessions s') (hextends : s.Extends s') (hextends' : s'.Extends s'')
    : Settles expected s s'' (posts ++ posts') where
  nodup := by
    rw [List.map_append]
    refine h.nodup.append h'.nodup ?_
    intro inv hmem hmem'
    obtain ⟨i, -, -, hgone⟩ := (h.mem inv).mp hmem
    obtain ⟨i', hi', -⟩ := (h'.mem inv).mp hmem'
    rw [hgone] at hi'
    simp at hi'
  mem := by
    intro inv
    rw [List.map_append, List.mem_append, h.mem, h'.mem]
    constructor
    . rintro (⟨i, hi, hgame, hgone⟩ | ⟨i', hi', hgame, hgone⟩)
      . have hlt := Heap.lt_next_of_get? hi
        have hlt' : inv < s'.invitations.next := Nat.lt_of_lt_of_le hlt hextends.invitations.next_le
        exact ⟨i, hi, hgame, (hextends'.invitations.freed inv hlt' hgone).1⟩
      . obtain ⟨i, hi, hsame, -⟩ := hkeeps.origin inv i' hi'
        exact ⟨i, hi, hsame ▸ hgame, hgone⟩
    . rintro ⟨i, hi, hgame, hgone⟩
      cases hi' : s'.invitations.get? inv with
      | none => exact .inl ⟨i, hi, hgame, rfl⟩
      | some i' =>
        obtain ⟨i₀, hi₀, hsame, -⟩ := hkeeps.origin inv i' hi'
        obtain rfl := Option.some.inj (hi.symm.trans hi₀)
        exact .inr ⟨i', rfl, hsame ▸ hgame, hgone⟩
  result := by
    intro p hp
    cases List.mem_append.mp hp with
    | inl hp =>
      obtain ⟨i, game, hi, hown, hfirst, hsecond, hwinner⟩ := h.result p hp
      obtain ⟨i₀, hi₀, -, hgone⟩ := (h.mem p.1).mp (List.mem_map_of_mem hp)
      obtain rfl := Option.some.inj (hi.symm.trans hi₀)
      refine ⟨i, game, hi, hown, hfirst, hsecond, ?_⟩
      have hgame := hv.game_gone hv' hkeeps hi hown hgone
      rw [winnerAt_of_gone hextends' hgame, hwinner]
      obtain ⟨v, hlast, -⟩ := Option.map_eq_some_iff.mp hwinner
      exact Heap.lt_next_of_last? hlast
    | inr hp =>
      obtain ⟨i', game, hi', hown, hfirst, hsecond, hwinner⟩ := h'.result p hp
      obtain ⟨i, hi, hsame, hfirst', hsecond'⟩ := hkeeps.origin p.1 i' hi'
      rw [hsessions.playerAt, hfirst'] at hfirst
      rw [hsessions.playerAt, hsecond'] at hsecond
      exact ⟨i, game, hi, hsame ▸ hown, hfirst, hsecond, hwinner⟩
  ratings := by
    intro player
    rw [h'.ratings, List.map_append, postAll_append]
    exact ratingOf_postAll _ h.ratings player

end Store

/-! ## Results and operations -/

def Operation.Ends (s s' : Store) (client : ClientPtr) (inv : InvitationPtr) (result : GameRole)
    : Operation → Prop
  | .move _ _ => s.PlayedOut s' inv result
  | .resign _ => s.GivenUp inv client result
  | _ => False

theorem playerAt_resultOf {s : Store} {co : Client} {player playero : PlayerPtr}
    (hroles : (i.sourceRole = .firstPlayerRole ∧ i.targetRole = .secondPlayerRole)
      ∨ (i.sourceRole = .secondPlayerRole ∧ i.targetRole = .firstPlayerRole))
    (hor : i.source = client ∨ i.target = client)
    (hc : s.clients.get? client = some c) (hco : s.clients.get? (i.opponentOf client) = some co)
    (hplayer : c.player = some player) (hplayero : co.player = some playero) (winner : GameRole)
    : s.playerAt i.first = some (resultOf (i.roleOf client) player playero winner).player1
        ∧ s.playerAt i.second = some (resultOf (i.roleOf client) player playero winner).player2 := by
  have hme : s.playerAt client = some player := by simp [Store.playerAt, hc, hplayer]
  have hother : s.playerAt (i.opponentOf client) = some playero := by
    simp [Store.playerAt, hco, hplayero]
  unfold Invitation.first Invitation.second resultOf Invitation.roleOf
  unfold Invitation.opponentOf at hother
  by_cases hsource : i.source = client
  . rw [if_pos hsource] at hother
    rcases hroles with ⟨hs, ht⟩ | ⟨hs, ht⟩
    . simp [hs, hsource, hme, hother]
    . simp [hs, hsource, hme, hother]
  . rw [if_neg hsource] at hother
    have htarget := hor.resolve_left hsource
    rcases hroles with ⟨hs, ht⟩ | ⟨hs, ht⟩
    . simp [hs, ht, hsource, htarget, hme, hother]
    . simp [hs, ht, hsource, htarget, hme, hother]

theorem Store.Shared.settles {s : Store} {opponent : ClientPtr} {result : PostedResult}
    {expected : Int → Rat} {s₀ : Store} {i₀ : Invitation}
    (h : s.Shared client opponent inv i) (hi : s₀.invitations.get? inv = some i₀)
    (hgame : i₀.game ≠ none)
    (hsame : ∀ u, u ≠ inv → s₀.SameAt ((s.post expected result).dissolve client opponent inv) u)
    (hplayers : s.players = s₀.players)
    (hresult : s₀.ResultOf ((s.post expected result).dissolve client opponent inv) inv result)
    : Store.Settles expected s₀ ((s.post expected result).dissolve client opponent inv)
        [(inv, result)] where
  nodup := by simp
  mem := by
    intro u
    simp only [List.map_cons, List.map_nil, List.mem_singleton]
    constructor
    . rintro rfl
      exact ⟨i₀, hi, hgame, (h.post expected result).gone⟩
    . rintro ⟨i', hi', -, hgone⟩
      refine Classical.byContradiction fun hne => ?_
      rw [(hsame u hne).invitation, hi'] at hgone
      simp at hgone
  result := by
    intro p hp
    obtain rfl := List.mem_singleton.mp hp
    exact hresult
  ratings := by
    intro player
    have hshared := h.post expected result
    rw [Store.ratingOf_congr (Store.dissolve_players ..)]
    simp only [List.map_cons, List.map_nil, Store.postAll, List.foldl_cons, List.foldl_nil,
      Store.ratingOf_post]
    simp only [Store.ratingOf, hplayers]

theorem Store.winnerAt_resign {s : Store} {g : Game} (hg : s.games.get? game = some g)
    (hnull : g.winner = .nullRole) (role : GameRole)
    : (s.resign inv game role).winnerAt game
        =
      some (if role = .firstPlayerRole then .secondPlayerRole else .firstPlayerRole) := by
  have hresigned : (s.resign inv game role).games.get? game = some (gameResign g role).2 := by
    simp [hg]
  rw [winnerAt_of_get? hresigned, gameResign, if_neg (by simp [hnull])]

theorem roleOf_opponentOf
    (hroles : (i.sourceRole = .firstPlayerRole ∧ i.targetRole = .secondPlayerRole)
      ∨ (i.sourceRole = .secondPlayerRole ∧ i.targetRole = .firstPlayerRole))
    (hdistinct : i.source ≠ i.target)
    : i.roleOf (i.opponentOf client)
        =
      if i.roleOf client = .firstPlayerRole then .secondPlayerRole else .firstPlayerRole := by
  unfold Invitation.roleOf Invitation.opponentOf
  by_cases hsource : i.source = client
  . rcases hroles with ⟨hs, ht⟩ | ⟨hs, ht⟩ <;> simp [hsource ▸ hdistinct, hsource, hs, ht]
  . rcases hroles with ⟨hs, ht⟩ | ⟨hs, ht⟩ <;> simp [hsource, hs, ht]

theorem giver_of_roleOf
    (hroles : (i.sourceRole = .firstPlayerRole ∧ i.targetRole = .secondPlayerRole)
      ∨ (i.sourceRole = .secondPlayerRole ∧ i.targetRole = .firstPlayerRole))
    (hdistinct : i.source ≠ i.target) (hor : i.source = client ∨ i.target = client)
    : (i.first = client ∧ i.roleOf (i.opponentOf client) = .secondPlayerRole)
        ∨ (i.second = client ∧ i.roleOf (i.opponentOf client) = .firstPlayerRole) := by
  rw [roleOf_opponentOf hroles hdistinct]
  unfold Invitation.first Invitation.second Invitation.roleOf
  rcases hor with hsource | htarget
  . rcases hroles with ⟨hs, ht⟩ | ⟨hs, ht⟩ <;> simp [hsource, hs]
  . have hne : i.source ≠ client := fun heq => hdistinct (heq.trans htarget.symm)
    rcases hroles with ⟨hs, ht⟩ | ⟨hs, ht⟩ <;> simp [hne, htarget, hs, ht]

theorem Store.Playing.gives_up {s : Store} {id : Int} {co : Client} {player playero : PlayerPtr}
    {result : PostedResult} (expected : Int → Rat) (h : s.Playing client id inv i game)
    (hv : s.Valid extra) (hon : s.GamesOn) (hc : s.clients.get? client = some c)
    (hco : s.clients.get? (i.opponentOf client) = some co) (hplayer : c.player = some player)
    (hplayero : co.player = some playero)
    (hresult : result
      = resultOf (i.roleOf client) player playero (i.roleOf (i.opponentOf client)))
    : s.ResultOf (((s.resign inv game (i.roleOf client)).post expected result).dissolve client
          (i.opponentOf client) inv) inv result
        ∧ s.GivenUp inv client result.result := by
  subst hresult
  have hok := hv.invitation inv i h.invitation
  obtain ⟨-, i', -, -, hi', hor⟩ := hv.invitationOf h.named
  obtain rfl := Option.some.inj (h.invitation.symm.trans hi')
  obtain ⟨-, g, hg, -⟩ := hok.game game h.owned
  obtain ⟨-, -, hnull⟩ := hon inv i h.invitation g
    (Option.bind_eq_some_iff.mpr ⟨game, h.owned, hg⟩)
  obtain ⟨hfirst, hsecond⟩ := playerAt_resultOf hok.roles hor hc hco hplayer hplayero
    (i.roleOf (i.opponentOf client))
  refine ⟨⟨i, game, h.invitation, h.owned, hfirst, hsecond, ?_⟩, ?_⟩
  . rw [Store.winnerAt_dissolve, Store.winnerAt_post, Store.winnerAt_resign hg hnull,
      ← roleOf_opponentOf hok.roles hok.distinct]
    rfl
  . exact ⟨i, h.invitation, giver_of_roleOf hok.roles hok.distinct hor⟩

theorem Store.Move.plays_out {s : Store} {id : Int} {text : CString} {g : Game} {move : GameMove}
    {co : Client} {player playero : PlayerPtr} {result : PostedResult} (expected : Int → Rat)
    (h : s.Move client id text inv i game g move) (hv : s.Valid extra) (hon : s.GamesOn)
    (hover : (gameApplyMove g move).2.isOver = true) (hc : s.clients.get? client = some c)
    (hco : s.clients.get? (i.opponentOf client) = some co) (hplayer : c.player = some player)
    (hplayero : co.player = some playero)
    (hresult : result = resultOf (i.roleOf client) player playero (gameApplyMove g move).2.winner)
    : s.ResultOf (((s.play game move).post expected result).dissolve client (i.opponentOf client)
          inv) inv result
        ∧ s.PlayedOut (((s.play game move).post expected result).dissolve client
          (i.opponentOf client) inv) inv result.result := by
  subst hresult
  have hok := hv.invitation inv i h.invitation
  obtain ⟨-, i', -, -, hi', hor⟩ := hv.invitationOf h.named
  obtain rfl := Option.some.inj (h.invitation.symm.trans hi')
  obtain ⟨hfirst, hsecond⟩ := playerAt_resultOf hok.roles hor hc hco hplayer hplayero
    (gameApplyMove g move).2.winner
  obtain ⟨-, hlive, -⟩ := hon inv i h.invitation g
    (Option.bind_eq_some_iff.mpr ⟨game, h.owned, h.board⟩)
  have hplayed : (s.play game move).games.get? game = some (gameApplyMove g move).2 := by
    simp [h.board]
  refine ⟨⟨i, game, h.invitation, h.owned, hfirst, hsecond, ?_⟩,
    ⟨i, game, (gameApplyMove g move).2.rows, h.invitation, h.owned, ?_,
      gameApplyMove_outcome hlive hover⟩⟩
  . rw [Store.winnerAt_dissolve, Store.winnerAt_post, Store.winnerAt_of_get? hplayed]
    rfl
  . rw [Store.boardAt_dissolve, Store.boardAt_post]
    exact Store.boardAt_of_get? hplayed

theorem Effect.settles (h : Effect env w client op r w') (hsends : ∀ n, env.sendOk n = true)
    (hserves : w.store.Serves extra client) (hon : w.store.GamesOn)
    : ∃ posts, w'.trace.posted = w.trace.posted ++ posts.map (·.2)
        ∧ Store.Settles env.expected w.store w'.store posts
        ∧ ∀ p ∈ posts, op.Ends w.store w'.store client p.1 p.2.result := by
  have hv := hserves.valid
  have hs := hserves.settled
  -- what an operation without an end of a game has to see to
  have hnil : w'.trace.posted = w.trace.posted → w'.store.players = w.store.players →
      (∀ inv i, op.subject? w.store client = some inv → w.store.invitations.get? inv = some i →
        i.game ≠ none → w'.store.invitations.get? inv ≠ none) →
      ∃ posts, w'.trace.posted = w.trace.posted ++ posts.map (·.2)
        ∧ Store.Settles env.expected w.store w'.store posts
        ∧ ∀ p ∈ posts, op.Ends w.store w'.store client p.1 p.2.result := by
    intro hposted hplayers hsubject
    refine ⟨[], by simp [hposted], .nil ?_ hplayers, by simp⟩
    intro inv i hi hgame
    by_cases hinv : op.subject? w.store client = some inv
    . exact hsubject inv i hinv hi hgame
    . rw [(h.sameAt hv hs.linked hinv).invitation, hi]
      simp
  have hopen : ∀ {id inv' i'} inv i, w.store.Open client id inv' i' →
      w.store.invitationOf client id = some inv → w.store.invitations.get? inv = some i →
      i.game = none := by
    intro id inv' i' inv i hopen hnamed hi
    obtain rfl := Option.some.inj (hopen.named.symm.trans hnamed)
    obtain rfl := Option.some.inj (hopen.invitation.symm.trans hi)
    exact (hv.invitation _ _ hi).game_eq_none hopen.state
  have hsame : ∀ {id inv}, op.subject? w.store client = w.store.invitationOf client id →
      w.store.invitationOf client id = some inv → ∀ u, u ≠ inv → w.store.SameAt w'.store u := by
    intro id inv hsubject hnamed u hu
    refine h.sameAt hv hs.linked ?_
    rw [hsubject, hnamed]
    simpa using Ne.symm hu
  cases h with
  | refused =>
    apply hnil rfl rfl
    intro inv i _ hi _
    simp [hi]
  | made =>
    apply hnil rfl rfl
    intro inv i hsubject hi
    obtain rfl := Option.some.inj hsubject
    simp at hi
  | revokeUnsent _ hsend => simp [hsends] at hsend
  | revoked h =>
    apply hnil rfl
    . exact Store.dissolve_players ..
    . exact fun inv i hsubject hi hgame => absurd (hopen inv i h hsubject hi) hgame
  | revokedByTarget h =>
    apply hnil rfl (Store.drop_players _ _ _)
    exact fun inv i hsubject hi hgame => absurd (hopen inv i h hsubject hi) hgame
  | declined h =>
    apply hnil rfl
    . exact Store.dissolve_players ..
    . exact fun inv i hsubject hi hgame => absurd (hopen inv i h hsubject hi) hgame
  | declinedBySource h =>
    apply hnil rfl (Store.drop_players _ _ _)
    exact fun inv i hsubject hi hgame => absurd (hopen inv i h hsubject hi) hgame
  | acceptNoRoom h =>
    apply hnil rfl rfl
    exact fun inv i hsubject hi hgame => absurd (hopen inv i h hsubject hi) hgame
  | accepted h =>
    apply hnil rfl rfl
    exact fun inv i hsubject hi hgame => absurd (hopen inv i h hsubject hi) hgame
  | resignUnsent _ hsend => simp [hsends] at hsend
  | @resigned _ inv i game c co player playero hplay hc hco hplayer hplayero _ =>
    obtain ⟨hresult, hgiven⟩ := hplay.gives_up env.expected hv hon hc hco hplayer hplayero rfl
    refine ⟨[(inv, _)], rfl, ((hplay.shared hv hs.linked).resign game (i.roleOf client)).settles
      hplay.invitation (by simp [hplay.owned]) (hsame rfl hplay.named) rfl hresult, ?_⟩
    simp only [List.mem_singleton, forall_eq]
    exact hgiven
  | moveUnsent _ hsend => simp [hsends] at hsend
  | moved h =>
    apply hnil rfl rfl
    intro inv i _ hi _
    change w.store.invitations.get? inv ≠ none
    simp [hi]
  | endUnsent _ _ _ hend => simp [hsends] at hend
  | endUnsentSelf _ _ _ _ hself => simp [hsends] at hself
  | @finished _ _ inv i game g move c co player playero hmove hc hco hplayer hplayero _ hover =>
    obtain ⟨hresult, hplayed⟩ :=
      hmove.plays_out env.expected hv hon hover hc hco hplayer hplayero rfl
    refine ⟨[(inv, _)], rfl, ((hmove.shared hv hs.linked).play game move).settles
      hmove.invitation (by simp [hmove.owned]) (hsame rfl hmove.named) rfl hresult, ?_⟩
    simp only [List.mem_singleton, forall_eq]
    exact hplayed

/-! ## Results and logging out -/

theorem Effect.keepsGames_of_logoutOp {id : Int}
    (h : Effect env w client (logoutOp client i id) r w') : w.store.KeepsGames w'.store := by
  unfold logoutOp at h
  split at h
  . cases h with
    | refused => exact .refl _
    | resignUnsent => exact Store.keepsGames_resign ..
    | resigned =>
      exact ((Store.keepsGames_resign ..).trans (Store.keepsGames_post ..)).trans
        (Store.keepsGames_dissolve ..)
  . split at h
    . cases h with
      | refused => exact .refl _
      | revokeUnsent => exact Store.keepsGames_close ..
      | revoked => exact (Store.keepsGames_close ..).trans (Store.keepsGames_dissolve ..)
      | revokedByTarget => exact (Store.keepsGames_close ..).trans (Store.keepsGames_drop ..)
    . cases h with
      | refused => exact .refl _
      | declined => exact (Store.keepsGames_close ..).trans (Store.keepsGames_dissolve ..)
      | declinedBySource => exact (Store.keepsGames_close ..).trans (Store.keepsGames_drop ..)

theorem Operation.Ends.of_logoutOp {s s' : Store} {id : Int} {result : GameRole}
    (h : (logoutOp client i id).Ends s s' client inv result) : s.GivenUp inv client result := by
  unfold logoutOp at h
  split at h
  . exact h
  . split at h <;> exact h.elim

theorem LogoutRun.settles (h : LogoutRun env client w nodes w') (hsends : ∀ n, env.sendOk n = true)
    (hserves : w.store.Serves extra client) (hon : w.store.GamesOn)
    : ∃ posts, w'.trace.posted = w.trace.posted ++ posts.map (·.2)
        ∧ Store.Settles env.expected w.store w'.store posts
        ∧ ∀ p ∈ posts, w.store.GivenUp p.1 client p.2.result := by
  induction h with
  | nil =>
    refine ⟨[], by simp, .nil ?_ rfl, by simp⟩
    intro inv i hi _
    simp [hi]
  | cons hc hnode hi heffect hrest ih =>
    have hserves₁ := heffect.serves hserves (hserves.callable (logoutOp_ne_make _ _ _))
    have hkeeps := heffect.keepsGames_of_logoutOp
    obtain ⟨posts, hposted, hsettles, hends⟩ := heffect.settles hsends hserves hon
    obtain ⟨posts', hposted', hsettles', hgiven⟩ := ih hserves₁ (heffect.gamesOn hsends hserves hon)
    refine ⟨posts ++ posts', by rw [hposted', hposted, List.map_append, List.append_assoc], ?_, ?_⟩
    . exact hsettles.trans hsettles' hserves.valid hserves₁.valid hkeeps heffect.keepsSessions
        heffect.extends hrest.extends
    . intro p hp
      rcases List.mem_append.mp hp with hp | hp
      . exact (hends p hp).of_logoutOp
      . exact hkeeps.givenUp (hgiven p hp)

/-! ## Whole runs -/

namespace Server

/--
How a game comes to its end in a step: by the move asked for, in which case the last board says who
has won, or because a participant resigns it or logs out, in which case the other one has.
-/
inductive Ended (σ σ' : Server) (e : Event) (inv : InvitationPtr) (result : GameRole) : Prop
  | played {client : ClientPtr} {id : Int} {text : CString}
      (hop : σ.opOf? e = some (client, .move id text))
      (hplayed : σ.world.store.PlayedOut σ'.world.store inv result)
  | resigned {client : ClientPtr} {id : Int} (hop : σ.opOf? e = some (client, .resign id))
      (hgiven : σ.world.store.GivenUp inv client result)
  | left {client : ClientPtr}
      (he : e = .hangUp client
        ∨ ∃ pkt, e = .packet client pkt ∧ PacketType.ofByte? pkt.hdr.type = some .no)
      (hgiven : σ.world.store.GivenUp inv client result)

/--
A step posts the results of the accepted games that leave the lists in it, each exactly once, and no
others. The ratings are those that follow from the results.
-/
def Settles (env : Env) (σ : Server) (e : Event) (σ' : Server) : Prop :=
  ∃ posts : List (InvitationPtr × PostedResult),
    σ'.world.trace.posted = σ.world.trace.posted ++ posts.map (·.2)
      ∧ (posts.map (·.1)).Nodup
      ∧ (∀ inv, inv ∈ posts.map (·.1) ↔ ∃ i, σ.world.store.invitations.get? inv = some i
        ∧ i.state = .acceptedState ∧ i.game ≠ none
        ∧ σ.world.store.listed i.source inv = 1 ∧ σ.world.store.listed i.target inv = 1
        ∧ ∀ x, σ'.world.store.listed x inv = 0)
      ∧ (∀ p ∈ posts, σ.world.store.ResultOf σ'.world.store p.1 p.2)
      ∧ (∀ p ∈ posts, σ.Ended σ' e p.1 p.2.result)
      ∧ ∀ player rating, σ.world.store.ratingOf player = some rating →
        σ'.world.store.ratingOf player
            = (σ.world.store.postAll env.expected (posts.map (·.2))).ratingOf player

theorem Steps.settles (h : Steps env σ e σ') (hok : σ.Ok) (hsends : ∀ n, env.sendOk n = true)
    (hon : σ.world.store.GamesOn) : Settles env σ e σ' := by
  obtain ⟨w, hacts, hquiet, hposted⟩ := h.acts hok
  have hok' := h.ok hok
  have hv := hok.steady.valid
  have hs := hok.steady.settled
  have hposts : ∃ posts, w.trace.posted = σ.world.trace.posted ++ posts.map (·.2)
      ∧ Store.Settles env.expected σ.world.store w.store posts
      ∧ ∀ p ∈ posts, σ.Ended σ' e p.1 p.2.result := by
    cases hacts with
    | nothing =>
      refine ⟨[], by simp, .nil ?_ rfl, by simp⟩
      intro inv i hi _
      simp [hi]
    | @asked client op r w hop hserves _ heffect =>
      obtain ⟨posts, hposted, hsettles, hends⟩ := heffect.settles hsends hserves hon
      refine ⟨posts, hposted, hsettles, fun p hp => ?_⟩
      specialize hends p hp
      cases op with
      | move =>
        obtain ⟨i, game, board, hi, hown, hboard, houtcome⟩ := hends
        refine .played hop ⟨i, game, board, hi, hown, ?_, houtcome⟩
        rwa [Store.boardAt, hquiet.games]
      | resign => exact .resigned hop hends
      | _ => exact hends.elim
    | departed he hserves _ hlogout =>
      obtain ⟨posts, hposted, hsettles, hgiven⟩ := hlogout.settles hsends hserves hon
      exact ⟨posts, hposted, hsettles, fun p hp => .left he (hgiven p hp)⟩
  obtain ⟨posts, hpostedw, hsettles, hended⟩ := hposts
  refine ⟨posts, hposted.trans hpostedw, hsettles.nodup, ?_, ?_, hended, ?_⟩
  . intro inv
    rw [hsettles.mem, ← hquiet.invitations]
    constructor
    . rintro ⟨i, hi, hgame, hgone⟩
      obtain ⟨game, hown⟩ := Option.ne_none_iff_exists'.mp hgame
      obtain ⟨-, g, hg, -⟩ := (hv.invitation inv i hi).game game hown
      obtain ⟨haccepted, -⟩ := hon inv i hi g (Option.bind_eq_some_iff.mpr ⟨game, hown, hg⟩)
      have hboth := (hs.both inv i hi).resolve_left fun h => hgame h.2
      refine ⟨i, hi, haccepted, hgame, hboth.1, hboth.2, ?_⟩
      intro x
      -- what is in a list is live
      cases hc : σ'.world.store.clients.get? x with
      | none => simp [Store.listed, hc]
      | some c =>
        rw [Store.listed_of_get? hc, List.count_eq_zero]
        intro hmem
        obtain ⟨i', hi', -⟩ := (hok'.steady.valid.client x c hc).mine inv hmem
        rw [hgone] at hi'
        simp at hi'
    . rintro ⟨i, hi, -, hgame, -, -, hnone⟩
      refine ⟨i, hi, hgame, ?_⟩
      cases hi' : σ'.world.store.invitations.get? inv with
      | none => rfl
      | some i' =>
        have hpositive := hok'.steady.settled.positive inv i' hi'
        simp [hnone] at hpositive
  . intro p hp
    obtain ⟨i, game, hi, hown, hfirst, hsecond, hwinner⟩ := hsettles.result p hp
    refine ⟨i, game, hi, hown, hfirst, hsecond, ?_⟩
    rw [← hwinner, Store.winnerAt, Store.winnerAt, hquiet.games]
  . intro player rating hrating
    have hsome : (σ.world.store.postAll env.expected (posts.map (·.2))).ratingOf player ≠ none :=
      Store.ratingOf_postAll_ne_none (posts.map (·.2)) player (by simp [hrating])
    obtain ⟨rating', hrating'⟩ := Option.ne_none_iff_exists'.mp hsome
    rw [hrating']
    exact hquiet.ratings player rating' ((hsettles.ratings player).trans hrating')

/--
Whatever has happened before, and whatever happens next, results are posted for the accepted games
that leave the lists and for nothing else.
-/
theorem settles_of_reachable (hsends : ∀ n, env.sendOk n = true) (h : Reachable env σ)
    (hstep : (machine env).step σ e = some σ') : Settles env σ e σ' := by
  obtain ⟨hok, hon⟩ := gamesOn_of_reach hsends h
  exact (steps_of_step hok hstep).settles hok hsends hon

def twoGamesEvents : List Event :=
  twoPlayers ++ [.packet 0 (request .invite 0 .firstPlayerRole [66] fits_B),
    .packet 1 (request .invite 0 .firstPlayerRole [65] fits_A),
    .packet 1 (request .accept 0 .nullRole [] fits_nil),
    .packet 0 (request .accept 1 .nullRole [] fits_nil)]

def aboutToDrawEvents : List Event :=
  acceptedEvents ++ [moveEvent 1 '1', moveEvent 0 '5', moveEvent 1 '9', moveEvent 0 '2',
    moveEvent 1 '8', moveEvent 0 '7', moveEvent 1 '3', moveEvent 0 '6']

/--
`A` leaves two games, `B` wins a game, and a game is drawn.
-/
theorem settles_of_endings
    : (∃ σ σ', Reachable calmEnv σ ∧ (machine calmEnv).step σ (.hangUp 0) = some σ'
        ∧ σ'.world.trace.posted.length = 2 ∧ Settles calmEnv σ (.hangUp 0) σ')
      ∧ (∃ σ σ', Reachable calmEnv σ ∧ (machine calmEnv).step σ (moveEvent 1 '9') = some σ'
        ∧ σ'.world.trace.posted.map (·.result) = [.firstPlayerRole]
        ∧ Settles calmEnv σ (moveEvent 1 '9') σ')
      ∧ ∃ σ σ', Reachable calmEnv σ ∧ (machine calmEnv).step σ (moveEvent 1 '4') = some σ'
        ∧ σ'.world.trace.posted.map (·.result) = [.nullRole]
        ∧ Settles calmEnv σ (moveEvent 1 '4') σ' := by
  refine ⟨?_, ?_, ?_⟩
  . obtain ⟨σ, σ', hreach, hstep, hposted⟩ := Machine.Reach.of_any_step (machine calmEnv)
      (fun _ _ => True) initialServer twoGamesEvents (.hangUp 0)
      (fun σ => decide (σ.world.trace.posted.length = 2)) (by decide +kernel)
    exact ⟨σ, σ', hreach, hstep, of_decide_eq_true hposted,
      settles_of_reachable (fun _ => rfl) hreach hstep⟩
  . obtain ⟨σ, σ', hreach, hstep, hposted⟩ := Machine.Reach.of_any_step (machine calmEnv)
      (fun _ _ => True) initialServer aboutToWinEvents (moveEvent 1 '9')
      (fun σ => decide (σ.world.trace.posted.map (·.result) = [.firstPlayerRole]))
      (by decide +kernel)
    exact ⟨σ, σ', hreach, hstep, of_decide_eq_true hposted,
      settles_of_reachable (fun _ => rfl) hreach hstep⟩
  . obtain ⟨σ, σ', hreach, hstep, hposted⟩ := Machine.Reach.of_any_step (machine calmEnv)
      (fun _ _ => True) initialServer aboutToDrawEvents (moveEvent 1 '4')
      (fun σ => decide (σ.world.trace.posted.map (·.result) = [.nullRole])) (by decide +kernel)
    exact ⟨σ, σ', hreach, hstep, of_decide_eq_true hposted,
      settles_of_reachable (fun _ => rfl) hreach hstep⟩

end Server

end Jeux
