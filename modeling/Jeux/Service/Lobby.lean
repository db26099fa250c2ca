import Jeux.Util.Lobby
import Jeux.Service.Accounts
import Jeux.Service.Ratings

/-!
The server as a lobby. What everything in the heap, the registries and the reference counts comes to
is a lobby for games, where everything that happens is one of the things that can be done there.
-/

namespace Jeux

variable {env : Env} {w w' : World} {s s' : Store} {client x : ClientPtr} {c : Client}
  {σ σ' : Server} {e : Event} {op : Operation} {r : Int} {inv u : InvitationPtr} {i : Invitation}
  {game : GamePtr} {g : Game} {player : PlayerPtr} {name : CString} {extra : ClientPtr → Nat}
  {id : Int} {result : PostedResult} {nodes : List InvitationNode}

/-! ## The rules -/

namespace GameRole

def ofSeat : Lobby.Seat → GameRole
  | .first => .firstPlayerRole
  | .second => .secondPlayerRole

def ofWinner : Option Lobby.Seat → GameRole
  | some seat => ofSeat seat
  | none => .nullRole

def winner? : GameRole → Option Lobby.Seat
  | .nullRole => none
  | .firstPlayerRole => some .first
  | .secondPlayerRole => some .second

@[simp]
theorem ofWinner_winner? (role : GameRole) : ofWinner role.winner? = role := by cases role <;> rfl

/-- The seat of the one who invites. -/
def host (sourceRole : GameRole) : Lobby.Seat :=
  if sourceRole = .firstPlayerRole then .first else .second

end GameRole

def lobbyRules (expected : Int → Rat) : Lobby.Rules Game CString where
  start := gameCreate
  play := fun g seat text =>
    (legalMove? g (.ofSeat seat) text).map fun move => (gameApplyMove g move).2
  outcome := fun g => if g.isOver then some g.winner.winner? else none
  initial := playerInitialRating
  settle := fun rating1 rating2 winner => postedRatings expected rating1 rating2 (.ofWinner winner)
  begins := rfl

/-! ## The lobby -/

def Invitation.pairing (i : Invitation) (position : Option Game) : Lobby.Pairing ClientPtr Game where
  first := i.first
  second := i.second
  host := i.sourceRole.host
  position := position

namespace Store

def sessionOf (s : Store) (client : ClientPtr) : Option CString :=
  if s.isLoggedIn client then s.nameOf client else none

def ratingFor (s : Store) (name : CString) : Int :=
  ((s.playerNamed name).bind s.ratingOf).getD playerInitialRating

/--
An invitation that is open, or whose game is going on.
-/
def pairingOf (s : Store) (inv : InvitationPtr) : Option (Lobby.Pairing ClientPtr Game) :=
  (s.invitations.get? inv).bind fun i =>
    match i.state with
    | .openState => some (i.pairing none)
    | .acceptedState => (s.gameOf i).map fun g => i.pairing (some g)
    | .closedState => none

def lobby (s : Store) : Lobby CString ClientPtr InvitationPtr Game where
  enrolled := fun name => s.playerNamed name ≠ none
  rating := s.ratingFor
  session := s.sessionOf
  pairing := s.pairingOf

end Store

def Operation.action? (s : Store) (client : ClientPtr) (op : Operation)
    : Option (Lobby.Action CString ClientPtr InvitationPtr CString) :=
  (op.subject? s client).map fun inv =>
    match op with
    | .make target sourceRole _ => .offer inv target sourceRole.host
    | .revoke _ => .withdraw inv
    | .decline _ => .withdraw inv
    | .accept _ => .accept inv
    | .resign _ => .resign inv
    | .move _ text => .move inv text

/-! ## Invitations as pairings -/

namespace Store

theorem InvitationOk.takesPart_pairing {o : Option Game} (h : s.InvitationOk inv i)
    : (i.pairing o).TakesPart client ↔ i.source = client ∨ i.target = client := by
  rw [Lobby.Pairing.takesPart_iff]
  unfold Invitation.pairing Invitation.first Invitation.second
  rcases h.roles with ⟨hs, -⟩ | ⟨hs, -⟩
  . simp [hs]
  . simp [hs, or_comm]

theorem InvitationOk.guest_pairing {o : Option Game} (h : s.InvitationOk inv i)
    : (i.pairing o).guest = i.target := by
  unfold Lobby.Pairing.guest Lobby.Pairing.seated Invitation.pairing Invitation.first
    Invitation.second GameRole.host
  rcases h.roles with ⟨hs, -⟩ | ⟨hs, -⟩ <;> simp [hs, Lobby.Seat.other]

theorem InvitationOk.seated_pairing (h : s.InvitationOk inv i)
    (hor : i.source = client ∨ i.target = client)
    : ∃ seat, (∀ o, (i.pairing o).seated seat = client) ∧ GameRole.ofSeat seat = i.roleOf client
        ∧ GameRole.ofSeat seat.other = i.roleOf (i.opponentOf client) := by
  rw [roleOf_opponentOf h.roles h.distinct]
  unfold Invitation.pairing Lobby.Pairing.seated Invitation.first Invitation.second
    Invitation.roleOf
  have hdistinct := h.distinct
  rcases hor with rfl | rfl
  . rcases h.roles with ⟨hs, ht⟩ | ⟨hs, ht⟩
    . exact ⟨.first, by simp [hs, GameRole.ofSeat, Lobby.Seat.other]⟩
    . exact ⟨.second, by simp [hs, GameRole.ofSeat, Lobby.Seat.other]⟩
  . rcases h.roles with ⟨hs, ht⟩ | ⟨hs, ht⟩
    . exact ⟨.second, by simp [hs, ht, hdistinct, GameRole.ofSeat, Lobby.Seat.other]⟩
    . exact ⟨.first, by simp [hs, ht, hdistinct, GameRole.ofSeat, Lobby.Seat.other]⟩

theorem pairingOf_of_open (hi : s.invitations.get? inv = some i) (hopen : i.state = .openState)
    : s.pairingOf inv = some (i.pairing none) := by simp [pairingOf, hi, hopen]

theorem pairingOf_of_playing (hi : s.invitations.get? inv = some i)
    (haccepted : i.state = .acceptedState) (hown : i.game = some game)
    (hg : s.games.get? game = some g) : s.pairingOf inv = some (i.pairing (some g)) := by
  simp [pairingOf, hi, haccepted, gameOf, hown, hg]

theorem pairingOf_of_closed (h : ∀ i ∈ s.invitations.get? inv, i.state = .closedState)
    : s.pairingOf inv = none := by
  unfold pairingOf
  cases hi : s.invitations.get? inv with
  | none => rfl
  | some i => simp [h i hi]

theorem pairingOf_of_gone (h : s.invitations.get? inv = none) : s.pairingOf inv = none := by
  simp [pairingOf, h]

theorem active_of_pairingOf {m : Lobby.Pairing ClientPtr Game} (h : s.pairingOf inv = some m)
    : ∃ i, s.invitations.get? inv = some i ∧ i.Active ∧
        ((i.state = .openState ∧ m = i.pairing none)
          ∨ ∃ game g, i.state = .acceptedState ∧ i.game = some game
            ∧ s.games.get? game = some g ∧ m = i.pairing (some g)) := by
  obtain ⟨i, hi, hm⟩ := Option.bind_eq_some_iff.mp h
  refine ⟨i, hi, ?_⟩
  cases hstate : i.state with
  | openState =>
    rw [hstate] at hm
    exact ⟨.inl hstate, .inl ⟨rfl, (Option.some.inj hm).symm⟩⟩
  | acceptedState =>
    rw [hstate] at hm
    obtain ⟨g, hg, rfl⟩ := Option.map_eq_some_iff.mp hm
    obtain ⟨game, hown, hg⟩ := Option.bind_eq_some_iff.mp hg
    exact ⟨.inr ⟨hstate, by simp [hown]⟩, .inr ⟨game, g, rfl, hown, hg, rfl⟩⟩
  | closedState =>
    rw [hstate] at hm
    simp at hm

theorem Valid.participant_of_takesPart {m : Lobby.Pairing ClientPtr Game} (hv : s.Valid extra)
    (hm : s.pairingOf inv = some m) (hpart : m.TakesPart client)
    : ∃ i, s.invitations.get? inv = some i ∧ i.Active
        ∧ (i.source = client ∨ i.target = client) := by
  obtain ⟨i, hi, hactive, ⟨-, rfl⟩ | ⟨game, g, -, -, -, rfl⟩⟩ := active_of_pairingOf hm
  . exact ⟨i, hi, hactive, (hv.invitation inv i hi).takesPart_pairing.mp hpart⟩
  . exact ⟨i, hi, hactive, (hv.invitation inv i hi).takesPart_pairing.mp hpart⟩

theorem SameAt.pairingOf (h : s.SameAt s' u) : s'.pairingOf u = s.pairingOf u := by
  unfold Store.pairingOf
  rw [h.invitation]
  refine Option.bind_congr fun i hi => ?_
  have hgame : s'.gameOf i = s.gameOf i := by
    unfold gameOf
    cases hown : i.game with
    | none => rfl
    | some game => exact h.game i game hi hown
  rw [hgame]

theorem pairingOf_congr (hinvitations : s'.invitations = s.invitations)
    (hgames : s'.games = s.games) : s'.pairingOf = s.pairingOf := by
  funext u
  unfold pairingOf gameOf
  rw [hinvitations, hgames]

/-! ## Sessions and ratings -/

theorem sessionOf_congr
    (hsession : (s'.clients.get? x).map Client.session = (s.clients.get? x).map Client.session)
    (hname : ∀ player, s.playerOf x = some player →
      (s'.players.get? player).map (·.name) = (s.players.get? player).map (·.name))
    : s'.sessionOf x = s.sessionOf x := by
  have hin : s'.isLoggedIn x = s.isLoggedIn x := by
    have hstate := congrArg (Option.map Prod.snd) hsession
    simp only [Option.map_map] at hstate
    unfold isLoggedIn
    cases hc' : s'.clients.get? x with
    | none => cases hc : s.clients.get? x <;> simp_all
    | some c' => cases hc : s.clients.get? x <;> simp_all [Client.session]
  rw [sessionOf, sessionOf, hin, nameOf_congr (playerOf_of_session hsession) hname]

theorem KeepsSessions.sessionOf (h : s.KeepsSessions s') (x : ClientPtr)
    : s'.sessionOf x = s.sessionOf x := sessionOf_congr (h.session x) fun player _ => h.name player

theorem SameNames.ratingFor (h : s.SameNames s')
    (hratings : ∀ player, s'.ratingOf player = s.ratingOf player) : s'.ratingFor = s.ratingFor := by
  funext name
  unfold Store.ratingFor
  rw [h.playerNamed, funext hratings]

theorem lobby_withPairing (hkeeps : s.KeepsSessions s')
    (hratings : ∀ player, s'.ratingOf player = s.ratingOf player)
    (hother : ∀ u, u ≠ inv → s'.pairingOf u = s.pairingOf u)
    : s'.lobby = s.lobby.withPairing inv (s'.pairingOf inv) := by
  refine Lobby.ext ?_ (hkeeps.sameNames.ratingFor hratings) (funext hkeeps.sessionOf) ?_
  . funext name
    exact congrArg (· ≠ none) (hkeeps.sameNames.playerNamed name)
  . funext u
    show s'.pairingOf u = Function.update s.pairingOf inv (s'.pairingOf inv) u
    by_cases heq : u = inv
    . rw [heq, Function.update_self]
    . rw [Function.update_of_ne heq, hother u heq]

theorem Valid.sessionOf_ne_none (hv : s.Valid extra) (hc : s.clients.get? x = some c)
    (hin : c.loggedIn = .loggedIn) : s.sessionOf x ≠ none := by
  obtain ⟨player, hplayer⟩ := Option.ne_none_iff_exists'.mp ((hv.client x c hc).player hin)
  obtain ⟨p, hp⟩ := hv.player_live hc hplayer
  simp [sessionOf, isLoggedIn, hc, hin, nameOf, playerOf, hplayer, hp]

theorem sessionOf_of_participant {p : Player} (hv : s.Valid extra) (hs : s.Settled)
    (hi : s.invitations.get? inv = some i) (hactive : i.Active)
    (hor : i.source = x ∨ i.target = x) (hplayer : s.playerOf x = some player)
    (hp : s.players.get? player = some p) : s.sessionOf x = some p.name := by
  obtain ⟨c, hc, -, hin, -⟩ := hs.participant hv hi hactive hor
  have hlogged : s.isLoggedIn x = true := by simp [isLoggedIn, hc, hin]
  rw [sessionOf, if_pos hlogged, nameOf, hplayer, Option.bind_some, hp, Option.map_some]

theorem NamesApart.ratingFor_post {expected : Int → Rat} {p1 p2 : Player} (h : s.NamesApart)
    (hsame : s.SameNames s') (h1 : result.player1 ∈ s.playerRegistry.players)
    (h2 : result.player2 ∈ s.playerRegistry.players)
    (hp1 : s.players.get? result.player1 = some p1)
    (hp2 : s.players.get? result.player2 = some p2)
    (hratings : ∀ player, s'.ratingOf player = (s.post expected result).ratingOf player)
    : s'.ratingFor
        =
      Ledger.post (lobbyRules expected).settle s.ratingFor
        ⟨p1.name, p2.name, result.result.winner?⟩ := by
  have hnamed1 := h _ h1 _ hp1
  have hnamed2 := h _ h2 _ hp2
  have hr1 : s.ratingOf result.player1 = some p1.rating := by simp [ratingOf, hp1]
  have hr2 : s.ratingOf result.player2 = some p2.rating := by simp [ratingOf, hp2]
  have htable1 : s.ratingFor p1.name = p1.rating := by simp [ratingFor, hnamed1, hr1]
  have htable2 : s.ratingFor p2.name = p2.rating := by simp [ratingFor, hnamed2, hr2]
  funext name
  by_cases hself : result.player1 = result.player2
  . -- a player has no game with itself, and an account no business
    have hnames : p1.name = p2.name := by
      rw [hself, hp2, Option.some.injEq] at hp1
      rw [hp1]
    rw [Ledger.post, if_pos hnames]
    unfold ratingFor
    rw [hsame.playerNamed]
    cases s.playerNamed name with
    | none => rfl
    | some player => rw [Option.bind_some, Option.bind_some, hratings, ratingOf_post, if_pos hself]
  . have hnames : p1.name ≠ p2.name := by
      intro heq
      rw [heq, hnamed2] at hnamed1
      exact hself (Option.some.inj hnamed1).symm
    rw [Ledger.post_apply hnames]
    dsimp only [lobbyRules]
    rw [htable1, htable2, GameRole.ofWinner_winner?]
    unfold ratingFor
    rw [hsame.playerNamed]
    cases hnamed : s.playerNamed name with
    | none =>
      rw [if_neg, if_neg]
      . rfl
      . rintro rfl
        simp [hnamed] at hnamed1
      . rintro rfl
        simp [hnamed] at hnamed2
    | some player =>
      have hiff1 : player = result.player1 ↔ name = p1.name := by
        constructor
        . rintro rfl
          have hname := (name_of_playerNamed hnamed).2
          rw [hp1, Option.map_some, Option.some.injEq] at hname
          exact hname.symm
        . rintro rfl
          exact Option.some.inj (hnamed.symm.trans hnamed1)
      have hiff2 : player = result.player2 ↔ name = p2.name := by
        constructor
        . rintro rfl
          have hname := (name_of_playerNamed hnamed).2
          rw [hp2, Option.map_some, Option.some.injEq] at hname
          exact hname.symm
        . rintro rfl
          exact Option.some.inj (hnamed.symm.trans hnamed2)
      rw [Option.bind_some, Option.bind_some, hratings, ratingOf_post, if_neg hself, hr1, hr2]
      dsimp only
      by_cases hlast : name = p2.name
      . rw [if_pos (hiff2.mpr hlast), if_pos hlast, Option.getD_some]
      . rw [if_neg (fun heq => hlast (hiff2.mp heq)), if_neg hlast]
        by_cases hfirst : name = p1.name
        . rw [if_pos (hiff1.mpr hfirst), if_pos hfirst, Option.getD_some]
        . rw [if_neg (fun heq => hfirst (hiff1.mp heq)), if_neg hfirst]

theorem NamesApart.lobby_concluded {c co : Client} {player playero : PlayerPtr}
    {winner : GameRole} (h : s.NamesApart) (expected : Int → Rat) (hv : s.Valid extra)
    (hs : s.Settled) (hkeeps : s.KeepsSessions s') (hi : s.invitations.get? inv = some i)
    (hactive : i.Active) (hor : i.source = client ∨ i.target = client)
    (hc : s.clients.get? client = some c) (hco : s.clients.get? (i.opponentOf client) = some co)
    (hplayer : c.player = some player) (hplayero : co.player = some playero)
    (hgone : s'.invitations.get? inv = none)
    (hother : ∀ u, u ≠ inv → s'.pairingOf u = s.pairingOf u)
    (hratings : ∀ x, s'.ratingOf x
      = (s.post expected (resultOf (i.roleOf client) player playero winner)).ratingOf x)
    : ∃ first second, s.sessionOf i.first = some first ∧ s.sessionOf i.second = some second
        ∧ s'.lobby = s.lobby.concluded (lobbyRules expected) inv first second winner.winner? := by
  have hok := hv.invitation inv i hi
  obtain ⟨hfirst, hsecond⟩ := playerAt_resultOf hok.roles hor hc hco hplayer hplayero winner
  generalize hresult : resultOf (i.roleOf client) player playero winner = result at *
  have hwinner : result.result = winner := by
    rw [← hresult]
    unfold resultOf
    split <;> rfl
  have hplayerOf : ∀ {x player}, s.playerAt x = some player →
      player ∈ s.playerRegistry.players ∧ ∃ p, s.players.get? player = some p := by
    intro x player hx
    obtain ⟨c, hc, hplayer⟩ := Option.bind_eq_some_iff.mp hx
    exact ⟨(hv.client x c hc).known player hplayer, hv.player_live hc hplayer⟩
  obtain ⟨hmem1, p1, hp1⟩ := hplayerOf hfirst
  obtain ⟨hmem2, p2, hp2⟩ := hplayerOf hsecond
  have hends : (i.source = i.first ∨ i.target = i.first)
      ∧ (i.source = i.second ∨ i.target = i.second) := by
    unfold Invitation.first Invitation.second
    split <;> simp
  refine ⟨p1.name, p2.name, sessionOf_of_participant hv hs hi hactive hends.1 hfirst hp1,
    sessionOf_of_participant hv hs hi hactive hends.2 hsecond hp2, ?_⟩
  refine Lobby.ext ?_ ?_ (funext hkeeps.sessionOf) ?_
  . funext name
    exact congrArg (· ≠ none) (hkeeps.sameNames.playerNamed name)
  . rw [← hwinner]
    exact h.ratingFor_post hkeeps.sameNames hmem1 hmem2 hp1 hp2 hratings
  . funext u
    show s'.pairingOf u = Function.update s.pairingOf inv none u
    by_cases heq : u = inv
    . rw [heq, Function.update_self, pairingOf_of_gone hgone]
    . rw [Function.update_of_ne heq, hother u heq]

end Store

/-! ## Operations as steps -/

theorem Store.pairingOf_invite (s : Store) (source target : ClientPtr)
    (sourceRole targetRole : GameRole)
    : (s.invite source target sourceRole targetRole).pairingOf s.invitations.next
        =
      some (.offered source target sourceRole.host) := by
  have hi : (s.invite source target sourceRole targetRole).invitations.get? s.invitations.next
      = some { newInvitation source target sourceRole targetRole with refCount := 2 } :=
    Heap.get?_push_next
  rw [pairingOf_of_open hi rfl]
  unfold Invitation.pairing Invitation.first Invitation.second Lobby.Pairing.offered GameRole.host
  by_cases hfirst : sourceRole = .firstPlayerRole <;> simp [hfirst, newInvitation]

theorem Store.Open.pairingOf (h : s.Open client id inv i)
    : s.pairingOf inv = some (i.pairing none) := pairingOf_of_open h.invitation h.state

theorem Store.Open.or (h : s.Open client id inv i) (hv : s.Valid extra)
    : i.source = client ∨ i.target = client := by
  obtain ⟨-, i', -, -, hi', hor⟩ := hv.invitationOf h.named
  exact Option.some.inj (h.invitation.symm.trans hi') ▸ hor

theorem Store.Move.state {text : CString} {move : GameMove}
    (h : s.Move client id text inv i game g move) (hon : s.GamesOn) : i.state = .acceptedState :=
  (hon inv i h.invitation g (Option.bind_eq_some_iff.mpr ⟨game, h.owned, h.board⟩)).1

theorem Store.Move.played {text : CString} {move : GameMove}
    (h : s.Move client id text inv i game g move) (expected : Int → Rat) (hv : s.Valid extra)
    : (i.source = client ∨ i.target = client)
        ∧ ∃ seat, (∀ o, (i.pairing o).seated seat = client)
          ∧ (lobbyRules expected).play g seat text = some (gameApplyMove g move).2 := by
  obtain ⟨-, i', -, -, hi', hor⟩ := hv.invitationOf h.named
  obtain rfl := Option.some.inj (h.invitation.symm.trans hi')
  obtain ⟨seat, hseat, hrole, -⟩ := (hv.invitation inv i hi').seated_pairing hor
  refine ⟨hor, seat, hseat, ?_⟩
  dsimp only [lobbyRules]
  rw [hrole, h.legal, Option.map_some]

theorem Effect.pairingOf_of_ne (h : Effect env w client op r w') (hv : w.store.Valid extra)
    (hl : w.store.Linked) (hsubject : op.subject? w.store client = some inv) (hne : u ≠ inv)
    : w'.store.pairingOf u = w.store.pairingOf u := by
  refine (h.sameAt hv hl ?_).pairingOf
  rw [hsubject]
  exact fun heq => hne (Option.some.inj heq).symm

/--
What an operation does that is granted is what there is to be done in the lobby, by the one who asks
for it.
-/
theorem Effect.lobby (h : Effect env w client op r w') (henv : env.Reliable)
    (hserves : w.store.Serves extra client) (hcall : w.store.Callable client op)
    (hon : w.store.GamesOn) (hnames : w.store.NamesApart)
    : (¬ op.Granted env w client ∧ w'.store.lobby = w.store.lobby)
        ∨ ∃ a, op.action? w.store client = some a
            ∧ Lobby.Step (lobbyRules env.expected) client w.store.lobby a w'.store.lobby := by
  have hv := hserves.valid
  have hs := hserves.settled
  have hkeeps := h.keepsSessions
  have hother : ∀ {inv}, op.subject? w.store client = some inv →
      ∀ u, u ≠ inv → w'.store.pairingOf u = w.store.pairingOf u :=
    fun hsubject u => h.pairingOf_of_ne hv hs.linked hsubject
  have hlobby : ∀ {inv o}, op.subject? w.store client = some inv → w'.store.pairingOf inv = o →
      w'.store.players = w.store.players → w'.store.lobby = w.store.lobby.withPairing inv o := by
    rintro inv _ hsubject rfl hplayers
    exact Store.lobby_withPairing hkeeps (Store.ratingOf_congr hplayers) (hother hsubject)
  -- an offer goes, whether or not its node stays behind in one of the lists
  have hwithdrawn : ∀ {inv i id}, w.store.Open client id inv i →
      op.subject? w.store client = some inv →
      (∀ i' ∈ w'.store.invitations.get? inv, i'.state = .closedState) →
      w'.store.players = w.store.players →
      Lobby.Step (lobbyRules env.expected) client w.store.lobby (.withdraw inv)
        w'.store.lobby := by
    intro inv i id hopen hsubject hclosed hplayers
    rw [hlobby hsubject (Store.pairingOf_of_closed hclosed) hplayers]
    exact .withdraw hopen.pairingOf rfl
      ((hv.invitation inv i hopen.invitation).takesPart_pairing.mpr (hopen.or hv))
  cases h with
  | refused _ _ hno => exact .inl ⟨hno, rfl⟩
  | @made target cs ct sourceRole targetRole player p n _ hcs hct hplayer hp =>
    obtain ⟨hne, ⟨ct', hct', hin⟩, -⟩ := hcall.invited _ _ _ rfl
    refine .inr ⟨_, rfl, ?_⟩
    rw [hlobby rfl (Store.pairingOf_invite ..) rfl]
    exact .offer (hv.sessionOf_ne_none hcs (hcall.session cs hcs (by simp [hplayer])))
      (hv.sessionOf_ne_none hct' hin) hne (Store.pairingOf_of_gone Heap.get?_next)
  | revokeUnsent _ hsend => simp [henv.sends] at hsend
  | @revoked id inv i hopen hsource =>
    have hshared := hopen.shared hv hs.linked
    rw [opponentOf_source hsource] at hshared
    refine .inr ⟨_, congrArg (Option.map _) hopen.named, hwithdrawn hopen hopen.named ?_
      (Store.dissolve_players ..)⟩
    rw [hshared.close.gone]
    simp
  | @revokedByTarget id inv i hopen =>
    refine .inr ⟨_, congrArg (Option.map _) hopen.named, hwithdrawn hopen hopen.named ?_
      (Store.drop_players ..)⟩
    intro i' hi'
    rw [(hopen.shared hv hs.linked).close.get?_drop hi']
    rfl
  | @declined id inv i hopen htarget =>
    have hshared := hopen.shared hv hs.linked
    rw [(hv.invitation _ _ hopen.invitation).opponentOf_target htarget] at hshared
    refine .inr ⟨_, congrArg (Option.map _) hopen.named, hwithdrawn hopen hopen.named ?_
      (Store.dissolve_players ..)⟩
    rw [hshared.close.gone]
    simp
  | @declinedBySource id inv i hopen =>
    refine .inr ⟨_, congrArg (Option.map _) hopen.named, hwithdrawn hopen hopen.named ?_
      (Store.drop_players ..)⟩
    intro i' hi'
    rw [(hopen.shared hv hs.linked).close.get?_drop hi']
    rfl
  | acceptNoRoom _ _ halloc => simp [henv.allocs] at halloc
  | @accepted id inv i hopen htarget =>
    have hi' : (w.store.accept inv).invitations.get? inv
        = some { i with state := .acceptedState, game := some w.store.games.next } := by
      simp [Store.accept, hopen.invitation]
    have hpairing : (w.store.accept inv).pairingOf inv
        = some { i.pairing none with position := some gameCreate } := by
      rw [Store.pairingOf_of_playing hi' rfl rfl (Heap.get?_push_next : _ = some gameCreate)]
      rfl
    refine .inr ⟨_, congrArg (Option.map _) hopen.named, ?_⟩
    rw [hlobby hopen.named hpairing rfl]
    refine .accept hopen.pairingOf rfl ?_
    rw [(hv.invitation _ _ hopen.invitation).guest_pairing, htarget]
  | resignUnsent _ hsend => simp [henv.sends] at hsend
  | @resigned id inv i game c co player playero hplay hc hco hplayer hplayero =>
    have hok := hv.invitation _ _ hplay.invitation
    obtain ⟨-, i', -, -, hi', hor⟩ := hv.invitationOf hplay.named
    obtain rfl := Option.some.inj (hplay.invitation.symm.trans hi')
    obtain ⟨-, g, hg, -⟩ := hok.game game hplay.owned
    obtain ⟨seat, hseat, -, hother'⟩ := hok.seated_pairing hor
    have hactive : i.Active := .inr ⟨hplay.state, by simp [hplay.owned]⟩
    have hgone := (((hplay.shared hv hs.linked).resign game (i.roleOf client)).post env.expected
      (resultOf (i.roleOf client) player playero (i.roleOf (i.opponentOf client)))).gone
    obtain ⟨first, second, hfirst, hsecond, hconcluded⟩ := hnames.lobby_concluded
      env.expected hv hs hkeeps hplay.invitation hactive hor hc hco hplayer hplayero hgone
      (hother hplay.named) (by
        intro x
        rw [World.conclude, Store.ratingOf_congr (Store.dissolve_players ..)]
        simp only [Store.ratingOf_post]
        rfl)
    refine .inr ⟨_, congrArg (Option.map _) hplay.named, ?_⟩
    rw [hconcluded, ← hother']
    have hwinner : (GameRole.ofSeat seat.other).winner? = some seat.other := by cases seat <;> rfl
    rw [hwinner]
    exact .resign (Store.pairingOf_of_playing hplay.invitation hplay.state hplay.owned hg) (hseat _)
      rfl hfirst hsecond
  | moveUnsent _ hsend => simp [henv.sends] at hsend
  | @moved id text inv i game g move hmove _ hover =>
    obtain ⟨-, seat, hseat, hplay⟩ := hmove.played env.expected hv
    have hstate := hmove.state hon
    have hg : (w.store.play game move).games.get? game = some (gameApplyMove g move).2 := by
      simp [hmove.board]
    have hpairing : (w.store.play game move).pairingOf inv
        = some { i.pairing (some g) with position := some (gameApplyMove g move).2 } := by
      rw [Store.pairingOf_of_playing (s := w.store.play game move) hmove.invitation hstate
        hmove.owned hg]
      rfl
    refine .inr ⟨_, congrArg (Option.map _) hmove.named, ?_⟩
    rw [hlobby hmove.named hpairing rfl]
    exact .move (Store.pairingOf_of_playing hmove.invitation hstate hmove.owned hmove.board)
      (hseat _) rfl hplay (by simp [lobbyRules, hover])
  | endUnsent _ _ _ hend => simp [henv.sends] at hend
  | endUnsentSelf _ _ _ _ hself => simp [henv.sends] at hself
  | @finished id text inv i game g move c co player playero hmove hc hco hplayer hplayero _ hover =>
    obtain ⟨hor, seat, hseat, hplay⟩ := hmove.played env.expected hv
    have hstate := hmove.state hon
    have hactive : i.Active := .inr ⟨hstate, by simp [hmove.owned]⟩
    have hgone := (((hmove.shared hv hs.linked).play game move).post env.expected
      (resultOf (i.roleOf client) player playero (gameApplyMove g move).2.winner)).gone
    obtain ⟨first, second, hfirst, hsecond, hconcluded⟩ := hnames.lobby_concluded
      env.expected hv hs hkeeps hmove.invitation hactive hor hc hco hplayer hplayero hgone
      (hother hmove.named) (by
        intro x
        rw [World.conclude, Store.ratingOf_congr (Store.dissolve_players ..)]
        simp only [Store.ratingOf_post]
        rfl)
    refine .inr ⟨_, congrArg (Option.map _) hmove.named, ?_⟩
    rw [hconcluded]
    exact .finish (Store.pairingOf_of_playing hmove.invitation hstate hmove.owned hmove.board)
      (hseat _) rfl hplay (by simp [lobbyRules, hover]) hfirst hsecond

end Jeux
