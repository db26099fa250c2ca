import Jeux.Service.Apart
import Jeux.Service.Endings

/-!
Requests that concern different clients. Each leaves alone whatever the other is about, so it does
not matter which of them the server handles first, but for ratings of a player that both change.
-/

namespace Jeux

open ServerM

variable {env answers : Env} {s : Store} {client x : ClientPtr} {op : Operation}
  {extra : ClientPtr → Nat} {σ τ : Server} {player : PlayerPtr} {result result' : PostedResult}

def Store.MovesClosed (s : Store) (client : ClientPtr) (op : Option Operation) : Prop :=
  ∃ id text inv i game g move, op = some (.move id text)
    ∧ s.Move client id text inv i game g move ∧ i.state = .closedState

/-! ## The players of a result -/

namespace Store

variable {inv : InvitationPtr} {i : Invitation}

theorem players_resultOf {c co : Client} {player playero : PlayerPtr} {winner role : GameRole}
    (hnamed : s.named? client (some op) = some inv) (hi : s.invitations.get? inv = some i)
    (hc : s.clients.get? client = some c) (hplayer : c.player = some player)
    (hco : s.clients.get? (i.opponentOf client) = some co) (hplayero : co.player = some playero)
    : ∀ p, p = (resultOf role player playero winner).player1
        ∨ p = (resultOf role player playero winner).player2 →
      ∃ x ∈ s.participants client (some op), s.playerOf x = some p := by
  have hself : ∃ x ∈ s.participants client (some op), s.playerOf x = some player :=
    ⟨client, mem_participants .., by simp [playerOf, hc, hplayer]⟩
  have hother : ∃ x ∈ s.participants client (some op), s.playerOf x = some playero :=
    ⟨i.opponentOf client, mem_participants_opponentOf hnamed hi, by simp [playerOf, hco, hplayero]⟩
  intro p hp
  unfold resultOf at hp
  dsimp only at hp
  split at hp
  . rcases hp with rfl | rfl
    . exact hself
    . exact hother
  . rcases hp with rfl | rfl
    . exact hother
    . exact hself

theorem Concludes.ofPlayer (h : s.Concludes answers client op result)
    : ∀ p, p = result.player1 ∨ p = result.player2 →
      ∃ x ∈ s.participants client (some op), s.playerOf x = some p := by
  cases h with
  | resigned h hc hco hplayer hplayero =>
    exact players_resultOf h.named h.invitation hc hplayer hco hplayero
  | finished h hc hco hplayer hplayero =>
    exact players_resultOf h.named h.invitation hc hplayer hco hplayero

/--
A game that ends is played in an active invitation, unless a move is made where nothing should
happen any more.
-/
theorem Concludes.active (h : s.Concludes answers client op result) (hv : s.Valid extra)
    : (∃ inv i, s.named? client (some op) = some inv ∧ s.invitations.get? inv = some i ∧ i.Active)
        ∨ s.MovesClosed client (some op) := by
  cases h with
  | @resigned _ _ i _ _ _ _ _ h =>
    exact .inl ⟨_, i, h.named, h.invitation, .inr ⟨h.state, by simp [h.owned]⟩⟩
  | @finished _ _ _ i _ _ _ _ _ _ _ h =>
    cases hstate : i.state with
    | openState =>
      have hnone := (hv.invitation _ _ h.invitation).game_eq_none hstate
      simp [h.owned] at hnone
    | acceptedState => exact .inl ⟨_, i, h.named, h.invitation, .inr ⟨hstate, by simp [h.owned]⟩⟩
    | closedState => exact .inr ⟨_, _, _, i, _, _, _, rfl, h, hstate⟩

end Store

/-! ## Two requests -/

namespace Server

variable {a b q : ClientRequest}

/--
Nothing has been done to anything that is not of the participants of the invitation that the request
names or makes, and nobody else has been told anything.
-/
structure Spares (σ : Server) (q : ClientRequest) (τ : Server) : Prop where
  clients : ∀ x, x ∉ σ.participants q → τ.world.store.clients.get? x = σ.world.store.clients.get? x
  players : ∀ player, (∀ x ∈ σ.participants q, σ.world.store.playerOf x ≠ some player) →
    τ.world.store.players.get? player = σ.world.store.players.get? player
  invitations : ∀ inv < σ.world.store.invitations.next,
    σ.world.store.named? q.client (σ.asks q) ≠ some inv →
    τ.world.store.invitations.get? inv = σ.world.store.invitations.get? inv
  games : ∀ game < σ.world.store.games.next,
    (∀ inv i, σ.world.store.named? q.client (σ.asks q) = some inv →
      σ.world.store.invitations.get? inv = some i → i.game ≠ some game) →
    τ.world.store.games.get? game = σ.world.store.games.get? game
  registries : σ.world.store.SameRegistries τ.world.store
  connections : τ.connections = σ.connections
  told : ∃ packets, τ.world.trace.sent = σ.world.trace.sent ++ packets
    ∧ ∀ packet ∈ packets, packet.receiver ∈ σ.participants q

def sentTo (σ : Server) (x : ClientPtr) : List SentPacket :=
  σ.world.trace.sent.filter fun packet => packet.receiver = x

structure Agrees (σ : Server) (ρ : Renaming) (τ τ' : Server) : Prop where
  invitation : ∀ inv < σ.world.store.invitations.next, ρ.invitation inv = inv
  game : ∀ game < σ.world.store.games.next, ρ.game game = game
  clients : ∀ x, τ'.world.store.clients.get? x
    = (τ.world.store.clients.get? x).map (Client.rename ρ.invitation)
  players : ∀ player, τ'.world.store.players.get? player = τ.world.store.players.get? player
  invitations : ∀ inv, τ'.world.store.invitations.get? (ρ.invitation inv)
    = (τ.world.store.invitations.get? inv).map (Invitation.rename ρ.game)
  games : ∀ game, τ'.world.store.games.get? (ρ.game game) = τ.world.store.games.get? game
  registries : τ.world.store.SameRegistries τ'.world.store
  connections : τ'.connections = τ.connections
  told : ∀ x, τ'.sentTo x = τ.sentTo x

/--
The two requests share a player, of a client that has left and of one that has come since, and one
of them is a move in an invitation that is closed.
-/
structure Clash (σ : Server) (a b : ClientRequest) : Prop where
  player : ∃ x ∈ σ.participants a, ∃ y ∈ σ.participants b, ∃ player,
    σ.world.store.playerOf x = some player ∧ σ.world.store.playerOf y = some player
  closed : σ.world.store.MovesClosed a.client (σ.asks a)
    ∨ σ.world.store.MovesClosed b.client (σ.asks b)

/--
Where both requests end a game, it does not matter for the rating of any player which of the two
results is posted first.
-/
def RatingsCommute (σ : Server) (a b : ClientRequest) : Prop :=
  ∀ result result', σ.Concludes a result → σ.Concludes b result' → ∀ player,
    ((σ.world.store.post a.answers.expected result).post b.answers.expected result').players.get?
        player
      =
    ((σ.world.store.post b.answers.expected result').post a.answers.expected result).players.get?
        player

def sameNames : Renaming := ⟨id, id, fun _ => rfl, fun _ => rfl⟩

theorem sameNames_fits (s s' : Store) : sameNames.Fits s s' s :=
  ⟨fun _ _ => rfl, fun _ _ => rfl, fun _ => rfl, fun _ => rfl⟩

theorem Receives.spares (h : σ.Receives q) (hok : σ.Ok) (hrun : σ.handle q = .ok τ)
    : σ.Spares q τ := by
  have hhandling := h.handling hok hrun
  obtain ⟨v', hcourse⟩ := h.course hok hrun
  have hpar := hcourse.parallel sameNames (sameNames_fits _ _)
  refine ⟨?_, ?_, ?_, ?_, hpar.left, hhandling.connections, ?_⟩
  . exact fun x hx => hpar.clients.left x hx
  . intro player hplayer
    rcases h.players hok hrun with ⟨result, ⟨op, hgrants, hconcludes⟩, heq⟩ | ⟨-, heq⟩
    . have hne : ¬ (player = result.player1 ∨ player = result.player2) := by
        intro hor
        obtain ⟨x, hx, hof⟩ := hconcludes.ofPlayer player hor
        rw [← hgrants.asks] at hx
        exact hplayer x hx hof
      obtain ⟨hne1, hne2⟩ := not_or.mp hne
      rw [heq, Store.get?_post_of_ne hne1 hne2]
    . rw [heq]
  . intro inv hlt hne
    apply hpar.invitations.left
    rintro (hnamed | ⟨-, rfl⟩)
    . exact hne hnamed
    . exact absurd hlt (Nat.lt_irrefl _)
  . intro game hlt hne
    apply hpar.games.left
    rintro (⟨inv, i, hnamed, hi, hown⟩ | ⟨-, rfl⟩)
    . exact hne inv i hnamed hi hown
    . exact absurd hlt (Nat.lt_irrefl _)
  . obtain ⟨packets, hsent, -, hreceivers⟩ := hcourse.told
    exact ⟨packets, hsent, hreceivers⟩

/-! ## Both -/

def exchanged (s s₁ s₂ : Store) : Renaming where
  invitation :=
    if s₁.invitations.next ≠ s.invitations.next ∧ s₂.invitations.next ≠ s.invitations.next then
       Equiv.swap s.invitations.next (s.invitations.next + 1) else id
  game := if s₁.games.next ≠ s.games.next ∧ s₂.games.next ≠ s.games.next
    then Equiv.swap s.games.next (s.games.next + 1) else id
  invitation_involutive := by
    intro u
    split
    . exact Equiv.swap_apply_self _ _ _
    . rfl
  game_involutive := by
    intro u
    split
    . exact Equiv.swap_apply_self _ _ _
    . rfl

section Exchanged

variable {n n₁ n₂ u : Nat}

theorem exchange_lt (hlt : u < n)
    : (if n₁ ≠ n ∧ n₂ ≠ n then Equiv.swap n (n + 1) else id : Nat → Nat) u = u := by
  split
  . exact Equiv.swap_apply_of_ne_of_ne (by omega) (by omega)
  . rfl

theorem exchange_left (h₂ : n₂ = n ∨ n₂ = n + 1) (hnew : n₁ ≠ n)
    : (if n₁ ≠ n ∧ n₂ ≠ n then Equiv.swap n (n + 1) else id : Nat → Nat) n = n₂ := by
  split
  . next h =>
    rw [Equiv.swap_apply_left]
    omega
  . next h =>
    show n = n₂
    omega

end Exchanged

def Disjoint (σ : Server) (a b : ClientRequest) : Prop :=
  ∀ x ∈ σ.participants a, x ∉ σ.participants b

theorem Disjoint.symm (h : σ.Disjoint a b) : σ.Disjoint b a := fun x hx hxa => h x hxa hx

section Named

variable {inv inv' : InvitationPtr}

theorem named?_live (hok : σ.Ok) (hnamed : σ.world.store.named? q.client (σ.asks q) = some inv)
    : ∃ i, σ.world.store.invitations.get? inv = some i
        ∧ (i.source = q.client ∨ i.target = q.client) := by
  obtain ⟨id, -, hid⟩ := Option.bind_eq_some_iff.mp hnamed
  obtain ⟨-, i, -, -, hi, hor⟩ := hok.steady.valid.invitationOf hid
  exact ⟨i, hi, hor⟩

theorem Disjoint.named (h : σ.Disjoint a b) (hok : σ.Ok)
    (ha : σ.world.store.named? a.client (σ.asks a) = some inv)
    (hb : σ.world.store.named? b.client (σ.asks b) = some inv') : inv ≠ inv' := by
  rintro rfl
  obtain ⟨i, hi, -⟩ := named?_live hok ha
  apply h i.source
  . exact mem_participants_source ha hi
  . exact mem_participants_source hb hi

theorem registered_of_active {i : Invitation} (hok : σ.Ok)
    (hnamed : σ.world.store.named? q.client (σ.asks q) = some inv)
    (hi : σ.world.store.invitations.get? inv = some i) (hactive : i.Active)
    (hx : x ∈ σ.participants q) : 0 < σ.world.store.registered x := by
  have hor : i.source = x ∨ i.target = x := by
    obtain ⟨i', hi', hclient⟩ := named?_live hok hnamed
    obtain rfl := Option.some.inj (hi.symm.trans hi')
    unfold participants at hx
    rw [Store.participants_named hnamed hi] at hx
    simp only [List.mem_cons, List.not_mem_nil, or_false] at hx
    rcases hx with rfl | rfl | rfl
    . exact hclient
    . exact .inl rfl
    . exact .inr rfl
  obtain ⟨c, hc, -, hin, -⟩ :=
    hok.steady.settled.participant hok.steady.valid hi hactive hor
  exact (hok.steady.valid.client x c hc).held hin

end Named

theorem Disjoint.players (h : σ.Disjoint a b) (hok : σ.Ok) (hapart : σ.world.store.Apart)
    (hclash : ¬ σ.Clash a b) (ha : σ.Concludes a result) (hb : σ.Concludes b result')
    (hplayer : player = result.player1 ∨ player = result.player2)
    : ¬ (player = result'.player1 ∨ player = result'.player2) := by
  intro hplayer'
  obtain ⟨op, hgrants, hconcludes⟩ := ha
  obtain ⟨op', hgrants', hconcludes'⟩ := hb
  obtain ⟨x, hx, hofx⟩ := hconcludes.ofPlayer player hplayer
  obtain ⟨y, hy, hofy⟩ := hconcludes'.ofPlayer player hplayer'
  have hactive := hconcludes.active hok.steady.valid
  have hactive' := hconcludes'.active hok.steady.valid
  rw [← hgrants.asks] at hx hactive
  rw [← hgrants'.asks] at hy hactive'
  have hno : ¬ (σ.world.store.MovesClosed a.client (σ.asks a)
      ∨ σ.world.store.MovesClosed b.client (σ.asks b)) :=
    fun hor => hclash ⟨⟨x, hx, y, hy, player, hofx, hofy⟩, hor⟩
  obtain ⟨inv, i, hnamed, hi, hin⟩ := hactive.resolve_right fun hm => hno (.inl hm)
  obtain ⟨inv', i', hnamed', hi', hin'⟩ := hactive'.resolve_right fun hm => hno (.inr hm)
  have hsame := hapart x y player (registered_of_active hok hnamed hi hin hx)
    (registered_of_active hok hnamed' hi' hin' hy) hofx hofy
  exact h x hx (hsame ▸ hy)

structure Side (σ : Server) (a b : ClientRequest) (τa τb τba : Server) : Prop where
  run : σ.handle a = .ok τa
  runAfter : τb.handle a = .ok τba
  first : σ.Handling a τa
  second : τb.Handling a τba
  concludes : ∀ result, τb.Concludes a result ↔ σ.Concludes a result
  course : SameCourse a.client (σ.asks a) σ.world τb.world τa.world τba.world

section Diamond

variable {τa τb τab τba : Server} {ρ : Renaming}

theorem Side.fits (h' : σ.Side b a τb τa τab)
    : (exchanged σ.world.store τa.world.store τb.world.store).Fits σ.world.store τa.world.store
        τb.world.store where
  invitation := fun _ hlt => exchange_lt hlt
  game := fun _ hlt => exchange_lt hlt
  newInvitation := fun hnew => exchange_left h'.first.operates.invitations_next hnew
  newGame := fun hnew => exchange_left h'.first.operates.games_next hnew

theorem Disjoint.sentTo (hdisjoint : σ.Disjoint a b) (h : σ.Side a b τa τb τba)
    (h' : σ.Side b a τb τa τab) (x : ClientPtr) : τba.sentTo x = τab.sentTo x := by
  obtain ⟨packets, hτa, hτba, hreceivers⟩ := h.course.told
  obtain ⟨packets', hτb, hτab, hreceivers'⟩ := h'.course.told
  have hnone : ∀ packets : List SentPacket, (∀ packet ∈ packets, packet.receiver ≠ x) →
      packets.filter (fun packet => packet.receiver = x) = [] := by
    intro packets hne
    rw [List.filter_eq_nil_iff]
    intro packet hmem
    simpa using hne packet hmem
  unfold Server.sentTo
  rw [hτba, hτb, hτab, hτa]
  simp only [List.filter_append]
  by_cases hx : x ∈ σ.participants a
  . have hempty := hnone packets' fun packet hmem heq =>
      hdisjoint x hx (heq ▸ hreceivers' packet hmem)
    simp [hempty]
  . have hempty := hnone packets fun packet hmem heq => hx (heq ▸ hreceivers packet hmem)
    simp [hempty]

theorem Side.players_both (h : σ.Side a b τa τb τba) (h' : σ.Side b a τb τa τab)
    (ha : σ.Receives a) (hb : σ.Receives b) (hok : σ.Ok) (hca : σ.Concludes a result)
    (hcb : σ.Concludes b result')
    : τba.world.store.players
        =
      ((σ.world.store.post b.answers.expected result').post a.answers.expected result).players := by
  have hreceives := ha.transfer h'.first.connections
  rw [hreceives.players_of_concludes h'.first.ok h.runAfter ((h.concludes _).mpr hca)]
  exact Store.post_players_congr (hb.players_of_concludes hok h'.run hcb)

/--
If only one of the two ends a game, it is the same result whenever it is posted.
-/
theorem Side.players_one (h : σ.Side a b τa τb τba) (h' : σ.Side b a τb τa τab)
    (ha : σ.Receives a) (hb : σ.Receives b) (hok : σ.Ok) (hnone : ∀ result, ¬ σ.Concludes b result)
    : τba.world.store.players = τab.world.store.players := by
  have hreceives := ha.transfer h'.first.connections
  have hreceives' := hb.transfer h.first.connections
  have hτb := hb.players_of_not_concludes hok h'.run hnone
  have hτab := hreceives'.players_of_not_concludes h.first.ok h'.runAfter
    fun result hc => hnone result ((h'.concludes result).mp hc)
  rw [hτab]
  by_cases hca : ∃ result, σ.Concludes a result
  . obtain ⟨result, hca⟩ := hca
    rw [hreceives.players_of_concludes h'.first.ok h.runAfter ((h.concludes _).mpr hca),
      ha.players_of_concludes hok h.run hca]
    exact Store.post_players_congr hτb
  . have hno := not_exists.mp hca
    rw [hreceives.players_of_not_concludes h'.first.ok h.runAfter
        fun result hc => hno result ((h.concludes result).mp hc),
      ha.players_of_not_concludes hok h.run hno, hτb]

theorem Side.players (h : σ.Side a b τa τb τba) (h' : σ.Side b a τb τa τab)
    (ha : σ.Receives a) (hb : σ.Receives b) (hok : σ.Ok) (hcommute : σ.RatingsCommute a b)
    (player : PlayerPtr)
    : τba.world.store.players.get? player = τab.world.store.players.get? player := by
  by_cases hcb : ∃ result', σ.Concludes b result'
  . obtain ⟨result', hcb⟩ := hcb
    by_cases hca : ∃ result, σ.Concludes a result
    . obtain ⟨result, hca⟩ := hca
      rw [h.players_both h' ha hb hok hca hcb, h'.players_both h hb ha hok hcb hca]
      exact (hcommute result result' hca hcb player).symm
    . rw [h'.players_one h hb ha hok (not_exists.mp hca)]
  . rw [h.players_one h' ha hb hok (not_exists.mp hcb)]

end Diamond

theorem fits_C : ([67] : List Byte).length < 65536 := by decide

theorem fits_D : ([68] : List Byte).length < 65536 := by decide

def fourPlayers : List Event :=
  [.connect 4, .connect 5, .connect 6, .connect 7,
    .packet 0 (request .login 0 .nullRole [65] fits_A),
    .packet 1 (request .login 0 .nullRole [66] fits_B),
    .packet 2 (request .login 0 .nullRole [67] fits_C),
    .packet 3 (request .login 0 .nullRole [68] fits_D)]

def twoGames : List Event :=
  fourPlayers ++ [.packet 0 (request .invite 0 .firstPlayerRole [66] fits_B),
    .packet 2 (request .invite 0 .firstPlayerRole [68] fits_D),
    .packet 1 (request .accept 0 .nullRole [] fits_nil),
    .packet 3 (request .accept 0 .nullRole [] fits_nil)]

end Server

end Jeux
