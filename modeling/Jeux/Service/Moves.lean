import Jeux.Game.Rules
import Jeux.Service.Invitations

/-!
`client_make_move` from end to end: which moves are made, and what a move that is made does.
-/

namespace Jeux

open ServerM

variable {env : Env} {w w' : World} {client : ClientPtr} {c : Client} {σ : Server} {id : Byte}
  {text : CString} {inv : InvitationPtr} {i : Invitation} {game : GamePtr} {g : Game}
  {move : GameMove} {r : Int} {extra : ClientPtr → Nat}

/-! ## What is asked for and what is done -/

structure Store.Plays (s : Store) (client : ClientPtr) (id : Byte) (text : CString)
    (inv : InvitationPtr) (i : Invitation) (game : GamePtr) (g : Game) (move : GameMove)
    : Prop where
  named : s.invitationOf client id.toNat = some inv
  invitation : s.invitations.get? inv = some i
  accepted : i.state = .acceptedState
  owned : i.game = some game
  board : s.games.get? game = some g
  parsed : gameParseMove g (i.roleOf client) text = some move
  turn : g.currentPlayer = i.roleOf client
  empty : getElem g.rows move.move move.lt = .nullRole

structure Notice where
  receiver : ClientPtr
  type : Byte
  id : Byte
  role : Byte
  data : Option CString
  deriving DecidableEq

def SentPacket.notice (packet : SentPacket) : Notice where
  receiver := packet.receiver
  type := packet.hdr.type
  id := packet.hdr.id
  role := packet.hdr.role
  data := packet.data.map (·.take packet.hdr.size.toNat)

/--
The packets about a move: the opponent is shown the board, and when the game is over both players
are told who has won, each under its own id.
-/
def moveNotices (s : Store) (client : ClientPtr) (id : Byte) (inv : InvitationPtr) (i : Invitation)
    (g : Game) : List Notice :=
  let opponent := i.opponentOf client
  let opponentId := UInt8.ofInt (s.idOf opponent inv)
  ⟨opponent, PacketType.moved.toByte, opponentId, GameRole.nullRole.toByte,
    some (gameUnparseState g)⟩ ::
  if g.isOver then
    [⟨opponent, PacketType.ended.toByte, opponentId, g.winner.toByte, none⟩,
      ⟨client, PacketType.ended.toByte, id, g.winner.toByte, none⟩]
  else
    []

def Store.listOf (s : Store) (client : ClientPtr) : Option (List InvitationNode) :=
  (s.clients.get? client).map (·.inviteHead)

structure GoesOn (w : World) (game : GamePtr) (g : Game) (w' : World) : Prop where
  board : w'.store.games.get? game = some g
  clients : w'.store.clients = w.store.clients
  invitations : w'.store.invitations = w.store.invitations
  players : w'.store.players = w.store.players
  posted : w'.trace.posted = w.trace.posted

structure Ends (env : Env) (w : World) (client : ClientPtr) (inv : InvitationPtr) (i : Invitation)
    (g : Game) (w' : World) : Prop where
  posted : ∃ player opponent, w.store.playerOf client = some player
    ∧ w.store.playerOf (i.opponentOf client) = some opponent
    ∧ w'.trace.posted = w.trace.posted ++ [resultOf (i.roleOf client) player opponent g.winner]
    ∧ w'.store.players = (w.store.post env.expected
        (resultOf (i.roleOf client) player opponent g.winner)).players
  lists : ∀ x, w'.store.listOf x
    = (w.store.listOf x).map fun nodes => nodes.filter fun node => node.invitation ≠ inv
  gone : w'.store.invitations.get? inv = none
  others : ∀ inv', inv' ≠ inv → w'.store.invitations.get? inv' = w.store.invitations.get? inv'

structure MoveMade (env : Env) (w : World) (client : ClientPtr) (id : Byte) (inv : InvitationPtr)
    (i : Invitation) (game : GamePtr) (g : Game) (move : GameMove) (w' : World) : Prop where
  square : (gameApplyMove g move).2.rows = g.rows.set move.move.val (i.roleOf client) move.lt
  turn : (gameApplyMove g move).2.currentPlayer = i.roleOf (i.opponentOf client)
  games : ∀ game', game' ≠ game → w'.store.games.get? game' = w.store.games.get? game'
  sent : ∃ packets, w'.trace.sent = w.trace.sent ++ packets
    ∧ packets.map SentPacket.notice = moveNotices w.store client id inv i (gameApplyMove g move).2
  goesOn : (gameApplyMove g move).2.isOver = false → GoesOn w game (gameApplyMove g move).2 w'
  ends : (gameApplyMove g move).2.isOver = true →
    Ends env w client inv i (gameApplyMove g move).2 w'

/-! ## Which moves are made -/

theorem gameParseMove_role {role : GameRole} (h : gameParseMove g role text = some move)
    : move.role = role := by
  have hto : ∀ str, moveTo? role str = some move → move.role = role := by
    intro str hmove
    unfold moveTo? at hmove
    dsimp only at hmove
    split at hmove
    . simp at hmove
    . rw [← Option.some.inj hmove]
  unfold gameParseMove at h
  split at h
  . exact hto _ h
  . split at h
    . simp at h
    . split at h
      . simp at h
      . split at h
        . simp at h
        . exact hto _ h
  . simp at h

theorem legalMove?_iff {role : GameRole}
    : legalMove? g role text = some move
        ↔
      gameParseMove g role text = some move ∧ g.currentPlayer = role
        ∧ getElem g.rows move.move move.lt = .nullRole := by
  constructor
  . intro h
    have ⟨hparse, hcode⟩ := legalMove?_eq_some h
    have ⟨hturn, hempty⟩ := gameApplyMove_eq_zero.mp hcode
    exact ⟨hparse, hturn.trans (gameParseMove_role hparse), hempty⟩
  . rintro ⟨hparse, hturn, hempty⟩
    have hcode := gameApplyMove_eq_zero.mpr ⟨hturn.trans (gameParseMove_role hparse).symm, hempty⟩
    simp [legalMove?, hparse, hcode]

theorem Store.Plays.legal {s : Store} (h : s.Plays client id text inv i game g move)
    : s.Move client id.toNat text inv i game g move where
  named := h.named
  invitation := h.invitation
  owned := h.owned
  board := h.board
  legal := legalMove?_iff.mpr ⟨h.parsed, h.turn, h.empty⟩

theorem Store.Move.plays {s : Store} (h : s.Move client id.toNat text inv i game g move)
    (hon : s.GamesOn) : s.Plays client id text inv i game g move where
  named := h.named
  invitation := h.invitation
  accepted := (hon inv i h.invitation g (by simp [gameOf, h.owned, h.board])).1
  owned := h.owned
  board := h.board
  parsed := (legalMove?_iff.mp h.legal).1
  turn := (legalMove?_iff.mp h.legal).2.1
  empty := (legalMove?_iff.mp h.legal).2.2

/-! ## What they do -/

theorem Store.InvitationOk.next_role {s : Store} (h : s.InvitationOk inv i)
    (hor : i.source = client ∨ i.target = client)
    : (if i.roleOf client = .firstPlayerRole then GameRole.secondPlayerRole else .firstPlayerRole)
        =
      i.roleOf (i.opponentOf client) := by
  have hdistinct := h.distinct
  unfold Invitation.roleOf
  rcases opponentOf_ends hor with ⟨hs, ht⟩ | ⟨hs, ht⟩
  . have hne : ¬ i.source = i.opponentOf client := ht ▸ hdistinct
    rw [if_pos hs, if_neg hne]
    rcases h.roles with ⟨hr, hr'⟩ | ⟨hr, hr'⟩ <;> simp [hr, hr']
  . have hne : ¬ i.source = client := ht ▸ hdistinct
    rw [if_neg hne, if_pos hs]
    rcases h.roles with ⟨hr, hr'⟩ | ⟨hr, hr'⟩ <;> simp [hr, hr']

theorem Store.Plays.applied {s : Store} (h : s.Plays client id text inv i game g move)
    : (gameApplyMove g move).2 = (gameIsOver (g.played move)).2 := by
  rw [gameApplyMove_accepted ⟨h.turn.trans (gameParseMove_role h.parsed).symm, h.empty⟩]

theorem Store.Plays.square {s : Store} (h : s.Plays client id text inv i game g move)
    : (gameApplyMove g move).2.rows = g.rows.set move.move.val (i.roleOf client) move.lt := by
  rw [h.applied, (gameIsOver_keeps _).1, Game.played_rows, gameParseMove_role h.parsed]

theorem Store.Plays.next_turn {s : Store} (h : s.Plays client id text inv i game g move)
    (hv : s.Valid extra) : (gameApplyMove g move).2.currentPlayer = i.roleOf (i.opponentOf client) := by
  obtain ⟨-, i', -, -, hi', hor⟩ := hv.invitationOf h.named
  obtain rfl := Option.some.inj (h.invitation.symm.trans hi')
  rw [h.applied, (gameIsOver_keeps _).2.1, Game.played_currentPlayer, h.turn]
  exact (hv.invitation inv i h.invitation).next_role hor

theorem byte_of_toNat (id : Byte) : UInt8.ofInt (id.toNat : Int) = id := by
  have := id.toNat_lt
  apply UInt8.toNat_inj.mp
  simp only [UInt8.ofInt, UInt8.toNat_ofNat']
  omega

theorem eraseP_eq_filter {nodes : List InvitationNode}
    (h : (nodes.map (·.invitation)).Nodup)
    : nodes.eraseP (·.invitation = inv) = nodes.filter (·.invitation ≠ inv) := by
  induction nodes with
  | nil => rfl
  | cons node nodes ih =>
    rw [List.map_cons, List.nodup_cons] at h
    rw [List.eraseP_cons, List.filter_cons]
    by_cases heq : node.invitation = inv
    . have hrest : nodes.filter (·.invitation ≠ inv) = nodes := by
        apply List.filter_eq_self.mpr
        intro node' hmem
        have : node'.invitation ≠ inv := by
          rintro rfl
          exact h.1 (heq ▸ List.mem_map_of_mem hmem)
        simpa using this
      simp only [heq, decide_true, cond_true, not_true, decide_false, Bool.false_eq_true,
        ↓reduceIte, ne_eq]
      exact hrest.symm
    . simp only [heq, decide_false, cond_false, ne_eq, not_false_eq_true, decide_true, ↓reduceIte]
      rw [ih h.2]

theorem Store.Valid.listOf_unlink {s : Store} (hv : s.Valid extra)
    (hi : s.invitations.get? inv = some i) (hor : i.source = client ∨ i.target = client)
    (x : ClientPtr)
    : (s.clients.get? x).map (fun c =>
          if x = client ∨ x = i.opponentOf client then (c.unlink inv).inviteHead else c.inviteHead)
        =
      (s.listOf x).map fun nodes => nodes.filter fun node => node.invitation ≠ inv := by
  unfold listOf
  rw [Option.map_map]
  cases hc : s.clients.get? x with
  | none => rfl
  | some c =>
    have hok := hv.client x c hc
    rw [Option.map_some, Option.map_some, Option.some.injEq, Function.comp_apply,
      ← eraseP_eq_filter hok.nodup]
    split
    . exact Client.unlink_inviteHead
    . next hother =>
      have hnot : inv ∉ c.invitations := by
        intro hmem
        obtain ⟨i', hi', hends⟩ := hok.mine inv hmem
        obtain rfl := Option.some.inj (hi.symm.trans hi')
        apply hother
        rcases opponentOf_ends hor with ⟨hs, ht⟩ | ⟨hs, ht⟩
        . exact hends.imp (fun h => h.symm.trans hs) (fun h => h.symm.trans ht)
        . exact hends.symm.imp (fun h => h.symm.trans ht) (fun h => h.symm.trans hs)
      rw [← Client.unlink_inviteHead, Client.unlink_of_not_mem hnot]

theorem World.conclude_ends {player playero : PlayerPtr} {trace : Trace}
    (hplays : w.store.Plays client id text inv i game g move) (hv : w.store.Valid extra)
    (hl : w.store.Linked) (hplayer : w.store.playerOf client = some player)
    (hplayero : w.store.playerOf (i.opponentOf client) = some playero)
    (hposted : trace.posted = w.trace.posted)
    : Ends env w client inv i (gameApplyMove g move).2
        (World.conclude { store := w.store.play game move, trace := trace } env client
          (i.opponentOf client) inv
          (resultOf (i.roleOf client) player playero (gameApplyMove g move).2.winner)) := by
  obtain ⟨-, i', -, -, hi', hor⟩ := hv.invitationOf hplays.named
  obtain rfl := Option.some.inj (hplays.invitation.symm.trans hi')
  have hshared := ((hplays.legal.shared hv hl).play game move).post env.expected
    (resultOf (i.roleOf client) player playero (gameApplyMove g move).2.winner)
  have hplayers : ((w.store.play game move).post env.expected
      (resultOf (i.roleOf client) player playero (gameApplyMove g move).2.winner)).players
        = (w.store.post env.expected
          (resultOf (i.roleOf client) player playero (gameApplyMove g move).2.winner)).players := by
    unfold Store.post
    rw [Store.play_players]
    split
    . rfl
    . split <;> rfl
  constructor
  . refine ⟨player, playero, hplayer, hplayero, ?_, ?_⟩
    . simp only [World.conclude, hposted]
    . simp only [World.conclude]
      rw [Store.dissolve_players, hplayers]
  . intro x
    rw [← hv.listOf_unlink hplays.invitation hor x]
    simp only [World.conclude, Store.listOf]
    rw [Store.get?_dissolve_clients hshared.invitation hshared.refCount hshared.distinct hshared.ends,
      Store.post_clients, Store.play_clients, Option.map_map]
    congr 1
    funext c
    rw [Function.comp_apply]
    split <;> rfl
  . exact hshared.gone
  . intro inv' hne
    simp only [World.conclude]
    rw [Store.get?_dissolve_invitations hshared.invitation hshared.refCount, if_neg hne,
      Store.post_invitations, Store.play_invitations]

theorem World.moved_goesOn (hg : w.store.games.get? game = some g)
    : GoesOn w game (gameApplyMove g move).2 (w.moved env (i.opponentOf client) inv game g move) where
  board := by simp [World.moved, hg]
  clients := rfl
  invitations := rfl
  players := rfl
  posted := rfl

theorem moved_notice (g : Game) (opponent : ClientPtr) (opponentId : Int) (clock : UInt32 × UInt32)
    (written : Bool)
    : SentPacket.notice ⟨opponent, createHeader clock .moved opponentId .nullRole 40,
          some (gameUnparseState g), written⟩
        =
      ⟨opponent, PacketType.moved.toByte, UInt8.ofInt opponentId, GameRole.nullRole.toByte,
        some (gameUnparseState g)⟩ := by
  have htake : (gameUnparseState g).take 40 = gameUnparseState g :=
    List.take_of_length_le (by rw [gameUnparseState_length])
  simp only [SentPacket.notice, createHeader, Option.map_some]
  exact congrArg _ (congrArg some htake)

theorem Store.Plays.moved_made (hplays : w.store.Plays client id text inv i game g move)
    (hv : w.store.Valid extra) (hover : (gameApplyMove g move).2.isOver = false)
    : MoveMade env w client id inv i game g move (w.moved env (i.opponentOf client) inv game g move)
    where
  square := hplays.square
  turn := hplays.next_turn hv
  games := fun game' hne => Heap.get?_modify_ne hne
  sent := by
    refine ⟨_, rfl, ?_⟩
    rw [List.map_singleton, moved_notice]
    unfold moveNotices
    rw [hover]
    rfl
  goesOn := fun _ => World.moved_goesOn hplays.board
  ends := by
    intro hended
    simp [hover] at hended

theorem Store.Plays.finished_made {player playero : PlayerPtr}
    (hplays : w.store.Plays client id text inv i game g move) (hv : w.store.Valid extra)
    (hl : w.store.Linked) (hover : (gameApplyMove g move).2.isOver = true)
    (hplayer : w.store.playerOf client = some player)
    (hplayero : w.store.playerOf (i.opponentOf client) = some playero)
    : MoveMade env w client id inv i game g move (World.conclude
        (endedTwice env client (i.opponentOf client) inv id.toNat (gameApplyMove g move).2.winner
          (w.moved env (i.opponentOf client) inv game g move))
        env client (i.opponentOf client) inv
        (resultOf (i.roleOf client) player playero (gameApplyMove g move).2.winner)) where
  square := hplays.square
  turn := hplays.next_turn hv
  games := by
    intro game' hne
    have hshared := ((hplays.legal.shared hv hl).play game move).post env.expected
      (resultOf (i.roleOf client) player playero (gameApplyMove g move).2.winner)
    simp only [World.conclude, endedTwice, endedOnce, World.ended, World.moved]
    rw [Store.dissolve_eq hshared.invitation hshared.refCount]
    unfold Store.release
    simp only [hplays.owned, Store.unlink_games, Store.post_games, Store.play_games]
    rw [Heap.get?_free, if_neg hne, Heap.get?_modify_ne hne, Heap.get?_modify_ne hne]
  sent := by
    refine ⟨_, (List.append_assoc ..).trans (List.append_assoc ..), ?_⟩
    rw [List.map_append, List.map_singleton, moved_notice]
    unfold moveNotices
    rw [hover]
    simp only [endedOnce, World.ended, endedPacket, SentPacket.notice, createHeader, List.map_append,
      List.map_singleton, byte_of_toNat]
    rfl
  goesOn := by
    intro hon
    simp [hover] at hon
  ends := fun _ => World.conclude_ends hplays hv hl hplayer hplayero rfl

theorem Store.Plays.made (hplays : w.store.Plays client id text inv i game g move)
    (hsends : ∀ n, env.sendOk n = true) (halloc : env.allocOk w.trace.allocs = true)
    (hv : w.store.Valid fun _ => 0) (hs : w.store.Settled)
    : ∃ w', (clientMakeMove client id.toNat text).run env w = .ok (0, w')
        ∧ MoveMade env w client id inv i game g move w' := by
  obtain ⟨c, i', hc, -, hi', hor⟩ := hv.invitationOf hplays.named
  obtain rfl := Option.some.inj (hplays.invitation.symm.trans hi')
  have hactive : i.Active := .inr ⟨hplays.accepted, by simp [hplays.owned]⟩
  have hin := hs.online inv i hplays.invitation hactive client c hor hc
  have hheld := (hv.client client c hc).held hin
  have hmove := hplays.legal
  have hout := Operation.outcome_move env id.toNat text hv hs.linked hheld
  generalize (clientMakeMove client id.toNat text).run env w = x at hout
  cases hout with
  | orphaned horphan => exact absurd horphan (hs.not_orphan hv _)
  | stranded hop hmove' hco hone =>
    obtain ⟨-, rfl⟩ := Operation.move.inj hop
    obtain ⟨rfl, rfl, rfl, rfl, rfl⟩ := hmove.unique hmove'
    obtain ⟨co, hco', -, -, -, hkeep⟩ :=
      hs.participant hv hmove'.invitation hactive (opponentOf_or hor)
    obtain rfl := Option.some.inj (hco.symm.trans hco')
    exact absurd hone hkeep
  | returns hreturned =>
    cases hreturned.effect with
    | refused _ _ hno => exact absurd ⟨halloc, inv, i, game, g, move, hmove⟩ hno
    | moveUnsent _ hsend => simp [hsends] at hsend
    | moved hmove' hsend hover =>
      obtain ⟨rfl, rfl, rfl, rfl, rfl⟩ := hmove.unique hmove'
      exact ⟨_, rfl, hplays.moved_made hv hover⟩
    | endUnsent _ _ _ hsend => simp [hsends] at hsend
    | endUnsentSelf _ _ _ _ hsend => simp [hsends] at hsend
    | finished hmove' hc' hco hplayer hplayero _ hover =>
      obtain ⟨rfl, rfl, rfl, rfl, rfl⟩ := hmove.unique hmove'
      exact ⟨_, rfl, hplays.finished_made hv hs.linked hover (by simp [Store.playerOf, hc', hplayer])
        (by simp [Store.playerOf, hco, hplayero])⟩

/-! ## The specification -/

/--
`client_make_move` does what its comment says: it makes exactly the moves that can be made, and
otherwise it does nothing.
-/
structure MakesMoves (env : Env) (w : World) (client : ClientPtr) (id : Byte) (text : CString)
    (r : Int) (w' : World) : Prop where
  code : r = 0 ∨ r = -1
  zero_iff : r = 0 ↔ env.allocOk w.trace.allocs = true
    ∧ ∃ inv i game g move, w.store.Plays client id text inv i game g move
  made : r = 0 → ∃ inv i game g move, w.store.Plays client id text inv i game g move
    ∧ MoveMade env w client id inv i game g move w'
  nothing : r = -1 → ∃ n, w' = { w with trace.allocs := n }

/--
Whatever has happened before, as long as all packets could be sent.
-/
theorem makesMoves_of_reachable (hsends : ∀ n, env.sendOk n = true) (h : Server.Reachable env σ)
    (hc : σ.world.store.clients.get? client = some c) (id : Byte) (text : CString)
    : ∃ r w', (clientMakeMove client id.toNat text).run env σ.world = .ok (r, w')
        ∧ MakesMoves env σ.world client id text r w' := by
  obtain ⟨hok, hon⟩ := Server.gamesOn_of_reach hsends h
  by_cases hplays : env.allocOk σ.world.trace.allocs = true
      ∧ ∃ inv i game g move, σ.world.store.Plays client id text inv i game g move
  . obtain ⟨halloc, inv, i, game, g, move, hplay⟩ := hplays
    obtain ⟨w', hrun, hmade⟩ := hplay.made hsends halloc hok.steady.valid hok.steady.settled
    refine ⟨0, w', hrun, .inl rfl, ?_, ?_, ?_⟩
    . exact iff_of_true rfl ⟨halloc, inv, i, game, g, move, hplay⟩
    . exact fun _ => ⟨inv, i, game, g, move, hplay, hmade⟩
    . intro hcode
      exact absurd hcode (by decide)
  . obtain ⟨n, hrun⟩ := clientMakeMove_run_refused env id.toNat text hok.steady.valid hc
      (fun halloc inv i game g move hmove =>
        hplays ⟨halloc, inv, i, game, g, move, hmove.plays hon⟩)
    refine ⟨-1, _, hrun, .inr rfl, ?_, ?_, fun _ => ⟨n, rfl⟩⟩
    . exact iff_of_false (by decide) hplays
    . intro hcode
      exact absurd hcode (by decide)

def Server.moves (σ : Server) (client : ClientPtr) (id : Nat) (text : CString) (P : World → Bool)
    : Bool :=
  (σ.world.store.clients.get? client).isSome
    && match (clientMakeMove client id text).run calmEnv σ.world with
      | .ok (0, w') => P w'
      | _ => false

theorem Server.exists_of_moves {id : Nat} {text : CString} {P : World → Bool}
    (h : σ.moves client id text P = true)
    : ∃ c w', σ.world.store.clients.get? client = some c
      ∧ (clientMakeMove client id text).run calmEnv σ.world = .ok (0, w') ∧ P w' = true := by
  unfold moves at h
  rw [Bool.and_eq_true] at h
  obtain ⟨hlive, hmoves⟩ := h
  obtain ⟨c, hc⟩ := Option.isSome_iff_exists.mp hlive
  split at hmoves
  . next w' hrun => exact ⟨c, w', hc, hrun, hmoves⟩
  . simp at hmoves

/--
`B`, who has the first move, marks the first square. Some moves later `B` completes a line, and wins.
-/
theorem makesMoves_of_first_and_last_move
    : (∃ σ w', Server.Reachable calmEnv σ
        ∧ (clientMakeMove 1 (0 : Byte).toNat [ascii '1']).run calmEnv σ.world = .ok (0, w')
        ∧ (w'.store.games.get? 0).isSome = true
        ∧ MakesMoves calmEnv σ.world 1 0 [ascii '1'] 0 w')
      ∧ ∃ σ w', Server.Reachable calmEnv σ
        ∧ (clientMakeMove 1 (0 : Byte).toNat [ascii '9']).run calmEnv σ.world = .ok (0, w')
        ∧ (w'.store.games.get? 0 = none
          ∧ w'.trace.posted.map (·.result) = [.firstPlayerRole])
        ∧ MakesMoves calmEnv σ.world 1 0 [ascii '9'] 0 w' := by
  constructor
  . obtain ⟨σ, hreach, hmoves⟩ := Machine.Reach.of_any_run (Server.machine calmEnv)
      (fun _ _ => True) initialServer acceptedEvents
      (fun σ => σ.moves 1 0 [ascii '1'] fun w' => (w'.store.games.get? 0).isSome)
      (by decide +kernel)
    obtain ⟨c, w', hc, hrun, hlive⟩ := Server.exists_of_moves hmoves
    obtain ⟨r, w'', hrun', hmakes⟩ := makesMoves_of_reachable (fun _ => rfl) hreach hc 0 [ascii '1']
    obtain ⟨rfl, rfl⟩ : 0 = r ∧ w' = w'' := by simpa using hrun.symm.trans hrun'
    exact ⟨σ, w', hreach, hrun, hlive, hmakes⟩
  . obtain ⟨σ, hreach, hmoves⟩ := Machine.Reach.of_any_run (Server.machine calmEnv)
      (fun _ _ => True) initialServer aboutToWinEvents
      (fun σ => σ.moves 1 0 [ascii '9'] fun w' => decide (w'.store.games.get? 0 = none
        ∧ w'.trace.posted.map (·.result) = [.firstPlayerRole])) (by decide +kernel)
    obtain ⟨c, w', hc, hrun, hwon⟩ := Server.exists_of_moves hmoves
    obtain ⟨r, w'', hrun', hmakes⟩ := makesMoves_of_reachable (fun _ => rfl) hreach hc 0 [ascii '9']
    obtain ⟨rfl, rfl⟩ : 0 = r ∧ w' = w'' := by simpa using hrun.symm.trans hrun'
    exact ⟨σ, w', hreach, hrun, of_decide_eq_true hwon, hmakes⟩

end Jeux
