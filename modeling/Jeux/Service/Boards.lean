import Jeux.Service.Moves
import Jeux.Service.PacketIds
import Jeux.Service.Refinement

/-!
What the players get to see of their games. Whoever moves first is shown the board when the
invitation is accepted, in the ACCEPTED packet or in the ACK of its own ACCEPT, and whoever moves
next is shown it in MOVED. It is not shown to anybody again.
-/

namespace Jeux

open ServerM

variable {env : Env} {w w' w₁ : World} {s s' : Store} {client x y : ClientPtr} {c : Client}
  {σ σ' : Server} {e : Event} {op : Operation} {r : Int} {inv : InvitationPtr} {i : Invitation}
  {game : GamePtr} {g : Game} {id : Int} {text : CString} {move : GameMove}
  {extra : ClientPtr → Nat} {nodes : List InvitationNode} {sent : SentPacket} {pkt : Packet}
  {gate gate' : Int} {m m₀ : Lobby.Pairing ClientPtr Game} {state : Option CString}

/-! ## Clients that take notes -/

def Event.accepting? (e : Event) (client : ClientPtr) : Option Byte :=
  match e with
  | .packet x pkt =>
    if x = client ∧ PacketType.ofByte? pkt.hdr.type = some .accept then some pkt.hdr.id else none
  | _ => none

def SentPacket.boardId? (sent : SentPacket) (e : Event) : Option Byte :=
  if sent.hdr.type = PacketType.accepted.toByte ∨ sent.hdr.type = PacketType.moved.toByte then
    some sent.hdr.id
  else if sent.hdr.type = PacketType.ack.toByte then
    e.accepting? sent.receiver
  else
    none

/--
Whatever the operation returns is sent to the client. It is not when `client_accept_invitation` is
called directly.
-/
def Event.IsAnswered : Event → Prop
  | .call _ (.accept _) => False
  | _ => True

instance (e : Event) : Decidable e.IsAnswered := by
  unfold Event.IsAnswered
  split <;> infer_instance

def SentPacket.board? (sent : SentPacket) (e : Event) : Option (ClientPtr × Byte × CString) :=
  (sent.boardId? e).bind fun id => sent.data.map fun text => (sent.receiver, id, text)

def World.boardsSince (w w' : World) (e : Event) : List (ClientPtr × Byte × CString) :=
  (w.sentSince w').filterMap (·.board? e)

abbrev Notes := ClientPtr → Byte → Option CString

def Notes.note (notes : Notes) : ClientPtr × Byte × CString → Notes
  | (client, id, text) => Function.update notes client (Function.update (notes client) id (some text))

structure Watched where
  server : Server
  notes : Notes

namespace Watched

def machine (env : Env) : Machine Watched Event where
  step ν e := (Server.exec env ν.server e).toOption.map fun σ => {
    server := σ
    notes := (ν.server.world.boardsSince σ.world e).foldl Notes.note ν.notes }

def initial : Watched where
  server := initialServer
  notes := fun _ _ => none

end Watched

/-! ## Packets -/

theorem SentPacket.board?_of_data (e : Event) (h : sent.data = none) : sent.board? e = none := by
  unfold SentPacket.board?
  rw [h]
  exact Option.bind_eq_none_iff.mpr fun _ _ => rfl

theorem SentPacket.board?_of_boardId? (h : sent.boardId? e = none) : sent.board? e = none := by
  rw [SentPacket.board?, h, Option.bind_none]

namespace World

theorem boardsSince_of_sent (h : w'.trace.sent = w.trace.sent) : w.boardsSince w' e = [] := by
  simp [boardsSince, sentSince, h]

theorem boardsSince_send (hpre : w.trace.sent <+: w₁.trace.sent)
    (hsent : w'.trace.sent = w₁.trace.sent ++ [sent])
    : w.boardsSince w' e = w.boardsSince w₁ e ++ (sent.board? e).toList := by
  unfold boardsSince sentSince
  rw [hsent, List.drop_append_of_le_length hpre.length_le, List.filterMap_append]
  cases h : sent.board? e <;> simp [h]

theorem boardsSince_trans (hpre : w.trace.sent <+: w₁.trace.sent)
    (hpre' : w₁.trace.sent <+: w'.trace.sent)
    : w.boardsSince w' e = w.boardsSince w₁ e ++ w₁.boardsSince w' e := by
  unfold boardsSince
  rw [← List.filterMap_append]
  congr 1
  obtain ⟨l, hl⟩ := hpre'
  unfold sentSince
  rw [← hl, List.drop_append_of_le_length hpre.length_le, List.drop_left]

theorem boardsSince_nacked (env : Env) (client : ClientPtr)
    (hpre : w.trace.sent <+: w₁.trace.sent)
    : w.boardsSince (w₁.nacked env client) e = w.boardsSince w₁ e := by
  rw [boardsSince_send hpre rfl, SentPacket.board?_of_data e rfl, Option.toList_none,
    List.append_nil]

theorem boardsSince_ended (env : Env) (client : ClientPtr) (hdr : PacketHeader)
    (hpre : w.trace.sent <+: w₁.trace.sent)
    : w.boardsSince (w₁.ended env client hdr) e = w.boardsSince w₁ e := by
  rw [boardsSince_send hpre rfl, SentPacket.board?_of_data e rfl, Option.toList_none,
    List.append_nil]

theorem boardsSince_moved (env : Env) (e : Event) (opponent : ClientPtr) (inv : InvitationPtr)
    (game : GamePtr) (g : Game) (move : GameMove)
    : w.boardsSince (w.moved env opponent inv game g move) e
        =
      [(opponent, UInt8.ofInt (w.store.idOf opponent inv),
        gameUnparseState (gameApplyMove g move).2)] := by
  rw [boardsSince_send List.prefix_rfl rfl, boardsSince_of_sent rfl]
  rfl

theorem boardsSince_acked (env : Env) (client : ClientPtr) (n : Int) (data : Option CString)
    (hpre : w.trace.sent <+: w₁.trace.sent)
    : w.boardsSince (w₁.acked env client n data) e
        =
      w.boardsSince w₁ e ++ ((e.accepting? client).bind fun id =>
        data.map fun text => (client, id, text)).toList := by
  rw [boardsSince_send hpre rfl]
  have hid : ∀ written, SentPacket.boardId?
      { receiver := client, hdr := ackPacket env w₁ n (data.getD []).length, data := data,
        written := written } e = e.accepting? client := by
    intro written
    unfold SentPacket.boardId?
    have htype : (ackPacket env w₁ n (data.getD []).length).type = PacketType.ack.toByte := rfl
    dsimp only
    rw [htype, if_neg (by decide), if_pos rfl]
  rw [SentPacket.board?, hid]

theorem boardsSince_acked_of_quiet (env : Env) (n : Int) {data : Option CString}
    (hpre : w.trace.sent <+: w₁.trace.sent) (hquiet : e.accepting? client = none ∨ data = none)
    : w.boardsSince (w₁.acked env client n data) e = w.boardsSince w₁ e := by
  rw [boardsSince_acked env client n data hpre]
  rcases hquiet with hnone | rfl
  . rw [hnone]
    exact List.append_nil _
  . cases e.accepting? client <;> exact List.append_nil _

theorem boardsSince_answered (env : Env) (r : Int) {data : Option CString}
    (hpre : w.trace.sent <+: w₁.trace.sent) (hquiet : e.accepting? client = none ∨ data = none)
    : w.boardsSince (w₁.answered env client r data) e = w.boardsSince w₁ e := by
  unfold World.answered
  split
  . exact boardsSince_nacked env client hpre
  . exact boardsSince_acked_of_quiet env 0 hpre hquiet

end World

/-! ## What operations show -/

/--
`s.Shows s' boards`: what is shown while `s` becomes `s'`. Boards do not change, or one does and the
one who is to move is shown it.
-/
inductive Store.Shows (s s' : Store) : List (ClientPtr × Byte × CString) → Prop
  | nothing (hkeeps : ∀ inv m g, s'.pairingOf inv = some m → m.position = some g →
      s.pairingOf inv = some m) : Shows s s' []
  | board {inv : InvitationPtr} {m₀ : Lobby.Pairing ClientPtr Game} {y : ClientPtr}
      {text : CString} (hm₀ : s.pairingOf inv = some m₀) (hpart : m₀.TakesPart y)
      (hother : ∀ inv', inv' ≠ inv → s'.pairingOf inv' = s.pairingOf inv')
      (hself : ∀ m g, s'.pairingOf inv = some m → m.position = some g →
        text = gameUnparseState g
          ∧ ∃ seat, m.seated seat = y ∧ GameRole.ofSeat seat = g.currentPlayer)
      : Shows s s' [(y, UInt8.ofInt (s.idOf y inv), text)]

theorem Store.Shows.refl (s : Store) : s.Shows s [] := .nothing fun _ _ _ hm _ => hm

def Operation.Plays : Operation → Prop
  | .accept _ | .move _ _ => True
  | _ => False

theorem Operation.not_plays_action? {a : Lobby.Action CString ClientPtr InvitationPtr CString}
    (hno : ¬ op.Plays) (ha : op.action? s client = some a) : ¬ a.Plays := by
  obtain ⟨inv, -, rfl⟩ := Option.map_eq_some_iff.mp ha
  cases op with
  | accept | move => exact absurd trivial hno
  | make | revoke | decline | resign => exact id

theorem Effect.boardsSince_of_not_plays (h : Effect env w client op r w') (hno : ¬ op.Plays)
    (e : Event) : w.boardsSince w' e = [] := by
  have hsend : ∀ {receiver hdr}, w'.trace.sent = (w.trace.send env receiver hdr none).sent →
      w.boardsSince w' e = [] := by
    intro receiver hdr hsent
    rw [World.boardsSince_send List.prefix_rfl hsent, SentPacket.board?_of_data e rfl,
      World.boardsSince_of_sent rfl]
    rfl
  cases h with
  | refused => exact World.boardsSince_of_sent rfl
  | made =>
    rw [World.boardsSince_send List.prefix_rfl rfl, World.boardsSince_of_sent rfl,
      SentPacket.board?_of_boardId? rfl]
    rfl
  | revokeUnsent | revoked | revokedByTarget => exact hsend rfl
  | declined | declinedBySource => exact hsend rfl
  | resignUnsent | resigned => exact hsend rfl
  | acceptNoRoom | accepted => exact absurd trivial hno
  | moveUnsent | moved | endUnsent | endUnsentSelf | finished => exact absurd trivial hno

theorem Store.Move.next_turn (h : s.Move client id text inv i game g move) (hv : s.Valid extra)
    : (gameApplyMove g move).2.currentPlayer = i.roleOf (i.opponentOf client) := by
  obtain ⟨hparse, hturn, hempty⟩ := legalMove?_iff.mp h.legal
  obtain ⟨-, i', -, -, hi', hor⟩ := hv.invitationOf h.named
  obtain rfl := Option.some.inj (h.invitation.symm.trans hi')
  rw [gameApplyMove_accepted ⟨hturn.trans (gameParseMove_role hparse).symm, hempty⟩,
    (gameIsOver_keeps _).2.1, Game.played_currentPlayer, hturn]
  exact (hv.invitation inv i h.invitation).next_role hor

theorem Store.Move.shows (h : s.Move client id text inv i game g move) (hv : s.Valid extra)
    (hstate : i.state = .acceptedState)
    (hother : ∀ inv', inv' ≠ inv → s'.pairingOf inv' = s.pairingOf inv')
    (hself : ∀ m g', s'.pairingOf inv = some m → m.position = some g' →
      m = i.pairing (some (gameApplyMove g move).2))
    : s.Shows s' [(i.opponentOf client, UInt8.ofInt (s.idOf (i.opponentOf client) inv),
      gameUnparseState (gameApplyMove g move).2)] := by
  have hok := hv.invitation inv i h.invitation
  obtain ⟨-, i', -, -, hi', hor⟩ := hv.invitationOf h.named
  obtain rfl := Option.some.inj (h.invitation.symm.trans hi')
  obtain ⟨seat, hseat, hrole, -⟩ := hok.seated_pairing (opponentOf_or hor)
  refine .board (pairingOf_of_playing h.invitation hstate h.owned h.board) ⟨seat, hseat _⟩ hother ?_
  intro m g' hm hposition
  obtain rfl := hself m g' hm hposition
  obtain rfl := Option.some.inj hposition
  exact ⟨rfl, seat, hseat _, hrole.trans (h.next_turn hv).symm⟩

theorem Effect.shows_of_move (h : Effect env w client (.move id text) r w') (henv : env.Reliable)
    (hserves : w.store.Serves extra client) (hon : w.store.GamesOn) (e : Event)
    : w.store.Shows w'.store (w.boardsSince w' e) := by
  have hv := hserves.valid
  have hs := hserves.settled
  have hother : ∀ {inv}, w.store.invitationOf client id = some inv →
      ∀ inv', inv' ≠ inv → w'.store.pairingOf inv' = w.store.pairingOf inv' :=
    fun hnamed inv' => h.pairingOf_of_ne hv hs.linked hnamed
  cases h with
  | refused _ n =>
    have hnone : w.boardsSince { w with trace.allocs := n } e = [] := World.boardsSince_of_sent rfl
    rw [hnone]
    exact .refl _
  | moveUnsent _ hsend | endUnsent _ _ _ hsend | endUnsentSelf _ _ _ _ hsend =>
    simp [henv.sends] at hsend
  | @moved id text inv i game g move hmove =>
    rw [World.boardsSince_moved]
    refine hmove.shows hv (hmove.state hon) (hother hmove.named) ?_
    intro m g' hm _
    have hg : (w.store.play game move).games.get? game = some (gameApplyMove g move).2 := by
      simp [hmove.board]
    have hpairing := Store.pairingOf_of_playing (s := w.store.play game move) hmove.invitation
      (hmove.state hon) hmove.owned hg
    exact Option.some.inj (hm.symm.trans hpairing)
  | @finished id text inv i game g move c co player playero hmove =>
    have hgone := (((hmove.shared hv hs.linked).play game move).post env.expected
      (resultOf (i.roleOf client) player playero (gameApplyMove g move).2.winner)).gone
    have hpre : w.trace.sent
        <+: (w.moved env (i.opponentOf client) inv game g move).trace.sent := List.prefix_append _ _
    have hshown : w.boardsSince (World.conclude (endedTwice env client (i.opponentOf client) inv id
        (gameApplyMove g move).2.winner (w.moved env (i.opponentOf client) inv game g move)) env
        client (i.opponentOf client) inv (resultOf (i.roleOf client) player playero
          (gameApplyMove g move).2.winner)) e
        = w.boardsSince (w.moved env (i.opponentOf client) inv game g move) e := by
      rw [← World.boardsSince_ended env (i.opponentOf client) _ hpre]
      exact World.boardsSince_ended env client _ (hpre.trans (List.prefix_append _ _))
    rw [hshown, World.boardsSince_moved]
    refine hmove.shows hv (hmove.state hon) (hother hmove.named) ?_
    intro m g' hm
    cases hm.symm.trans (Store.pairingOf_of_gone hgone)

/--
An invitation that has been accepted is answered with the empty board: the inviter sees it if it
moves first, and the one who has accepted if not.
-/
theorem Effect.shows_of_accept (h : Effect env w client (.accept pkt.hdr.id.toNat) r w')
    (henv : env.Reliable) (hserves : w.store.Serves extra client)
    (hrun : (clientAcceptInvitation client pkt.hdr.id.toNat).run env w = .ok ((r, state), w'))
    (he : e.accepting? client = some pkt.hdr.id)
    : w.store.Shows w'.store (w.boardsSince (w'.answered env client r state) e) := by
  have hv := hserves.valid
  have hs := hserves.settled
  have hother : ∀ {inv}, w.store.invitationOf client pkt.hdr.id.toNat = some inv →
      ∀ inv', inv' ≠ inv → w'.store.pairingOf inv' = w.store.pairingOf inv' :=
    fun hnamed inv' => h.pairingOf_of_ne hv hs.linked hnamed
  have hpre := h.sent_prefix
  cases h with
  | refused _ n =>
    have hnone : w.boardsSince { w with trace.allocs := n } e = [] := World.boardsSince_of_sent rfl
    rw [World.answered, if_pos rfl, World.boardsSince_nacked env client hpre, hnone]
    exact .refl _
  | acceptNoRoom _ _ halloc => simp [henv.allocs] at halloc
  | @accepted id inv i hopen htarget halloc =>
    have hok := hv.invitation inv i hopen.invitation
    rw [clientAcceptInvitation_run hv hopen.named hopen.invitation hopen.state htarget halloc,
      Except.ok.injEq, Prod.mk.injEq, Prod.mk.injEq] at hrun
    obtain ⟨⟨-, rfl⟩, -⟩ := hrun
    have hi : (w.store.accept inv).invitations.get? inv
        = some { i with state := .acceptedState, game := some w.store.games.next } := by
      simp [Store.accept, hopen.invitation]
    have hpairing : (w.store.accept inv).pairingOf inv = some (i.pairing (some gameCreate)) := by
      rw [Store.pairingOf_of_playing hi rfl rfl (Heap.get?_push_next : _ = some gameCreate)]
      rfl
    -- whoever has the first role is shown the board
    have hfirst : w.store.Shows (w.store.accept inv) [(i.first,
        UInt8.ofInt (w.store.idOf i.first inv), gameUnparseState gameCreate)] := by
      refine .board hopen.pairingOf ⟨.first, rfl⟩ (hother hopen.named) ?_
      intro m g hm hposition
      obtain rfl := Option.some.inj (hpairing.symm.trans hm)
      obtain rfl := Option.some.inj hposition
      exact ⟨rfl, .first, rfl, rfl⟩
    have hsource : ∀ data written, (SentPacket.board? { receiver := i.source
                                                        hdr := acceptedPacket env w inv i
                                                        data := data
                                                        written := written } e)
        = data.map fun text => (i.source, UInt8.ofInt (w.store.idOf i.source inv), text) :=
      fun _ _ => rfl
    rw [if_pos (henv.sends _), World.answered, if_neg (by decide),
      World.boardsSince_acked env client 0 _ hpre, he, World.boardsSince_send List.prefix_rfl rfl,
      World.boardsSince_of_sent rfl, hsource]
    have hclient : UInt8.ofInt (w.store.idOf client inv) = pkt.hdr.id := by
      rw [hv.node_of_invitationOf hopen.named, byte_of_toNat]
    unfold Invitation.first at hfirst
    rcases hok.roles with ⟨hroles, htargetRole⟩ | ⟨hroles, htargetRole⟩
    . rw [if_pos hroles] at hfirst
      simpa [acceptTexts, htargetRole] using hfirst
    . rw [if_neg (by simp [hroles]), htarget, hclient] at hfirst
      simpa [acceptTexts, htargetRole] using hfirst

theorem LogoutRun.boardsSince (h : LogoutRun env client w nodes w') (e : Event)
    : w.boardsSince w' e = [] := by
  induction h with
  | nil => exact World.boardsSince_of_sent rfl
  | @cons w w₁ w' c i node nodes r _ _ _ heffect hrest ih =>
    have hno : ¬ (logoutOp client i node.id).Plays := by
      unfold logoutOp
      split
      . exact id
      . split <;> exact id
    rw [World.boardsSince_trans heffect.sent_prefix hrest.sent_prefix,
      heffect.boardsSince_of_not_plays hno e, ih]
    rfl

theorem Departs.boardsSince (h : Departs env client w w') (e : Event)
    : w.boardsSince w' e = [] := by
  cases h with
  | loggedOut => exact World.boardsSince_of_sent rfl
  | loggedIn _ _ _ hlogout => exact hlogout.boardsSince e

theorem requestOp?_eq_accept (hop : requestOp? s client pkt = some (.accept id))
    : PacketType.ofByte? pkt.hdr.type = some .accept := by
  unfold requestOp? at hop
  split at hop
  . obtain ⟨_, _, _, _, -, -, -, -, heq⟩ := inviteOp?_eq_some hop
    simp at heq
  . simp at hop
  . next heq => exact heq
  . simp at hop
  . obtain ⟨_, -, heq⟩ := Option.map_eq_some_iff.mp hop
    simp at heq
  . simp at hop
  . simp at hop

namespace Server

theorem Does.not_plays {as : List (Lobby.Action CString ClientPtr InvitationPtr CString)}
    (h : σ.Does e client as) (hno : ∀ x op, σ.opOf? e = some (x, op) → ¬ op.Plays)
    : ∀ a ∈ as, ¬ a.Plays := by
  cases h with
  | nothing => simp
  | login => simp [Lobby.Action.Plays]
  | asked hop ha =>
    intro a hmem
    obtain rfl := List.mem_singleton.mp hmem
    exact Operation.not_plays_action? (hno _ _ hop) ha
  | departed _ hquits =>
    intro a hmem
    rcases List.mem_append.mp hmem with hmem | hmem
    . have hquit := hquits a hmem
      cases a with
      | withdraw | resign => exact id
      | _ => exact hquit.elim
    . obtain rfl := List.mem_singleton.mp hmem
      exact id

theorem exec_accept (hserves : σ.world.store.Serves extra client)
    (hgate : σ.connections client = some gate) (hopen : gate ≠ 0)
    (htype : PacketType.ofByte? pkt.hdr.type = some .accept)
    (hexec : exec env σ (.packet client pkt) = .ok σ')
    : ∃ r state w₁,
        (clientAcceptInvitation client pkt.hdr.id.toNat).run env σ.world = .ok ((r, state), w₁)
          ∧ Effect env σ.world client (.accept pkt.hdr.id.toNat) r w₁
          ∧ σ'.world = w₁.answered env client r state := by
  obtain ⟨c, hc⟩ := hserves.exists_client
  obtain ⟨r, w₁, state, hrun, hreturned⟩ := Operation.run_accept env pkt.hdr.id.toNat
    hserves.valid (Nat.lt_of_lt_of_le hserves.registered (Nat.le_add_right _ _))
  obtain ⟨c₁, hc₁, -⟩ := hreturned.effect.keepsSessions.get? hc
  obtain ⟨n, hrun'⟩ := processAccept_run hrun hc₁
  simp only [exec, hgate, servicePacket, htype, requestHandler?, if_neg hopen, run_bind, hrun',
    run_pure, Except.ok.injEq] at hexec
  exact ⟨r, state, w₁, hrun, hreturned.effect, by rw [← hexec]⟩

theorem Steps.shows_of_quiet (h : Steps env σ e σ') (henv : env.Reliable) (hok : σ.Ok)
    (hon : σ.world.store.GamesOn) (hnames : σ.world.store.NamesApart)
    (hno : ∀ x op, σ.opOf? e = some (x, op) → ¬ op.Plays)
    (hnone : σ.world.boardsSince σ'.world e = [])
    : σ.world.store.Shows σ'.world.store (σ.world.boardsSince σ'.world e) := by
  obtain ⟨client, as, hdoes, hrun⟩ := h.lobby henv hok hon hnames
  rw [hnone]
  exact .nothing fun inv m g hm hposition => hrun.position (hdoes.not_plays hno) hm hposition

theorem shows_of_request {w : World} (henv : env.Reliable) (hok : σ.Ok)
    (hon : σ.world.store.GamesOn) (hnames : σ.world.store.NamesApart)
    (hgate : σ.connections client = some gate) (hserved : Served env σ.world client gate pkt gate' w)
    (hexec : exec env σ (.packet client pkt) = .ok {
      world := w
      connections := Function.update σ.connections client (some gate') })
    : σ.world.store.Shows w.store (σ.world.boardsSince w (.packet client pkt)) := by
  have hserves : σ.world.store.Serves (fun _ => 0) client := hok.serves (by simp [hgate])
  have hsteps := Steps.serves hgate hserved
  have hquiet : (∀ op, requestOp? σ.world.store client pkt = some op → ¬ op.Plays) →
      σ.world.boardsSince w (.packet client pkt) = [] →
      σ.world.store.Shows w.store (σ.world.boardsSince w (.packet client pkt)) := by
    intro hno hnone
    refine hsteps.shows_of_quiet henv hok hon hnames ?_ hnone
    intro x op hop
    obtain ⟨op', hop', heq⟩ := Option.map_eq_some_iff.mp hop
    obtain ⟨-, rfl⟩ := Prod.mk.inj heq
    exact hno op' hop'
  have hsame : w.store = σ.world.store → σ.world.boardsSince w (.packet client pkt) = [] →
      σ.world.store.Shows w.store (σ.world.boardsSince w (.packet client pkt)) := by
    intro hstore hnone
    rw [hstore, hnone]
    exact .refl _
  have hnot : PacketType.ofByte? pkt.hdr.type ≠ some .accept →
      (Event.packet client pkt).accepting? client = none :=
    fun hne => if_neg fun h => hne h.2
  have hlogin : PacketType.ofByte? pkt.hdr.type = some .login →
      ∀ op, requestOp? σ.world.store client pkt = some op → ¬ op.Plays := by
    intro htype
    simp [requestOp?, htype]
  have hanswered : ∀ (w₁ : World) {r data}, (w₁.answered env client r data).store = w₁.store := by
    intro w₁ r data
    unfold World.answered
    split <;> rfl
  have hself : ∀ {w₁ : World}, w₁.trace.sent = σ.world.trace.sent →
      σ.world.trace.sent <+: w₁.trace.sent :=
    fun heq => heq ▸ List.prefix_rfl
  cases hserved with
  | ignored => exact hsame rfl (World.boardsSince_of_sent rfl)
  | shut | unfit | loginRefused =>
    exact hsame rfl ((World.boardsSince_nacked env client (hself rfl)).trans
      (World.boardsSince_of_sent rfl))
  | users htype =>
    refine hsame rfl (Eq.trans (World.boardsSince_acked_of_quiet env 0 (hself rfl)
      (.inl (hnot (by simp [htype])))) (World.boardsSince_of_sent rfl))
  | @invited op r w₁ htype _ hrequest _ heffect =>
    obtain ⟨target, sourceRole, targetRole, rfl⟩ := requestOp?_eq_make hrequest htype
    refine hquiet ?_ ?_
    . intro op hop
      obtain rfl := Option.some.inj (hrequest.symm.trans hop)
      exact id
    . rw [World.boardsSince_acked_of_quiet env r heffect.sent_prefix (.inr rfl)]
      exact heffect.boardsSince_of_not_plays id _
  | @answered type op r w₁ data htype _ _ hopen hrequest _ heffect =>
    by_cases haccept : PacketType.ofByte? pkt.hdr.type = some .accept
    . obtain ⟨r', state, w₂, hrun, heffect', hworld⟩ :=
        exec_accept hserves hgate hopen haccept hexec
      have haccepting : (Event.packet client pkt).accepting? client = some pkt.hdr.id :=
        if_pos ⟨rfl, haccept⟩
      dsimp only at hworld
      rw [hworld, hanswered w₂]
      exact heffect'.shows_of_accept henv hserves hrun haccepting
    . have hboards : σ.world.boardsSince (w₁.answered env client r data) (.packet client pkt)
          = σ.world.boardsSince w₁ (.packet client pkt) :=
        World.boardsSince_answered env r heffect.sent_prefix (.inl (hnot haccept))
      by_cases hplays : op.Plays
      . rw [hboards, hanswered w₁]
        cases op with
        | accept id => exact absurd (requestOp?_eq_accept hrequest) haccept
        | move id text => exact heffect.shows_of_move henv hserves hon _
        | make | revoke | decline | resign => exact hplays.elim
      . refine hquiet ?_ ?_
        . intro op' hop
          obtain rfl := Option.some.inj (hrequest.symm.trans hop)
          exact hplays
        . rw [hboards]
          exact heffect.boardsSince_of_not_plays hplays _
  | loginNoRoom _ _ _ _ havail => exact absurd (.inr ⟨henv.allocs _, henv.allocs _⟩) havail
  | loginTaken htype =>
    refine hquiet (hlogin htype) (Eq.trans (World.boardsSince_acked_of_quiet env 0 ?_ (.inr rfl)) ?_)
    . exact List.prefix_append _ _
    . exact (World.boardsSince_nacked env client (hself rfl)).trans (World.boardsSince_of_sent rfl)
  | loggedIn htype =>
    exact hquiet (hlogin htype) (Eq.trans (World.boardsSince_acked_of_quiet env 0 (hself rfl)
      (.inr rfl)) (World.boardsSince_of_sent rfl))

theorem Steps.shows (h : Steps env σ e σ') (hexec : exec env σ e = .ok σ') (henv : env.Reliable)
    (hok : σ.Ok) (hon : σ.world.store.GamesOn) (hnames : σ.world.store.NamesApart)
    (hanswered : e.IsAnswered)
    : σ.world.store.Shows σ'.world.store (σ.world.boardsSince σ'.world e) := by
  -- what neither accepts nor moves leaves all boards alone
  have hquiet : (∀ x op, σ.opOf? e = some (x, op) → ¬ op.Plays) →
      σ.world.boardsSince σ'.world e = [] →
      σ.world.store.Shows σ'.world.store (σ.world.boardsSince σ'.world e) := by
    intro hno hnone
    obtain ⟨client, as, hdoes, hrun⟩ := h.lobby henv hok hon hnames
    rw [hnone]
    exact .nothing fun inv m g hm hposition => hrun.position (hdoes.not_plays hno) hm hposition
  have hsame : σ'.world.store = σ.world.store → σ.world.boardsSince σ'.world e = [] →
      σ.world.store.Shows σ'.world.store (σ.world.boardsSince σ'.world e) := by
    intro hstore hnone
    rw [hstore, hnone]
    exact .refl _
  cases h with
  | idle => exact hsame rfl (World.boardsSince_of_sent rfl)
  | connects hconnects =>
    refine hquiet (by simp [opOf?]) (World.boardsSince_of_sent ?_)
    cases hconnects <;> rfl
  | @serves client pkt gate gate' w hgate hserved =>
    exact shows_of_request henv hok hon hnames hgate hserved hexec
  | @departs e client w he hconnected hdeparts =>
    refine hquiet ?_ (hdeparts.boardsSince e)
    rcases he with rfl | ⟨pkt, rfl, htype⟩
    . simp [opOf?]
    . simp [opOf?, requestOp?, htype]
  | @calls client op r w hconnected hcall heffect =>
    have hserves := hok.serves hconnected
    by_cases hno : op.Plays
    . cases op with
      | accept id => exact hanswered.elim
      | move id text => exact heffect.shows_of_move henv hserves hon _
      | make | revoke | decline | resign => exact hno.elim
    . refine hquiet ?_ (heffect.boardsSince_of_not_plays hno _)
      intro x op' hop
      obtain ⟨rfl, rfl⟩ := Prod.mk.inj (Option.some.inj hop)
      exact hno

end Server

/-! ## What the clients have noted -/

def Store.IdsFit (s : Store) : Prop :=
  ∀ x < s.clients.next, ∀ c ∈ s.clients.get? x, ∀ node ∈ c.inviteHead, node.id < 256

instance (s : Store) : Decidable s.IdsFit := by
  unfold Store.IdsFit
  infer_instance

namespace Store

theorem Steady.node_of_takesPart (h : s.Steady) (hm : s.pairingOf inv = some m)
    (hpart : m.TakesPart x) : ∃ node ∈ s.nodesOf x inv, s.idOf x inv = node.id := by
  obtain ⟨i, hi, hactive, hor⟩ := h.valid.participant_of_takesPart hm hpart
  exact h.settled.linked.node h.valid hi hactive.state_or hor

theorem Ages.idOf (hages : s.Ages s') (h : s.Steady) (h' : s'.Steady)
    (hm₀ : s.pairingOf inv = some m₀) (hm : s'.pairingOf inv = some m) (hpart : m.TakesPart x)
    : s'.idOf x inv = s.idOf x inv := by
  obtain ⟨node, hnode, hid⟩ := h'.node_of_takesPart hm hpart
  obtain ⟨i, hi, -⟩ := active_of_pairingOf hm₀
  have hold := hages.nodes x inv (Heap.lt_next_of_get? hi) hnode
  rw [hid, (h.valid.numberFor_node hold).2]

theorem IdsFit.byte_injective (hfit : s.IdsFit) (h : s.Steady) {inv' : InvitationPtr}
    {m' : Lobby.Pairing ClientPtr Game} (hm : s.pairingOf inv = some m) (hpart : m.TakesPart x)
    (hm' : s.pairingOf inv' = some m') (hpart' : m'.TakesPart x)
    (hbyte : UInt8.ofInt (s.idOf x inv) = UInt8.ofInt (s.idOf x inv')) : inv = inv' := by
  obtain ⟨node, hnode, hid⟩ := h.node_of_takesPart hm hpart
  obtain ⟨node', hnode', hid'⟩ := h.node_of_takesPart hm' hpart'
  obtain ⟨c, hc, hmem, rfl⟩ := mem_nodesOf.mp hnode
  obtain ⟨c', hc', hmem', rfl⟩ := mem_nodesOf.mp hnode'
  obtain rfl := Option.some.inj (hc.symm.trans hc')
  have hok := h.valid.client x c hc
  have hfits := hfit x (Heap.lt_next_of_get? hc) c hc
  have hfound := (hok.ids.byte_iff hok.nodup hmem).mpr (hfits node hmem)
  have hfound' := (hok.ids.byte_iff hok.nodup hmem').mpr (hfits node' hmem')
  rw [hid, hid'] at hbyte
  rw [hbyte] at hfound
  exact Option.some.inj (hfound.symm.trans hfound')

end Store

namespace Watched

variable {ν ν' : Watched}

/--
All ids fit into their bytes, and what an ACCEPT returns is sent.
-/
def Legible (ν : Watched) (e : Event) : Prop := ν.server.world.store.IdsFit ∧ e.IsAnswered

instance (ν : Watched) (e : Event) : Decidable (ν.Legible e) := inferInstanceAs (Decidable (_ ∧ _))

def Told (s : Store) (notes : Notes) : Prop :=
  ∀ inv m g seat, s.pairingOf inv = some m → m.position = some g →
    GameRole.ofSeat seat = g.currentPlayer →
    notes (m.seated seat) (UInt8.ofInt (s.idOf (m.seated seat) inv)) = some (gameUnparseState g)

theorem Told.shows {notes : Notes} {boards : List (ClientPtr × Byte × CString)}
    (htold : Told s notes) (h : s.Steady) (h' : s'.Steady) (hages : s.Ages s') (hfit : s.IdsFit)
    (hshows : s.Shows s' boards) : Told s' (boards.foldl Notes.note notes) := by
  intro inv m g seat hm hposition hturn
  have hpart : m.TakesPart (m.seated seat) := ⟨seat, rfl⟩
  cases hshows with
  | nothing hkeeps =>
    have hm₀ := hkeeps inv m g hm hposition
    rw [hages.idOf h h' hm₀ hm hpart]
    exact htold inv m g seat hm₀ hposition hturn
  | @board inv' m₀ y text hm₀ hparty hother hself =>
    rw [List.foldl_cons, List.foldl_nil]
    unfold Notes.note
    dsimp only
    by_cases heq : inv = inv'
    . subst heq
      obtain ⟨rfl, seat', rfl, hturn'⟩ := hself m g hm hposition
      obtain rfl : seat' = seat := by
        rw [← hturn] at hturn'
        cases seat <;> cases seat' <;> first | rfl | cases hturn'
      rw [hages.idOf h h' hm₀ hm hpart, Function.update_self, Function.update_self]
    . have hm₁ : s.pairingOf inv = some m := hother inv heq ▸ hm
      rw [hages.idOf h h' hm₁ hm hpart, ← htold inv m g seat hm₁ hposition hturn]
      -- another game of the same client has another id
      by_cases hy : m.seated seat = y
      . subst hy
        rw [Function.update_self, Function.update_of_ne]
        exact fun hbyte => heq (hfit.byte_injective h hm₁ hpart hm₀ hparty hbyte)
      . rw [Function.update_of_ne hy]

theorem told_of_legible (henv : env.Reliable) (h : (machine env).Reach Legible initial ν)
    : Server.Reachable env ν.server ∧ Told ν.server.world.store ν.notes := by
  apply h.invariant fun ν => Server.Reachable env ν.server ∧ Told ν.server.world.store ν.notes
  . refine ⟨.refl, ?_⟩
    intro inv m g seat hm
    simp [initial, Store.pairingOf, initialServer, initialWorld, initialStore] at hm
  . rintro ν e ν' ⟨hreach, htold⟩ ⟨hfit, hanswered⟩ hstep
    obtain ⟨σ', hexec, rfl⟩ := Option.map_eq_some_iff.mp hstep
    have hreach' : Server.Reachable env σ' := .step hreach trivial hexec
    obtain ⟨hok, hon, hnames⟩ := Server.lobby_of_reach henv hreach
    have hok' := (Server.lobby_of_reach henv hreach').1
    have hsteps := Server.steps_of_step hok hexec
    have hshows := hsteps.shows (Server.exec_of_step hexec) henv hok hon hnames hanswered
    exact ⟨hreach', htold.shows hok.steady hok'.steady hsteps.ages hfit hshows⟩

/--
Whoever is to move in a game has been shown the board as it is, and nothing else under that id since.
-/
theorem board_noted (henv : env.Reliable) (h : (machine env).Reach Legible initial ν)
    (hplay : ν.server.world.store.Playing x id inv i game)
    (hg : ν.server.world.store.games.get? game = some g) (hturn : i.roleOf x = g.currentPlayer)
    : ν.notes x (UInt8.ofInt id) = some (gameUnparseState g) := by
  obtain ⟨hreach, htold⟩ := told_of_legible henv h
  have hv := (Server.lobby_of_reach henv hreach).1.steady.valid
  obtain ⟨-, i', -, -, hi', hor⟩ := hv.invitationOf hplay.named
  obtain rfl := Option.some.inj (hplay.invitation.symm.trans hi')
  obtain ⟨seat, hseat, hrole, -⟩ := (hv.invitation inv i hi').seated_pairing hor
  have hpairing := Store.pairingOf_of_playing hplay.invitation hplay.state hplay.owned hg
  have hnoted := htold inv _ g seat hpairing rfl (hrole.trans hturn)
  rwa [hseat, hv.node_of_invitationOf hplay.named] at hnoted

/--
`B` has moved, `A` has answered, and `B` is to move again.
-/
theorem board_noted_of_moved
    : ∃ ν i game g, (machine calmEnv).Reach Legible initial ν
      ∧ ν.server.world.store.Playing 1 0 0 i game ∧ ν.server.world.store.games.get? game = some g
      ∧ i.roleOf 1 = g.currentPlayer
      ∧ ν.notes 1 (UInt8.ofInt 0) = some (gameUnparseState g) := by
  obtain ⟨ν, hreach, hcheck⟩ := Machine.Reach.of_any_run (machine calmEnv) Legible initial
    (acceptedEvents ++ [moveEvent 1 '5', moveEvent 0 '1'])
    (fun ν => (ν.server.world.store.invitations.get? 0).any fun i =>
      i.game.any fun game => (ν.server.world.store.games.get? game).any fun g =>
        decide (ν.server.world.store.invitationOf 1 0 = some 0 ∧ i.state = .acceptedState
          ∧ i.roleOf 1 = g.currentPlayer)) (by decide +kernel)
  obtain ⟨i, hi, hcheck⟩ := (Option.any_eq_true _ _).mp hcheck
  obtain ⟨game, hown, hcheck⟩ := (Option.any_eq_true _ _).mp hcheck
  obtain ⟨g, hg, hcheck⟩ := (Option.any_eq_true _ _).mp hcheck
  obtain ⟨hnamed, hstate, hturn⟩ := of_decide_eq_true hcheck
  have hplay : ν.server.world.store.Playing 1 0 0 i game := ⟨hnamed, hi, hstate, hown⟩
  exact ⟨ν, i, game, g, hreach, hplay, hg, hturn,
    board_noted calmEnv_reliable hreach hplay hg hturn⟩

end Watched

end Jeux
