import Jeux.Service.Invitations
import Jeux.Service.Responses

/-!
What brings the server down. When all its calls to the system succeed that is two requests: the list
of the players while a rating takes more than four characters, and an invitation by a client that
has no name to invite under.
-/

namespace Jeux

open ServerM

variable {env : Env} {w w' : World} {client : ClientPtr} {c : Client} {gate : Int} {pkt : Packet}
  {op : Operation} {σ σ' : Server} {e : Event} {type : PacketType}

/-! ## What is fatal -/

/--
Somebody online has a rating that `process_users` has no room for.
-/
def Store.LongRating (s : Store) : Prop :=
  ∃ player ∈ s.onlinePlayers, ∃ p ∈ s.players.get? player, ¬ (-999 ≤ p.rating ∧ p.rating ≤ 9999)

def Packet.Fatal (s : Store) (client : ClientPtr) (pkt : Packet) : Prop :=
  match PacketType.ofByte? pkt.hdr.type with
  | some .users => s.LongRating
  | some .invite => requestOp? s client pkt ≠ none ∧ ∃ c ∈ s.clients.get? client, c.player = none
  | _ => False

namespace Server

def Fatal (σ : Server) : Event → Prop
  | .packet client pkt =>
    ∃ gate ∈ σ.connections client, gate ≠ 0 ∧ pkt.Fatal σ.world.store client
  | _ => False

end Server

theorem linesFit_iff_not_longRating (s : Store)
    : linesFit s.players s.onlinePlayers = true ↔ ¬ s.LongRating := by
  unfold linesFit Store.LongRating
  rw [List.all_eq_true]
  push Not
  refine forall₂_congr fun player _ => ?_
  cases s.players.get? player with
  | none => simp
  | some p =>
    simp only [decide_eq_true_eq, Option.mem_def, Option.some.injEq, forall_eq']
    exact usersLine_fits

theorem Packet.fatal_users (s : Store) (client : ClientPtr)
    (htype : PacketType.ofByte? pkt.hdr.type = some .users)
    : pkt.Fatal s client ↔ s.LongRating := by
  unfold Packet.Fatal
  rw [htype]

theorem Packet.fatal_invite (s : Store) (client : ClientPtr)
    (htype : PacketType.ofByte? pkt.hdr.type = some .invite)
    : pkt.Fatal s client
        ↔ requestOp? s client pkt ≠ none ∧ ∃ c ∈ s.clients.get? client, c.player = none := by
  unfold Packet.Fatal
  rw [htype]

theorem Packet.not_fatal (s : Store) (client : ClientPtr)
    (husers : PacketType.ofByte? pkt.hdr.type ≠ some .users)
    (hinvite : PacketType.ofByte? pkt.hdr.type ≠ some .invite) : ¬ pkt.Fatal s client := by
  unfold Packet.Fatal
  split
  . next htype => exact absurd htype husers
  . next htype => exact absurd htype hinvite
  . exact not_false

/-! ## Operations -/

/--
An operation comes back unless it makes an invitation for a client without a player. The opponent
in a game that goes on is in the registry, so it outlives the game.
-/
theorem Operation.survives_reliable (henv : env.Reliable) (hsteady : w.store.Steady)
    (hon : w.store.GamesOn) (hcall : w.store.Callable client op)
    (hc : w.store.clients.get? client = some c)
    : op.Survives env w client
        ↔ ¬ ((∃ target sourceRole targetRole, op = .make target sourceRole targetRole)
          ∧ c.player = none) := by
  cases op with
  | make target sourceRole targetRole =>
    obtain ⟨-, ⟨ct, hct, -⟩, -⟩ := hcall.invited target sourceRole targetRole rfl
    have hroom : makeStuck env w c ct = false := by simp [makeStuck, henv.allocs]
    simp only [Operation.Survives, henv.allocs, true_implies, not_and]
    constructor
    . rintro ⟨cs, -, hcs, -, hplayer, -⟩ -
      exact Option.some.inj (hcs.symm.trans hc) ▸ hplayer
    . intro h
      exact ⟨c, ct, hc, hct, h ⟨_, _, _, rfl⟩, hroom⟩
  | move id text =>
    refine iff_of_true ?_ (by simp)
    intro _ inv i game g move co hmove _ hco
    obtain ⟨-, i', -, -, hi', hor⟩ := hsteady.valid.invitationOf hmove.named
    obtain rfl := Option.some.inj (hmove.invitation.symm.trans hi')
    obtain ⟨haccepted, -⟩ := hon inv i hmove.invitation g
      (Option.bind_eq_some_iff.mpr ⟨game, hmove.owned, hmove.board⟩)
    obtain ⟨co', hco', -, -, -, href⟩ := hsteady.settled.participant hsteady.valid hmove.invitation
      (.inr ⟨haccepted, by simp [hmove.owned]⟩) (opponentOf_or hor)
    exact Option.some.inj (hco'.symm.trans hco) ▸ href
  | _ => exact iff_of_true trivial (by simp)

theorem Packet.survives_iff_not_fatal (henv : env.Reliable) (hsteady : w.store.Steady)
    (hon : w.store.GamesOn) (hregistered : 0 < w.store.registered client)
    (htype : PacketType.ofByte? pkt.hdr.type = some type) (hasks : type = .login ∨ type.IsRequest)
    : pkt.Survives env w client gate ↔ ¬ (gate ≠ 0 ∧ pkt.Fatal w.store client) := by
  obtain ⟨c, hc⟩ := hsteady.valid.held_live client (by omega)
  rcases hasks with rfl | hrequest
  . have hfatal := pkt.not_fatal w.store client (by simp [htype]) (by simp [htype])
    simp [Packet.Survives, htype, henv.allocs, hfatal]
  . by_cases husers : type = .users
    . subst husers
      rw [Packet.fatal_users _ _ htype, not_and, ← linesFit_iff_not_longRating]
      simp [Packet.Survives, htype, henv.allocs]
    . rw [Packet.survives_request htype hrequest husers, not_and]
      refine forall_congr' fun _ => ?_
      cases hop : requestOp? w.store client pkt with
      | none =>
        refine iff_of_true (by simp) ?_
        by_cases hinvite : type = .invite
        . subst hinvite
          simp [Packet.fatal_invite _ _ htype, hop]
        . exact pkt.not_fatal w.store client (by simp [htype, husers]) (by simp [htype, hinvite])
      | some op =>
        have hcall := hsteady.callable hregistered hop
        simp only [Option.some.injEq, forall_eq']
        rw [Operation.survives_reliable henv hsteady hon hcall hc]
        by_cases hinvite : type = .invite
        . subst hinvite
          obtain ⟨target, sourceRole, targetRole, rfl⟩ := requestOp?_eq_make hop htype
          simp [Packet.fatal_invite _ _ htype, hop, hc]
        . have hmake := requestOp?_ne_make hop (by simp [htype, hinvite])
          refine iff_of_true ?_ ?_
          . rintro ⟨⟨target, sourceRole, targetRole, rfl⟩, -⟩
            exact hmake _ _ _ rfl
          . exact pkt.not_fatal w.store client (by simp [htype, husers]) (by simp [htype, hinvite])

/-! ## Events -/

namespace Server

theorem departs_returns (env : Env) (hok : σ.Ok) (hconnected : σ.connections client ≠ none)
    : ∃ σ' r w₁, (clientLogout client).run env σ.world = .ok (r, w₁)
        ∧ close env w₁ σ.connections client = .ok σ' := by
  obtain ⟨r, w₁, w', hlogout, hclose, -⟩ :=
    departs_run env σ.connections (hok.serves hconnected)
  exact ⟨_, r, w₁, hlogout, hclose⟩

theorem calls_survive (henv : env.Reliable) (hok : σ.Ok) (hon : σ.world.store.GamesOn)
    (op : Operation) : ∃ σ', exec env σ (.call client op) = .ok σ' := by
  unfold exec
  dsimp only
  split
  . next h =>
    obtain ⟨hconnected, hin, hfits⟩ := h
    have hcall := hok.callable hconnected hfits
    obtain ⟨c, hc⟩ := (hok.serves hconnected).exists_client
    have hplayer : c.player ≠ none := by
      apply (hok.steady.valid.client client c hc).player
      simpa [Store.isLoggedIn, hc] using hin
    obtain ⟨r, w', hrun⟩ := (Operation.survives_iff env op (hok.serves hconnected) hcall).mpr
      ((Operation.survives_reliable henv hok.steady hon hcall hc).mpr fun h => hplayer h.2)
    exact ⟨{ σ with world := w' }, by simp only [hrun]⟩
  . exact ⟨σ, rfl⟩

theorem packet_returns_iff (henv : env.Reliable) (hok : σ.Ok) (hon : σ.world.store.GamesOn)
    (hgate : σ.connections client = some gate)
    : (∃ σ', exec env σ (.packet client pkt) = .ok σ')
        ↔ ¬ (gate ≠ 0 ∧ pkt.Fatal σ.world.store client) := by
  have hconnected : σ.connections client ≠ none := by simp [hgate]
  have hregistered := (hok.connected client).mp hconnected
  have hsem : σ.world.store.loginSem ≠ 0 := by simp [hok.sem client hconnected]
  cases htype : PacketType.ofByte? pkt.hdr.type with
  | none =>
    refine iff_of_true ?_ ?_
    . unfold exec servicePacket
      simp [hgate, htype]
    . rintro ⟨-, hfatal⟩
      exact pkt.not_fatal _ _ (by simp [htype]) (by simp [htype]) hfatal
  | some type =>
    by_cases hasks : type = .login ∨ type.IsRequest
    . have hgoes : ∀ gate' w',
          (servicePacket client gate pkt).run env σ.world ≠ .ok ((gate', false), w') := by
        intro gate' w' hrun
        obtain ⟨hno, -⟩ := servicePacket_last hrun
        obtain rfl := Option.some.inj (htype.symm.trans hno)
        exact absurd hasks (by decide)
      rw [← Packet.survives_iff_not_fatal henv hok.steady hon hregistered htype hasks,
        ← servicePacket_returns_iff hok.steady hregistered hsem htype hasks]
      simpa using exec_packet_iff hgate (fun _ => True) hgoes
    . have hfatal : ¬ pkt.Fatal σ.world.store client := by
        apply pkt.not_fatal
        . rintro husers
          exact hasks (.inr (Option.some.inj (htype.symm.trans husers) ▸ by decide))
        . rintro hinvite
          exact hasks (.inr (Option.some.inj (htype.symm.trans hinvite) ▸ by decide))
      refine iff_of_true ?_ fun h => hfatal h.2
      by_cases hno : type = .no
      . subst hno
        obtain ⟨σ', r, w₁, hlogout, hclose⟩ := departs_returns env hok hconnected
        have hserve : (servicePacket client gate pkt).run env σ.world = .ok ((gate, false), w₁) := by
          unfold servicePacket
          rw [htype]
          simp only [run_bind, hlogout, run_pure]
        exact ⟨σ', by simp only [exec, hgate, hserve, hclose]⟩
      . have hnone : requestHandler? type client pkt = none := by
          rw [← Option.not_isSome_iff_eq_none, requestHandler?_isSome]
          exact fun h => hasks (.inr h)
        have hserve : (servicePacket client gate pkt).run env σ.world
            = .ok ((gate, true), σ.world) := by
          rw [servicePacket_eq gate htype (fun h => hasks (.inl h)) hno, hnone]
          rfl
        exact ⟨_, by simp only [exec, hgate, hserve]; rfl⟩

/--
Where everything the server asks of the system succeeds, whatever clients do in whatever order, an
event takes the server down if and only if it is fatal.
-/
theorem exec_returns_iff (henv : env.Reliable) (h : Reachable env σ)
    : (∃ σ', exec env σ e = .ok σ') ↔ ¬ σ.Fatal e := by
  obtain ⟨hok, hon⟩ := gamesOn_of_reach henv.sends h
  cases e with
  | connect fd =>
    refine iff_of_true ?_ not_false
    obtain ⟨o, w, hrun, -⟩ := cregRegister_run env hok.steady.valid.registry fd
    unfold exec
    cases o <;> simp [hrun]
  | packet client pkt =>
    cases hgate : σ.connections client with
    | none => exact iff_of_true ⟨σ, by simp [exec, hgate]⟩ (by simp [Fatal, hgate])
    | some gate =>
      rw [packet_returns_iff henv hok hon hgate]
      simp [Fatal, hgate]
  | hangUp client =>
    refine iff_of_true ?_ not_false
    cases hgate : σ.connections client with
    | none => exact ⟨σ, by simp [exec, hgate]⟩
    | some gate =>
      obtain ⟨σ', r, w₁, hlogout, hclose⟩ :=
        departs_returns env hok (by simp [hgate] : σ.connections client ≠ none)
      exact ⟨σ', by simp [exec, hgate, hlogout, hclose]⟩
  | call client op => exact iff_of_true (calls_survive henv hok hon op) not_false

/--
`A` is online. Another client asks to log in without a name, which opens its gate, and invites `A`.
-/
theorem exec_returns_iff_of_nobody
    : ∃ σ, Reachable calmEnv σ
        ∧ ¬ ∃ σ', exec calmEnv σ (.packet 1 (request .invite 0 .firstPlayerRole [65] fits_A))
          = .ok σ' := by
  obtain ⟨σ, hreach, hP⟩ := Machine.Reach.of_any_run (machine calmEnv) (fun _ _ => True)
    initialServer [.connect 4, .connect 5, .packet 0 (request .login 0 .nullRole [65] fits_A),
      .packet 1 (request .login 0 .nullRole [] fits_nil)]
    (fun σ => σ.connections 1 = some (-1)
      ∧ requestOp? σ.world.store 1 (request .invite 0 .firstPlayerRole [65] fits_A) ≠ none
      ∧ (σ.world.store.clients.get? 1).map (·.player) = some none) (by decide +kernel)
  obtain ⟨hgate, hop, hplayer⟩ := of_decide_eq_true hP
  obtain ⟨c, hc, hnobody⟩ := Option.map_eq_some_iff.mp hplayer
  refine ⟨σ, hreach, fun hreturns => ?_⟩
  refine (exec_returns_iff calmEnv_reliable hreach).mp hreturns ⟨-1, hgate, by decide, ?_⟩
  exact (Packet.fatal_invite _ _ rfl).mpr ⟨hop, c, hc, hnobody⟩

end Server

end Jeux
