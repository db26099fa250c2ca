import Jeux.Lemmas.News
import Jeux.Service.RequestsAlike

/-!
One request of a client about an invitation or a game, and what the server does about it.
-/

namespace Jeux

open ServerM

variable {env : Env} {w w' : World} {client : ClientPtr} {op : Operation} {r : Int} {σ τ : Server}

/-! ## What one operation can do -/

theorem Store.drop_games_next (s : Store) (client : ClientPtr) (inv : InvitationPtr)
    : (s.drop client inv).games.next = s.games.next := by
  unfold Store.drop
  split
  . split
    . unfold Store.release
      dsimp only
      split
      . simp
      . simp
    . simp
  . rfl

theorem Effect.games_next (h : Effect env w client op r w')
    : w'.store.games.next = w.store.games.next ∨ w'.store.games.next = w.store.games.next + 1 := by
  cases h with
  | accepted => exact .inr (by simp [Store.accept])
  | _ =>
    left
    simp [Store.drop_games_next, Store.dissolve, Store.invite, World.conclude, World.moved,
      World.ended, endedOnce, endedTwice, Store.post_games]

theorem Effect.invitations_next_le (h : Effect env w client op r w')
    : w'.store.invitations.next = w.store.invitations.next
        ∨ w'.store.invitations.next = w.store.invitations.next + 1 := by
  by_cases hop : ∀ target sourceRole targetRole, op ≠ .make target sourceRole targetRole
  . exact .inl (h.invitations_next hop)
  . cases h with
    | made => exact .inr (by simp [Store.invite])
    | refused => exact .inl rfl
    | _ => simp at hop

/-! ## Requests -/

/--
A request about an invitation or a game, and what the surroundings answer while it is handled.
-/
structure ClientRequest where
  client : ClientPtr
  pkt : Packet
  answers : Env

namespace Server

variable {q : ClientRequest} {gate : Int}

def handle (σ : Server) (q : ClientRequest) : Except Fault Server :=
  exec (q.answers.since σ.world.trace) σ (.packet q.client q.pkt)

def asks (σ : Server) (q : ClientRequest) : Option Operation :=
  requestOp? σ.world.store q.client q.pkt

def participants (σ : Server) (q : ClientRequest) : List ClientPtr :=
  σ.world.store.participants q.client (σ.asks q)

/--
It is an INVITE, REVOKE, ACCEPT, DECLINE, MOVE or RESIGN of a client that is connected.
-/
structure Receives (σ : Server) (q : ClientRequest) : Prop where
  connected : σ.connections q.client ≠ none
  type : ∃ type, PacketType.ofByte? q.pkt.hdr.type = some type ∧ type.IsRequest ∧ type ≠ .users

theorem Receives.transfer (h : σ.Receives q) (hconnections : τ.connections = σ.connections)
    : τ.Receives q := ⟨hconnections ▸ h.connected, h.type⟩

theorem Receives.holds (h : σ.Receives q) (hok : σ.Ok)
    : σ.world.store.Holds (fun _ => 0) q.client :=
  (hok.serves h.connected).holds

/--
The gate is open, and `op` is the operation that `q` comes to.
-/
structure Grants (σ : Server) (q : ClientRequest) (op : Operation) : Prop where
  gate : ∃ gate, σ.connections q.client = some gate ∧ gate ≠ 0
  asks : σ.asks q = some op

/--
`Operates σ q s'`: the store is `s'` when `q` has been handled. Responses do not change it.
-/
inductive Operates (σ : Server) (q : ClientRequest) : Store → Prop
  | nothing (h : ∀ op, ¬ σ.Grants q op) : Operates σ q σ.world.store
  | called {op : Operation} {r : Int} {w : World} {s' : Store} (h : σ.Grants q op)
      (heffect : Effect (q.answers.since σ.world.trace) σ.world q.client op r w)
      (hstore : s' = w.store) : Operates σ q s'

namespace Operates

variable {s' : Store}

theorem keepsSessions (h : σ.Operates q s') : σ.world.store.KeepsSessions s' := by
  cases h with
  | nothing => exact .refl _
  | called _ heffect hstore => exact hstore ▸ heffect.keepsSessions

theorem invitations_next (h : σ.Operates q s')
    : s'.invitations.next = σ.world.store.invitations.next
        ∨ s'.invitations.next = σ.world.store.invitations.next + 1 := by
  cases h with
  | nothing => exact .inl rfl
  | called _ heffect hstore => exact hstore ▸ heffect.invitations_next_le

theorem games_next (h : σ.Operates q s')
    : s'.games.next = σ.world.store.games.next
        ∨ s'.games.next = σ.world.store.games.next + 1 := by
  cases h with
  | nothing => exact .inl rfl
  | called _ heffect hstore => exact hstore ▸ heffect.games_next

end Operates

/-! ## Handling it -/

theorem handle_eq (hgate : σ.connections q.client = some gate)
    {type : PacketType} (htype : PacketType.ofByte? q.pkt.hdr.type = some type)
    (hrequest : type.IsRequest)
    : σ.handle q
        =
      match (servicePacket q.client gate q.pkt).run (q.answers.since σ.world.trace) σ.world with
      | .ok (_, w) => .ok { world := w, connections := σ.connections }
      | .error f => .error f := by
  unfold handle exec
  dsimp only
  rw [hgate]
  dsimp only
  cases hrun : (servicePacket q.client gate q.pkt).run (q.answers.since σ.world.trace) σ.world with
  | error f => rfl
  | ok p =>
    obtain ⟨b, w⟩ := p
    obtain rfl := servicePacket_goesOn htype hrequest hrun
    dsimp only
    rw [← hgate, Function.update_eq_self]

structure Handling (σ : Server) (q : ClientRequest) (τ : Server) : Prop where
  ok : τ.Ok
  connections : τ.connections = σ.connections
  operates : σ.Operates q τ.world.store

theorem Receives.handling (h : σ.Receives q) (hok : σ.Ok) (hrun : σ.handle q = .ok τ)
    : σ.Handling q τ := by
  have hokτ := (hok.steps hrun).ok hok
  obtain ⟨gate, hgate⟩ := Option.ne_none_iff_exists'.mp h.connected
  obtain ⟨type, htype, hrequest, husers⟩ := h.type
  have hlogin : PacketType.ofByte? q.pkt.hdr.type ≠ some .login := by
    rw [htype]
    rintro heq
    obtain rfl := Option.some.inj heq
    exact absurd hrequest (by decide)
  rw [handle_eq hgate htype hrequest] at hrun
  split at hrun
  . next b w hserve =>
    obtain rfl := servicePacket_goesOn htype hrequest hserve
    obtain rfl := Except.ok.inj hrun
    have hserved := servicePacket_served hok.steady ((hok.connected _).mp h.connected)
      (by rw [hok.sem _ h.connected]; decide) hserve
    refine ⟨hokτ, rfl, ?_⟩
    cases hserved with
    | ignored _ hno => exact absurd hrequest (hno type htype)
    | shut _ _ hshut =>
      apply Operates.nothing
      rintro op ⟨⟨gate', hgate', hopen⟩, -⟩
      exact hopen (Option.some.inj (hgate'.symm.trans hgate) ▸ hshut)
    | users heq => exact absurd (Option.some.inj (htype.symm.trans heq)) husers
    | unfit _ _ _ hnone =>
      apply Operates.nothing
      rintro op ⟨-, hop⟩
      simp [Server.asks, hnone] at hop
    | invited _ hopen hop _ heffect => exact .called ⟨⟨gate, hgate, hopen⟩, hop⟩ heffect rfl
    | answered _ _ _ hopen hop _ heffect =>
      unfold World.answered
      split
      . exact .called ⟨⟨gate, hgate, hopen⟩, hop⟩ heffect rfl
      . exact .called ⟨⟨gate, hgate, hopen⟩, hop⟩ heffect rfl
    | loginRefused heq => exact absurd heq hlogin
    | loginNoRoom heq => exact absurd heq hlogin
    | loginTaken heq => exact absurd heq hlogin
    | loggedIn heq => exact absurd heq hlogin
  . simp at hrun

theorem Receives.alike (h : σ.Receives q) (hok : σ.Ok) (hokτ : τ.Ok)
    (hconnections : τ.connections = σ.connections)
    (hscene : σ.world.store.SameScene τ.world.store q.client (σ.asks q))
    : (∃ f, σ.handle q = .error f ∧ τ.handle q = .error f)
        ∨ ∃ σ' τ', σ.handle q = .ok σ' ∧ τ.handle q = .ok τ'
            ∧ SameCourse q.client (σ.asks q) σ.world τ.world σ'.world τ'.world := by
  have hτ : τ.connections q.client ≠ none := hconnections ▸ h.connected
  obtain ⟨gate, hgate⟩ := Option.ne_none_iff_exists'.mp h.connected
  obtain ⟨type, htype, hrequest, husers⟩ := h.type
  rw [handle_eq hgate htype hrequest, handle_eq (hconnections ▸ hgate) htype hrequest]
  rcases (servicePacket_alike q.answers gate htype hrequest husers hscene (h.holds hok)
    (hokτ.serves hτ).holds).cases with ⟨f, hx, hy⟩ | ⟨b, w', v', hx, hy, hcourse⟩
  . rw [hx, hy]
    exact .inl ⟨f, rfl, rfl⟩
  . rw [hx, hy]
    exact .inr ⟨_, _, rfl, rfl, hcourse⟩

theorem sameScene_refl (s : Store) (client : ClientPtr) (op : Option Operation)
    : s.SameScene s client op :=
  ⟨.refl s, fun _ _ => rfl, fun _ _ => rfl, fun _ _ _ _ _ _ => rfl⟩

theorem Receives.course (h : σ.Receives q) (hok : σ.Ok) (hrun : σ.handle q = .ok τ)
    : ∃ v', SameCourse q.client (σ.asks q) σ.world σ.world τ.world v' := by
  rcases h.alike hok hok rfl (sameScene_refl _ _ _) with ⟨f, hf, -⟩ | ⟨σ', τ', hσ', -, hcourse⟩
  . rw [hrun] at hf
    simp at hf
  . obtain rfl := Except.ok.inj (hrun.symm.trans hσ')
    exact ⟨_, hcourse⟩

end Server

end Jeux
