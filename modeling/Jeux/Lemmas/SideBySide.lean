import Jeux.Lemmas.Logout
import Jeux.Lemmas.Numbers
import Jeux.Lemmas.Parallel

/-!
An operation carried out twice, in two worlds that look the same to its participants. Whatever else
there is in the two worlds, it returns the same, sends the same packets, and does the same.
-/

namespace Jeux

open ServerM

@[simps]
def Env.since (answers : Env) (t : Trace) : Env where
  sendOk n := answers.sendOk (n - t.sent.length)
  allocOk n := answers.allocOk (n - t.allocs)
  clock n := answers.clock (n - t.sent.length)
  expected := answers.expected

def Operation.id? : Operation → Option Int
  | .make _ _ _ => none
  | .revoke id => some id
  | .decline id => some id
  | .accept id => some id
  | .resign id => some id
  | .move id _ => some id

namespace Store

variable {s s' t : Store} {client : ClientPtr} {op : Option Operation} {inv : InvitationPtr}
  {i : Invitation}

def named? (s : Store) (client : ClientPtr) (op : Option Operation) : Option InvitationPtr :=
  (op.bind Operation.id?).bind (s.invitationOf client)

/--
The clients that an operation concerns: the one it is for, and the source and the target of the
invitation that it names or makes.
-/
def participants (s : Store) (client : ClientPtr) (op : Option Operation) : List ClientPtr :=
  client ::
    match op with
    | some (.make target _ _) => [target]
    | op =>
      match (s.named? client op).bind s.invitations.get? with
      | some i => [i.source, i.target]
      | none => []

def footprint (s : Store) (client : ClientPtr) (op : Option Operation) (s' : Store)
    : Footprint where
  clients x := x ∈ s.participants client op
  invitations u := s.named? client op = some u
    ∨ (s'.invitations.next ≠ s.invitations.next ∧ u = s.invitations.next)
  games game := (∃ inv i, s.named? client op = some inv ∧ s.invitations.get? inv = some i
      ∧ i.game = some game)
    ∨ (s'.games.next ≠ s.games.next ∧ game = s.games.next)

structure SameScene (s t : Store) (client : ClientPtr) (op : Option Operation) : Prop where
  sessions : s.KeepsSessions t
  clients : ∀ x ∈ s.participants client op, t.clients.get? x = s.clients.get? x
  invitation : ∀ inv, s.named? client op = some inv → t.invitations.get? inv = s.invitations.get? inv
  game : ∀ inv i game, s.named? client op = some inv → s.invitations.get? inv = some i →
    i.game = some game → t.games.get? game = s.games.get? game

end Store

structure Renaming.Fits (ρ : Renaming) (s s' t : Store) : Prop where
  invitation : ∀ u < s.invitations.next, ρ.invitation u = u
  game : ∀ game < s.games.next, ρ.game game = game
  newInvitation : s'.invitations.next ≠ s.invitations.next →
    ρ.invitation s.invitations.next = t.invitations.next
  newGame : s'.games.next ≠ s.games.next → ρ.game s.games.next = t.games.next

namespace Store

variable {s s' t : Store} {client : ClientPtr} {op : Option Operation} {inv : InvitationPtr}
  {i : Invitation} {extra : ClientPtr → Nat} {ρ : Renaming}

theorem Valid.game_lt (hv : s.Valid extra) (hi : s.invitations.get? inv = some i) {game : GamePtr}
    (hgame : i.game = some game) : game < s.games.next := by
  obtain ⟨-, g, hg, -⟩ := (hv.invitation inv i hi).game game hgame
  exact Heap.lt_next_of_get? hg

theorem mem_participants (s : Store) (client : ClientPtr) (op : Option Operation)
    : client ∈ s.participants client op := List.mem_cons_self ..

theorem participants_named (hop : s.named? client op = some inv)
    (hi : s.invitations.get? inv = some i)
    : s.participants client op = [client, i.source, i.target] := by
  unfold participants
  split
  . next target sourceRole targetRole => simp [named?, Operation.id?] at hop
  . rw [hop, Option.bind_some, hi]

theorem covers_footprint (hv : s.Valid extra) (hfits : ρ.Fits s s' t)
    (hop : s.named? client op = some inv) (hi : s.invitations.get? inv = some i)
    : (s.footprint client op s').Covers ρ inv i where
  source := by
    show i.source ∈ s.participants client op
    simp [participants_named hop hi]
  target := by
    show i.target ∈ s.participants client op
    simp [participants_named hop hi]
  invitation := .inl hop
  same := hfits.invitation inv (Heap.lt_next_of_get? hi)
  game := fun game hgame =>
    ⟨.inl ⟨inv, i, hop, hi, hgame⟩, hfits.game game (hv.game_lt hi hgame)⟩

theorem SameScene.parallel (h : s.SameScene t client op) (hv : s.Valid extra)
    (hfits : ρ.Fits s s' t) : Parallel (s.footprint client op s') ρ s t s t where
  clients := by
    apply Heap.Parallel.refl
    intro x hx
    rw [id, h.clients x hx]
    cases hc : s.clients.get? x with
    | none => rfl
    | some c =>
      rw [Option.map_some, Client.rename_eq_self]
      intro u hmem
      obtain ⟨i, hi, -⟩ := (hv.client x c hc).mine u hmem
      exact hfits.invitation u (Heap.lt_next_of_get? hi)
  invitations := by
    apply Heap.Parallel.refl
    rintro u (hop | ⟨hnew, rfl⟩)
    . cases hi : s.invitations.get? u with
      | none =>
        obtain ⟨c, i, -, -, hi', -⟩ : ∃ c i, s.clients.get? client = some c ∧ u ∈ c.invitations
            ∧ s.invitations.get? u = some i ∧ (i.source = client ∨ i.target = client) := by
          obtain ⟨id, -, hid⟩ := Option.bind_eq_some_iff.mp hop
          exact hv.invitationOf hid
        rw [hi] at hi'
        simp at hi'
      | some i =>
        rw [hfits.invitation u (Heap.lt_next_of_get? hi), h.invitation u hop, hi, Option.map_some,
          Invitation.rename_eq_self]
        exact fun game hgame => hfits.game game (hv.game_lt hi hgame)
    . rw [hfits.newInvitation hnew, Heap.get?_next, Heap.get?_next, Option.map_none]
  games := by
    apply Heap.Parallel.refl
    rintro game (⟨inv, i, hop, hi, hgame⟩ | ⟨hnew, rfl⟩)
    . rw [hfits.game game (hv.game_lt hi hgame), h.game inv i game hop hi hgame, Option.map_id, id]
    . rw [hfits.newGame hnew, Heap.get?_next, Heap.get?_next, Option.map_none]
  left := .refl s
  right := .refl t

/-! ## What the operation finds -/

section Scene

variable {id : Int} {game : GamePtr}

theorem named?_eq (hop : op.bind Operation.id? = some id)
    : s.named? client op = s.invitationOf client id := by
  rw [named?, hop, Option.bind_some]

theorem SameScene.invitationOf (h : s.SameScene t client op) (id : Int)
    : t.invitationOf client id = s.invitationOf client id := by
  unfold Store.invitationOf
  rw [h.clients client (mem_participants s client op)]

theorem SameScene.idOf (h : s.SameScene t client op) {x : ClientPtr}
    (hx : x ∈ s.participants client op) (inv : InvitationPtr) : t.idOf x inv = s.idOf x inv := by
  unfold Store.idOf
  rw [h.clients x hx]

theorem SameScene.open_iff (h : s.SameScene t client op) (hop : op.bind Operation.id? = some id)
    : t.Open client id inv i ↔ s.Open client id inv i := by
  constructor
  . intro hopen
    have hid := h.invitationOf id ▸ hopen.named
    exact ⟨hid, h.invitation inv ((named?_eq hop).trans hid) ▸ hopen.invitation, hopen.state⟩
  . intro hopen
    have hnamed := (named?_eq hop).trans hopen.named
    exact ⟨(h.invitationOf id).trans hopen.named,
      (h.invitation inv hnamed).trans hopen.invitation, hopen.state⟩

theorem SameScene.playing_iff (h : s.SameScene t client op) (hop : op.bind Operation.id? = some id)
    : t.Playing client id inv i game ↔ s.Playing client id inv i game := by
  constructor
  . intro hplay
    have hid := h.invitationOf id ▸ hplay.named
    exact ⟨hid, h.invitation inv ((named?_eq hop).trans hid) ▸ hplay.invitation, hplay.state,
      hplay.owned⟩
  . intro hplay
    have hnamed := (named?_eq hop).trans hplay.named
    exact ⟨(h.invitationOf id).trans hplay.named,
      (h.invitation inv hnamed).trans hplay.invitation, hplay.state, hplay.owned⟩

theorem SameScene.move_iff (h : s.SameScene t client op) (hop : op.bind Operation.id? = some id)
    {text : CString} {g : Game} {move : GameMove}
    : t.Move client id text inv i game g move ↔ s.Move client id text inv i game g move := by
  constructor
  . intro hmove
    have hid := h.invitationOf id ▸ hmove.named
    have hnamed := (named?_eq hop).trans hid
    have hi := h.invitation inv hnamed ▸ hmove.invitation
    exact ⟨hid, hi, hmove.owned, h.game inv i game hnamed hi hmove.owned ▸ hmove.board, hmove.legal⟩
  . intro hmove
    have hnamed := (named?_eq hop).trans hmove.named
    exact ⟨(h.invitationOf id).trans hmove.named,
      (h.invitation inv hnamed).trans hmove.invitation, hmove.owned,
      (h.game inv i game hnamed hmove.invitation hmove.owned).trans hmove.board, hmove.legal⟩

end Scene

end Store

/-! ## How the two runs end -/

inductive Alike {α : Type} (ends : World → World → Prop)
    : Except Fault (α × World) → Except Fault (α × World) → Prop
  | fails (f : Fault) : Alike ends (.error f) (.error f)
  | returns (a : α) {w' v' : World} (h : ends w' v') : Alike ends (.ok (a, w')) (.ok (a, v'))

theorem Alike.cases {α : Type} {ends : World → World → Prop} {x y : Except Fault (α × World)}
    (h : Alike ends x y)
    : (∃ f, x = .error f ∧ y = .error f)
        ∨ ∃ a w' v', x = .ok (a, w') ∧ y = .ok (a, v') ∧ ends w' v' := by
  cases h with
  | fails f => exact .inl ⟨f, rfl, rfl⟩
  | returns a h => exact .inr ⟨a, _, _, rfl, rfl, h⟩

/--
An operation has been carried out in `w` and in `v`: the participants have been told the same, and
the same has happened to the stores.
-/
structure SameCourse (client : ClientPtr) (op : Option Operation) (w v w' v' : World) : Prop where
  told : ∃ packets, w'.trace.sent = w.trace.sent ++ packets ∧ v'.trace.sent = v.trace.sent ++ packets
    ∧ ∀ packet ∈ packets, packet.receiver ∈ w.store.participants client op
  parallel : ∀ ρ : Renaming, ρ.Fits w.store w'.store v.store →
    Store.Parallel (w.store.footprint client op w'.store) ρ w.store v.store w'.store v'.store

section SameCourse

variable {answers : Env} {w v w' v' : World} {client x : ClientPtr} {op : Option Operation}

theorem SameCourse.clock (h : SameCourse client op w v w' v')
    : (answers.since v.trace).clock v'.trace.sent.length
        =
      (answers.since w.trace).clock w'.trace.sent.length := by
  obtain ⟨packets, hsent, hsent', -⟩ := h.told
  simp [hsent, hsent']

theorem SameCourse.sendOk (h : SameCourse client op w v w' v')
    : (answers.since v.trace).sendOk v'.trace.sent.length
        =
      (answers.since w.trace).sendOk w'.trace.sent.length := by
  obtain ⟨packets, hsent, hsent', -⟩ := h.told
  simp [hsent, hsent']

theorem SameCourse.send (w' v' : World) (h : SameCourse client op w v w' v') (answers : Env)
    (hx : x ∈ w.store.participants client op) (hdr : PacketHeader) (data : Option CString)
    : SameCourse client op w v
        { w' with trace := w'.trace.send (answers.since w.trace) x hdr data }
        { v' with trace := v'.trace.send (answers.since v.trace) x hdr data } where
  told := by
    obtain ⟨packets, hsent, hsent', hreceivers⟩ := h.told
    refine ⟨packets ++ [{
      receiver := x
      hdr := hdr
      data := data
      written := (answers.since w.trace).sendOk w'.trace.sent.length }], ?_, ?_, ?_⟩
    . rw [Trace.send_sent, hsent, List.append_assoc]
    . rw [Trace.send_sent, h.sendOk, hsent', List.append_assoc]
    . intro packet hmem
      rw [List.mem_append, List.mem_singleton] at hmem
      cases hmem with
      | inl hmem => exact hreceivers packet hmem
      | inr heq => exact heq ▸ hx
  parallel := h.parallel

end SameCourse

end Jeux
