import Mathlib.Data.List.Nodup
import Jeux.Lemmas.Registry
import Jeux.Lemmas.Store

/-!
The invariant of the store: the heaps, the lists and the registries agree with each other, and
every reference count is the number of references there are. It holds whatever the sends and the
allocations do.
-/

namespace Jeux

/--
Open, or a game in progress: the invitations that a client can still do something about.
-/
def Invitation.Active (i : Invitation) : Prop :=
  i.state = .openState ∨ (i.state = .acceptedState ∧ i.game ≠ none)

theorem Invitation.Active.state_or {i : Invitation} (h : i.Active)
    : i.state ≠ .closedState ∨ i.game ≠ none := by
  cases h with
  | inl hopen => exact .inl (by simp [hopen])
  | inr haccepted => exact .inr haccepted.2

namespace Store

def listed (s : Store) (client : ClientPtr) (inv : InvitationPtr) : Nat :=
  match s.clients.get? client with
  | some c => c.invitations.count inv
  | none => 0

def registered (s : Store) (client : ClientPtr) : Nat := s.clientRegistry.members.count client

def involved (s : Store) (client : ClientPtr) : Nat :=
  s.invitations.countP fun i => i.source = client ∨ i.target = client

def sessions (s : Store) (player : PlayerPtr) : Nat :=
  s.clients.countP fun c => c.loggedIn = .loggedIn ∧ c.player = some player

/--
What holds of a live client. Besides the registry and its invitations, `extra client` others hold a
reference to it.
-/
structure ClientOk (s : Store) (extra : ClientPtr → Nat) (client : ClientPtr) (c : Client)
    : Prop where
  ids : c.IdsOk
  nodup : c.invitations.Nodup
  mine : ∀ inv ∈ c.invitations, ∃ i,
    s.invitations.get? inv = some i ∧ (i.source = client ∨ i.target = client)
  refCount : c.refCount = (s.registered client + extra client + s.involved client : Nat)
  held : c.loggedIn = .loggedIn → 0 < s.registered client + extra client
  player : c.loggedIn = .loggedIn → c.player ≠ none
  known : ∀ player, c.player = some player → player ∈ s.playerRegistry.players

structure InvitationOk (s : Store) (inv : InvitationPtr) (i : Invitation) : Prop where
  distinct : i.source ≠ i.target
  roles : (i.sourceRole = .firstPlayerRole ∧ i.targetRole = .secondPlayerRole)
    ∨ (i.sourceRole = .secondPlayerRole ∧ i.targetRole = .firstPlayerRole)
  source : ∃ c, s.clients.get? i.source = some c ∧ c.player ≠ none
  target : ∃ c, s.clients.get? i.target = some c ∧ c.player ≠ none
  refCount : i.refCount = (s.listed i.source inv + s.listed i.target inv : Nat)
  game : ∀ game, i.game = some game →
    i.state ≠ .openState ∧ ∃ g, s.games.get? game = some g ∧ g.refCount = 1
  own : ∀ game inv' i', i.game = some game → s.invitations.get? inv' = some i' →
    i'.game = some game → inv' = inv

structure Valid (s : Store) (extra : ClientPtr → Nat) : Prop where
  registry : s.clientRegistry.Ok
  held_live : ∀ client, 0 < s.registered client + extra client →
    ∃ c, s.clients.get? client = some c
  client : ∀ client c, s.clients.get? client = some c → s.ClientOk extra client c
  invitation : ∀ inv i, s.invitations.get? inv = some i → s.InvitationOk inv i
  owned : ∀ game g, s.games.get? game = some g →
    ∃ inv i, s.invitations.get? inv = some i ∧ i.game = some game
  players_nodup : s.playerRegistry.players.Nodup
  player : ∀ player ∈ s.playerRegistry.players,
    ∃ p, s.players.get? player = some p ∧ p.refCount = (1 + s.sessions player : Nat)

variable {s : Store} {extra : ClientPtr → Nat}

/--
What holds between two operations besides: an invitation is in some list, and in both unless it is
closed and was never played.
-/
structure Linked (s : Store) : Prop where
  both : ∀ inv i, s.invitations.get? inv = some i →
    (i.state = .closedState ∧ i.game = none)
      ∨ (s.listed i.source inv = 1 ∧ s.listed i.target inv = 1)
  positive : ∀ inv i, s.invitations.get? inv = some i →
    0 < s.listed i.source inv + s.listed i.target inv

/--
What holds between two operations besides: an invitation that is not closed, or whose game is not
over with, is in both lists, and the participants of an active one are logged in.
-/
structure Settled (s : Store) : Prop where
  both : ∀ inv i, s.invitations.get? inv = some i →
    (i.state = .closedState ∧ i.game = none)
      ∨ (s.listed i.source inv = 1 ∧ s.listed i.target inv = 1)
  positive : ∀ inv i, s.invitations.get? inv = some i →
    0 < s.listed i.source inv + s.listed i.target inv
  online : ∀ inv i, s.invitations.get? inv = some i → i.Active →
    ∀ client c, (i.source = client ∨ i.target = client) → s.clients.get? client = some c →
      c.loggedIn = .loggedIn

theorem Settled.linked (h : s.Settled) : s.Linked := ⟨h.both, h.positive⟩

/-! ## What the counts say -/

theorem listed_of_get? {client : ClientPtr} {c : Client} {inv : InvitationPtr}
    (hc : s.clients.get? client = some c) : s.listed client inv = c.invitations.count inv := by
  simp [listed, hc]

theorem Valid.listed_eq_one (h : s.Valid extra) {client : ClientPtr} {c : Client}
    {inv : InvitationPtr} (hc : s.clients.get? client = some c) (hinv : inv ∈ c.invitations)
    : s.listed client inv = 1 := by
  rw [listed_of_get? hc]
  exact List.nodup_iff_count_eq_one.mp (h.client client c hc).nodup inv hinv

theorem mem_of_listed {client : ClientPtr} {c : Client}
    {inv : InvitationPtr} (hc : s.clients.get? client = some c) (hinv : 0 < s.listed client inv)
    : inv ∈ c.invitations := by
  rw [listed_of_get? hc] at hinv
  exact List.count_pos_iff.mp hinv

theorem Valid.listed_eq_zero (h : s.Valid extra) {client : ClientPtr} {inv : InvitationPtr}
    {i : Invitation} (hi : s.invitations.get? inv = some i) (hs : i.source ≠ client)
    (ht : i.target ≠ client) : s.listed client inv = 0 := by
  cases hc : s.clients.get? client with
  | none => simp [listed, hc]
  | some c =>
    rw [listed_of_get? hc, List.count_eq_zero]
    intro hmem
    obtain ⟨i', hi', hor⟩ := (h.client client c hc).mine inv hmem
    rw [hi] at hi'
    injection hi' with hi'
    subst hi'
    simp_all

theorem InvitationOk.state_ne_open {inv : InvitationPtr} {i : Invitation}
    (h : s.InvitationOk inv i) (hgame : i.game ≠ none) : i.state ≠ .openState := by
  obtain ⟨game, hown⟩ := Option.ne_none_iff_exists'.mp hgame
  exact (h.game game hown).1

theorem InvitationOk.game_eq_none {inv : InvitationPtr} {i : Invitation} (h : s.InvitationOk inv i)
    (hopen : i.state = .openState) : i.game = none := by
  refine Classical.byContradiction fun hne => ?_
  exact h.state_ne_open hne hopen

theorem involved_pos {inv : InvitationPtr} {i : Invitation} {client : ClientPtr}
    (hi : s.invitations.get? inv = some i) (hor : i.source = client ∨ i.target = client)
    : 0 < s.involved client := by
  unfold involved
  exact Heap.countP_pos hi (by simpa using hor)

theorem Valid.refCount_ne_one (h : s.Valid extra) {client : ClientPtr} {c : Client}
    {inv : InvitationPtr} {i : Invitation} (hc : s.clients.get? client = some c)
    (hi : s.invitations.get? inv = some i) (hor : i.source = client ∨ i.target = client)
    (hheld : 0 < s.registered client + extra client) : c.refCount ≠ 1 := by
  have := (h.client client c hc).refCount
  have := involved_pos hi hor
  omega

theorem InvitationOk.live {inv : InvitationPtr} {i : Invitation} {client : ClientPtr}
    (h : s.InvitationOk inv i) (hor : i.source = client ∨ i.target = client)
    : ∃ c, s.clients.get? client = some c ∧ c.player ≠ none := by
  cases hor with
  | inl heq => exact heq ▸ h.source
  | inr heq => exact heq ▸ h.target

theorem Linked.participant (hl : s.Linked) (hv : s.Valid extra) {client : ClientPtr}
    {inv : InvitationPtr} {i : Invitation} (hi : s.invitations.get? inv = some i)
    (hstate : i.state ≠ .closedState ∨ i.game ≠ none) (hor : i.source = client ∨ i.target = client)
    : ∃ c, s.clients.get? client = some c ∧ inv ∈ c.invitations ∧ c.player ≠ none := by
  obtain ⟨c, hc, hplayer⟩ := (hv.invitation inv i hi).live hor
  refine ⟨c, hc, ?_, hplayer⟩
  cases hl.both inv i hi with
  | inl hclosed =>
    cases hstate with
    | inl hstate => exact absurd hclosed.1 hstate
    | inr hgame => exact absurd hclosed.2 hgame
  | inr hboth =>
    apply mem_of_listed hc
    cases hor with
    | inl heq =>
      rw [← heq]
      omega
    | inr heq =>
      rw [← heq]
      omega

theorem Linked.refCount_eq_two (hl : s.Linked) (hv : s.Valid extra) {inv : InvitationPtr}
    {i : Invitation} (hi : s.invitations.get? inv = some i)
    (hstate : i.state ≠ .closedState ∨ i.game ≠ none) : i.refCount = 2 := by
  have hcount := (hv.invitation inv i hi).refCount
  obtain ⟨cs, hcs, hmems, -⟩ := hl.participant hv hi hstate (.inl rfl)
  obtain ⟨ct, hct, hmemt, -⟩ := hl.participant hv hi hstate (.inr rfl)
  have := hv.listed_eq_one hcs hmems
  have := hv.listed_eq_one hct hmemt
  omega

theorem Settled.participant (hs : s.Settled) (hv : s.Valid extra) {client : ClientPtr}
    {inv : InvitationPtr} {i : Invitation} (hi : s.invitations.get? inv = some i)
    (hactive : i.Active) (hor : i.source = client ∨ i.target = client)
    : ∃ c, s.clients.get? client = some c ∧ inv ∈ c.invitations ∧ c.loggedIn = .loggedIn
        ∧ c.player ≠ none ∧ c.refCount ≠ 1 := by
  obtain ⟨c, hc, hmem, hplayer⟩ := hs.linked.participant hv hi hactive.state_or hor
  have hin := hs.online inv i hi hactive client c hor hc
  exact ⟨c, hc, hmem, hin, hplayer,
    hv.refCount_ne_one hc hi hor ((hv.client client c hc).held hin)⟩

theorem Valid.invitationOf (h : s.Valid extra) {client : ClientPtr} {id : Int} {inv : InvitationPtr}
    (hid : s.invitationOf client id = some inv)
    : ∃ c i, s.clients.get? client = some c ∧ inv ∈ c.invitations
        ∧ s.invitations.get? inv = some i ∧ (i.source = client ∨ i.target = client) := by
  unfold Store.invitationOf at hid
  rw [Option.bind_eq_some_iff] at hid
  obtain ⟨c, hc, hnode⟩ := hid
  rw [Option.map_eq_some_iff] at hnode
  obtain ⟨node, hnode, rfl⟩ := hnode
  have hmem : node.invitation ∈ c.invitations :=
    List.mem_map_of_mem (List.mem_of_find?_eq_some hnode)
  obtain ⟨i, hi, hor⟩ := (h.client client c hc).mine _ hmem
  exact ⟨c, i, hc, hmem, hi, hor⟩

theorem Valid.player_live (h : s.Valid extra) {client : ClientPtr} {c : Client} {player : PlayerPtr}
    (hc : s.clients.get? client = some c) (hplayer : c.player = some player)
    : ∃ p, s.players.get? player = some p := by
  obtain ⟨p, hp, -⟩ := h.player player ((h.client client c hc).known player hplayer)
  exact ⟨p, hp⟩

end Store

end Jeux
