import Jeux.Lemmas.Run

/-!
What taking and giving back a reference does.
-/

namespace Jeux

open ServerM

namespace Store

def release (s : Store) (inv : InvitationPtr) (i : Invitation) : Store :=
  { s with
    clients := (s.clients.modify i.source Client.dropRef).modify i.target Client.dropRef
    invitations := s.invitations.free inv
    games :=
      match i.game with
      | some game => (s.games.modify game Game.dropRef).free game
      | none => s.games }

end Store

variable {env : Env} {w : World}

theorem clientRef_run {client : ClientPtr} {c : Client}
    (hc : w.store.clients.get? client = some c)
    : (clientRef client).run env w
        =
      .ok ((), { w with store := w.store.modifyClient client Client.addRef }) := by
  simp [clientRef, hc]

theorem clientUnref_run {client : ClientPtr} {c : Client}
    (hc : w.store.clients.get? client = some c) (href : c.refCount ≠ 1)
    : (clientUnref client).run env w
        =
      .ok ((), { w with store := w.store.modifyClient client Client.dropRef }) := by
  have : c.refCount - 1 ≠ 0 := by omega
  simp [clientUnref, hc, this]

theorem clientUnref_run_last {client : ClientPtr} {c : Client}
    (hc : w.store.clients.get? client = some c) (href : c.refCount = 1)
    (hout : c.loggedIn = .loggedOut)
    : (clientUnref client).run env w
        =
      .ok ((), { w with store :=
        { w.store with clients := (w.store.clients.modify client Client.dropRef).free client } }) := by
  have : c.refCount - 1 = 0 := by omega
  simp [clientUnref, hc, this, hout, Store.modifyClient]

theorem playerRef_run {player : PlayerPtr} {p : Player}
    (hp : w.store.players.get? player = some p)
    : (playerRef player).run env w
        =
      .ok ((), { w with store := w.store.modifyPlayer player Player.addRef }) := by
  simp [playerRef, hp]

theorem playerUnref_run {player : PlayerPtr} {p : Player}
    (hp : w.store.players.get? player = some p) (href : p.refCount ≠ 1)
    : (playerUnref player).run env w
        =
      .ok ((), { w with store := w.store.modifyPlayer player Player.dropRef }) := by
  have : p.refCount - 1 ≠ 0 := by omega
  simp [playerUnref, hp, this]

theorem invRef_run {inv : InvitationPtr} {i : Invitation}
    (hi : w.store.invitations.get? inv = some i)
    : (invRef inv).run env w
        =
      .ok ((), { w with store := w.store.modifyInvitation inv Invitation.addRef }) := by
  simp [invRef, hi]

theorem gameUnref_run {game : GamePtr} {g : Game} (hg : w.store.games.get? game = some g)
    (href : g.refCount = 1)
    : (gameUnref game).run env w
        =
      .ok ((), { w with store :=
        { w.store with games := (w.store.games.modify game Game.dropRef).free game } }) := by
  have : g.refCount - 1 = 0 := by omega
  simp [gameUnref, hg, this, Store.modifyGame]

theorem invUnref_run {inv : InvitationPtr} {i : Invitation}
    (hi : w.store.invitations.get? inv = some i) (href : i.refCount ≠ 1)
    : (invUnref inv).run env w
        =
      .ok ((), { w with store := w.store.modifyInvitation inv Invitation.dropRef }) := by
  have : i.refCount - 1 ≠ 0 := by omega
  simp [invUnref, hi, this]

theorem invUnref_run_last {inv : InvitationPtr} {i : Invitation} {source target : Client}
    (hi : w.store.invitations.get? inv = some i) (href : i.refCount = 1)
    (hgame : ∀ game, i.game = some game → ∃ g, w.store.games.get? game = some g ∧ g.refCount = 1)
    (hne : i.source ≠ i.target)
    (hs : w.store.clients.get? i.source = some source) (hsref : source.refCount ≠ 1)
    (ht : w.store.clients.get? i.target = some target) (htref : target.refCount ≠ 1)
    : (invUnref inv).run env w
        =
      .ok ((), { w with store :=
        (w.store.modifyInvitation inv Invitation.dropRef).release inv i }) := by
  have hzero : i.refCount - 1 = 0 := by omega
  cases hg : i.game with
  | none =>
    simp [invUnref, hi, hzero, hg, hs, ht, hne.symm, clientUnref_run (c := source), hsref,
      clientUnref_run (c := target), htref, Store.release, Store.modifyClient]
  | some game =>
    obtain ⟨g, hget, hgref⟩ := hgame game hg
    simp [invUnref, hi, hzero, hg, hs, ht, hne.symm, gameUnref_run (g := g), hget, hgref,
      clientUnref_run (c := source), hsref, clientUnref_run (c := target), htref, Store.release,
      Store.modifyClient]

theorem invUnref_run_orphan (env : Env) {inv : InvitationPtr} {i : Invitation} {client opponent : ClientPtr}
    {c co : Client} (hi : w.store.invitations.get? inv = some i) (href : i.refCount = 1)
    (hgame : ∀ game, i.game = some game → ∃ g, w.store.games.get? game = some g ∧ g.refCount = 1)
    (hne : client ≠ opponent)
    (hends : (i.source = client ∧ i.target = opponent) ∨ (i.source = opponent ∧ i.target = client))
    (hc : w.store.clients.get? client = some c) (hone : c.refCount = 1)
    (hout : c.loggedIn = .loggedOut) (hco : w.store.clients.get? opponent = some co)
    (hkeep : co.refCount ≠ 1)
    : ∃ w', (invUnref inv).run env w = .ok ((), w') ∧ w'.store.clients.get? client = none := by
  have hzero : i.refCount - 1 = 0 := by omega
  cases hg : i.game with
  | none =>
    rcases hends with ⟨hs, ht⟩ | ⟨hs, ht⟩
    . simp [invUnref, hi, hzero, hg, hs, ht, hc, hco, hne, hne.symm, hone, hout, hkeep,
        clientUnref_run_last (c := c), clientUnref_run (c := co)]
    . simp [invUnref, hi, hzero, hg, hs, ht, hc, hco, hne, hone, hout, hkeep,
        clientUnref_run_last (c := c), clientUnref_run (c := co)]
  | some game =>
    obtain ⟨g, hget, hgref⟩ := hgame game hg
    rcases hends with ⟨hs, ht⟩ | ⟨hs, ht⟩
    . simp [invUnref, hi, hzero, hg, hs, ht, hc, hco, hne, hne.symm, hone, hout, hkeep,
        clientUnref_run_last (c := c), clientUnref_run (c := co), gameUnref_run (g := g), hget, hgref]
    . simp [invUnref, hi, hzero, hg, hs, ht, hc, hco, hne, hone, hout, hkeep,
        clientUnref_run_last (c := c), clientUnref_run (c := co), gameUnref_run (g := g), hget, hgref]

end Jeux
