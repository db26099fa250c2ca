import Jeux.Lemmas.Settled
import Jeux.Lemmas.Invite
import Jeux.Lemmas.Play

/-!
Everything that one operation on an invitation or a game can do, in one relation. What holds of all
operations is proved by going through its cases.
-/

namespace Jeux

open ServerM

inductive Operation where
  | make (target : ClientPtr) (sourceRole targetRole : GameRole)
  | revoke (id : Int)
  | decline (id : Int)
  | accept (id : Int)
  | resign (id : Int)
  | move (id : Int) (text : CString)
  deriving DecidableEq, Repr

def Operation.call (client : ClientPtr) : Operation → ServerM Int
  | .make target sourceRole targetRole => clientMakeInvitation client target sourceRole targetRole
  | .revoke id => clientRevokeInvitation client id
  | .decline id => clientDeclineInvitation client id
  | .accept id => do return (← clientAcceptInvitation client id).1
  | .resign id => clientResignGame client id
  | .move id text => clientMakeMove client id text

/--
What holds when the server calls an operation: the client is registered, it is logged in if it has
a player, and it invites somebody else who is logged in, to play the other role.
-/
structure Store.Callable (s : Store) (client : ClientPtr) (op : Operation) : Prop where
  registered : 0 < s.registered client
  session : ∀ c, s.clients.get? client = some c → c.player ≠ none → c.loggedIn = .loggedIn
  invited : ∀ target sourceRole targetRole, op = .make target sourceRole targetRole →
    target ≠ client ∧ (∃ c, s.clients.get? target = some c ∧ c.loggedIn = .loggedIn)
      ∧ ((sourceRole = .firstPlayerRole ∧ targetRole = .secondPlayerRole)
        ∨ (sourceRole = .secondPlayerRole ∧ targetRole = .firstPlayerRole))

/--
What is enough for the operation to leave a valid store: the client is referred to, and the one it
invites is somebody else who has had a player.
-/
structure Store.Allowed (s : Store) (extra : ClientPtr → Nat) (client : ClientPtr) (op : Operation)
    : Prop where
  held : 0 < s.registered client + extra client
  invited : ∀ target sourceRole targetRole, op = .make target sourceRole targetRole →
    target ≠ client ∧ (∃ c, s.clients.get? target = some c ∧ c.player ≠ none)
      ∧ ((sourceRole = .firstPlayerRole ∧ targetRole = .secondPlayerRole)
        ∨ (sourceRole = .secondPlayerRole ∧ targetRole = .firstPlayerRole))

theorem Store.Callable.allowed {s : Store} {extra : ClientPtr → Nat} {client : ClientPtr}
    {op : Operation} (h : s.Callable client op) (hv : s.Valid extra) : s.Allowed extra client op where
  held := Nat.lt_of_lt_of_le h.registered (Nat.le_add_right _ _)
  invited := by
    intro target sourceRole targetRole hop
    obtain ⟨hne, ⟨c, hc, hin⟩, hroles⟩ := h.invited target sourceRole targetRole hop
    exact ⟨hne, ⟨c, hc, (hv.client target c hc).player hin⟩, hroles⟩

structure Store.Open (s : Store) (client : ClientPtr) (id : Int) (inv : InvitationPtr)
    (i : Invitation) : Prop where
  named : s.invitationOf client id = some inv
  invitation : s.invitations.get? inv = some i
  state : i.state = .openState

structure Store.Playing (s : Store) (client : ClientPtr) (id : Int) (inv : InvitationPtr)
    (i : Invitation) (game : GamePtr) : Prop where
  named : s.invitationOf client id = some inv
  invitation : s.invitations.get? inv = some i
  state : i.state = .acceptedState
  owned : i.game = some game

section

variable (env : Env) (w : World) (client : ClientPtr)

def Operation.Granted : Operation → Prop
  | .make _ _ _ => env.allocOk w.trace.allocs = true
  | .revoke id => ∃ inv i, w.store.Open client id inv i
  | .decline id => ∃ inv i, w.store.Open client id inv i
  | .accept id => ∃ inv i, w.store.Open client id inv i ∧ i.target = client
  | .resign id => ∃ inv i game, w.store.Playing client id inv i game
  | .move id text => env.allocOk w.trace.allocs = true
      ∧ ∃ inv i game g move, w.store.Move client id text inv i game g move

def endedOnce (opponent : ClientPtr) (inv : InvitationPtr) (winner : GameRole) (w : World) : World :=
  w.ended env opponent (endedPacket env w (w.store.idOf opponent inv) winner)

def endedTwice (opponent : ClientPtr) (inv : InvitationPtr) (id : Int) (winner : GameRole)
    (w : World) : World :=
  (endedOnce env opponent inv winner w).ended env client
    { endedPacket env w (w.store.idOf opponent inv) winner with id := UInt8.ofInt id }

/--
`Effect env w client op r w'`: called by `client`, `op` can return `r` and leave `w'`.
-/
inductive Effect : Operation → Int → World → Prop
  | refused (op : Operation) (n : Nat) (h : ¬ op.Granted env w client)
      : Effect op (-1) { w with trace.allocs := n }
  | made {target : ClientPtr} {cs ct : Client} {sourceRole targetRole : GameRole}
      {player : PlayerPtr} {p : Player} (n : Nat)
      (halloc : env.allocOk w.trace.allocs = true)
      (hcs : w.store.clients.get? client = some cs) (hct : w.store.clients.get? target = some ct)
      (hplayer : cs.player = some player) (hp : w.store.players.get? player = some p)
      : Effect (.make target sourceRole targetRole) cs.nextId {
          store := w.store.invite client target sourceRole targetRole
          trace := Trace.send { w.trace with allocs := n } env target
            (invitedPacket env w ct targetRole p.name) (some p.name) }
  | revokeUnsent {id : Int} {inv : InvitationPtr} {i : Invitation}
      (h : w.store.Open client id inv i) (hsend : env.sendOk w.trace.sent.length = false)
      : Effect (.revoke id) (-1) {
          store := w.store.close inv
          trace := w.trace.send env i.target (noticeOf env w .revoked i.target inv) none }
  | revoked {id : Int} {inv : InvitationPtr} {i : Invitation} (h : w.store.Open client id inv i)
      (hsource : i.source = client) (hsend : env.sendOk w.trace.sent.length = true)
      : Effect (.revoke id) 0 {
          store := (w.store.close inv).dissolve client i.target inv
          trace := w.trace.send env i.target (noticeOf env w .revoked i.target inv) none }
  | revokedByTarget {id : Int} {inv : InvitationPtr} {i : Invitation}
      (h : w.store.Open client id inv i) (htarget : i.target = client)
      (hsend : env.sendOk w.trace.sent.length = true)
      : Effect (.revoke id) (-1) {
          store := (w.store.close inv).drop client inv
          trace := w.trace.send env client (noticeOf env w .revoked client inv) none }
  | declined {id : Int} {inv : InvitationPtr} {i : Invitation} (h : w.store.Open client id inv i)
      (htarget : i.target = client)
      : Effect (.decline id) 0 {
          store := (w.store.close inv).dissolve client i.source inv
          trace := w.trace.send env i.source (noticeOf env w .declined i.source inv) none }
  | declinedBySource {id : Int} {inv : InvitationPtr} {i : Invitation}
      (h : w.store.Open client id inv i) (hsource : i.source = client)
      : Effect (.decline id) 0 {
          store := (w.store.close inv).drop client inv
          trace := w.trace.send env client (noticeOf env w .declined client inv) none }
  | acceptNoRoom {id : Int} {inv : InvitationPtr} {i : Invitation}
      (h : w.store.Open client id inv i) (htarget : i.target = client)
      (halloc : env.allocOk w.trace.allocs = false)
      : Effect (.accept id) (-1) {
          store := w.store.acceptFailed inv
          trace := { w.trace with allocs := w.trace.allocs + 1 } }
  | accepted {id : Int} {inv : InvitationPtr} {i : Invitation} (h : w.store.Open client id inv i)
      (htarget : i.target = client) (halloc : env.allocOk w.trace.allocs = true)
      : Effect (.accept id) (if env.sendOk w.trace.sent.length then 0 else -1) {
          store := w.store.accept inv
          trace := Trace.send { w.trace with allocs := w.trace.allocs + 1 } env i.source
            (acceptedPacket env w inv i) (acceptTexts i).1 }
  | resignUnsent {id : Int} {inv : InvitationPtr} {i : Invitation} {game : GamePtr}
      (h : w.store.Playing client id inv i game) (hsend : env.sendOk w.trace.sent.length = false)
      : Effect (.resign id) (-1) {
          store := w.store.resign inv game (i.roleOf client)
          trace := w.trace.send env (i.opponentOf client)
            (noticeOf env w .resigned (i.opponentOf client) inv) none }
  | resigned {id : Int} {inv : InvitationPtr} {i : Invitation} {game : GamePtr} {c co : Client}
      {player playero : PlayerPtr} (h : w.store.Playing client id inv i game)
      (hc : w.store.clients.get? client = some c)
      (hco : w.store.clients.get? (i.opponentOf client) = some co)
      (hplayer : c.player = some player) (hplayero : co.player = some playero)
      (hsend : env.sendOk w.trace.sent.length = true)
      : Effect (.resign id) 0 (World.conclude
          { store := w.store.resign inv game (i.roleOf client)
            trace := w.trace.send env (i.opponentOf client)
              (noticeOf env w .resigned (i.opponentOf client) inv) none }
          env client (i.opponentOf client) inv
          (resultOf (i.roleOf client) player playero (i.roleOf (i.opponentOf client))))
  | moveUnsent {id : Int} {text : CString} {inv : InvitationPtr} {i : Invitation} {game : GamePtr}
      {g : Game} {move : GameMove} (h : w.store.Move client id text inv i game g move)
      (hsend : env.sendOk w.trace.sent.length = false)
      (halloc : env.allocOk w.trace.allocs = true)
      : Effect (.move id text) (-1) (w.moved env (i.opponentOf client) inv game g move)
  | moved {id : Int} {text : CString} {inv : InvitationPtr} {i : Invitation} {game : GamePtr}
      {g : Game} {move : GameMove} (h : w.store.Move client id text inv i game g move)
      (hsend : env.sendOk w.trace.sent.length = true)
      (hover : (gameApplyMove g move).2.isOver = false)
      (halloc : env.allocOk w.trace.allocs = true)
      : Effect (.move id text) 0 (w.moved env (i.opponentOf client) inv game g move)
  | endUnsent {id : Int} {text : CString} {inv : InvitationPtr} {i : Invitation} {game : GamePtr}
      {g : Game} {move : GameMove} (h : w.store.Move client id text inv i game g move)
      (hsend : env.sendOk w.trace.sent.length = true)
      (hover : (gameApplyMove g move).2.isOver = true)
      (hend : env.sendOk (w.trace.sent.length + 1) = false)
      (halloc : env.allocOk w.trace.allocs = true)
      : Effect (.move id text) (-1) (endedOnce env (i.opponentOf client) inv
          (gameApplyMove g move).2.winner (w.moved env (i.opponentOf client) inv game g move))
  | endUnsentSelf {id : Int} {text : CString} {inv : InvitationPtr} {i : Invitation}
      {game : GamePtr} {g : Game} {move : GameMove}
      (h : w.store.Move client id text inv i game g move)
      (hsend : env.sendOk w.trace.sent.length = true)
      (hover : (gameApplyMove g move).2.isOver = true)
      (hend : env.sendOk (w.trace.sent.length + 1) = true)
      (hself : env.sendOk (w.trace.sent.length + 2) = false)
      (halloc : env.allocOk w.trace.allocs = true)
      : Effect (.move id text) (-1) (endedTwice env client (i.opponentOf client) inv id
          (gameApplyMove g move).2.winner (w.moved env (i.opponentOf client) inv game g move))
  | finished {id : Int} {text : CString} {inv : InvitationPtr} {i : Invitation} {game : GamePtr}
      {g : Game} {move : GameMove} {c co : Client} {player playero : PlayerPtr}
      (h : w.store.Move client id text inv i game g move)
      (hc : w.store.clients.get? client = some c)
      (hco : w.store.clients.get? (i.opponentOf client) = some co)
      (hplayer : c.player = some player) (hplayero : co.player = some playero)
      (hsend : env.sendOk w.trace.sent.length = true)
      (hover : (gameApplyMove g move).2.isOver = true)
      (hend : env.sendOk (w.trace.sent.length + 1) = true)
      (hself : env.sendOk (w.trace.sent.length + 2) = true)
      (halloc : env.allocOk w.trace.allocs = true)
      : Effect (.move id text) 0 (World.conclude
          (endedTwice env client (i.opponentOf client) inv id (gameApplyMove g move).2.winner
            (w.moved env (i.opponentOf client) inv game g move))
          env client (i.opponentOf client) inv
          (resultOf (i.roleOf client) player playero (gameApplyMove g move).2.winner))

end

variable {env : Env} {w w' : World} {extra : ClientPtr → Nat} {client : ClientPtr} {r : Int}

def Store.Orphan (s : Store) (client : ClientPtr) (id : Int) : Prop :=
  ∃ inv i c, s.invitationOf client id = some inv ∧ s.invitations.get? inv = some i ∧ i.Active
    ∧ s.clients.get? (i.opponentOf client) = some c ∧ c.refCount = 1

theorem Store.Settled.not_orphan {s : Store} (hs : s.Settled) (hv : s.Valid extra) (id : Int)
    : ¬ s.Orphan client id := by
  rintro ⟨inv, i, co, hid, hi, hactive, hco, hone⟩
  obtain ⟨-, i', -, -, hi', hor⟩ := hv.invitationOf hid
  obtain rfl := Option.some.inj (hi.symm.trans hi')
  obtain ⟨co', hco', -, -, -, hkeep⟩ := hs.participant hv hi hactive (opponentOf_or hor)
  obtain rfl := Option.some.inj (hco.symm.trans hco')
  exact hkeep hone

structure Returned (env : Env) (w : World) (client : ClientPtr) (op : Operation) (r : Int)
    (w' : World) : Prop where
  effect : Effect env w client op r w'
  counted : w.store.Counted → w'.store.Counted

theorem Effect.returned {op : Operation} (h : Effect env w client op r w')
    (hclients : w'.store.clients = w.store.clients) : Returned env w client op r w' where
  effect := h
  counted := fun hcounted => hcounted.congr hclients

theorem Store.Open.closed {id : Int} {inv : InvitationPtr} {i : Invitation}
    (h : w.store.Open client id inv i)
    : (w.store.close inv).invitations.get? inv = some { i with state := .closedState } := by
  simp [h.invitation]

theorem Store.Open.refCount {id : Int} {inv : InvitationPtr} {i : Invitation}
    (h : w.store.Open client id inv i) (hv : w.store.Valid extra) (hl : w.store.Linked)
    : i.refCount = 2 :=
  hl.refCount_eq_two hv h.invitation (.inl (by simp [h.state]))

theorem Store.Playing.refCount {id : Int} {inv : InvitationPtr} {i : Invitation} {game : GamePtr}
    (h : w.store.Playing client id inv i game) (hv : w.store.Valid extra) (hl : w.store.Linked)
    : i.refCount = 2 :=
  hl.refCount_eq_two hv h.invitation (.inr (by simp [h.owned]))

theorem Store.Counted.conclude {opponent : ClientPtr} {inv : InvitationPtr} {i : Invitation}
    {c co : Client} (h : w.store.Counted) (hi : w.store.invitations.get? inv = some i)
    (href : i.refCount = 2) (hdistinct : i.source ≠ i.target)
    (hends : (i.source = client ∧ i.target = opponent) ∨ (i.source = opponent ∧ i.target = client))
    (hc : w.store.clients.get? client = some c) (hkeep : c.refCount ≠ 1)
    (hco : w.store.clients.get? opponent = some co) (hkeepo : co.refCount ≠ 1)
    (result : PostedResult) : (w.conclude env client opponent inv result).store.Counted := by
  have hne : opponent ≠ client := by
    intro heq
    rcases hends with hends | hends
    . exact hdistinct (hends.1.trans (heq.symm.trans hends.2.symm))
    . exact hdistinct (hends.1.trans (heq.trans hends.2.symm))
  have hpost := Store.post_clients (s := w.store) env.expected result
  have hi' : (w.store.post env.expected result).invitations.get? inv = some i := by
    rw [Store.post_invitations, hi]
  exact (h.congr hpost).dissolve hi' href hne hends (by rw [hpost, hc]) hkeep (by rw [hpost, hco])
    hkeepo

structure EndsGame (env : Env) (w : World) (g : Game) (move : GameMove) : Prop where
  sent : env.sendOk w.trace.sent.length = true
  finished : (gameApplyMove g move).2.isOver = true
  ended : env.sendOk (w.trace.sent.length + 1) = true
  endedSelf : env.sendOk (w.trace.sent.length + 2) = true

/--
How an operation on an invitation can end: it returns, or the opponent goes away while the operation
still needs it.
-/
inductive Outcome (env : Env) (w : World) (client : ClientPtr) (op : Operation) (id : Int)
    : Except Fault (Int × World) → Prop
  | returns {r : Int} {w' : World} (hreturned : Returned env w client op r w')
      : Outcome env w client op id (.ok (r, w'))
  | orphaned (horphan : w.store.Orphan client id)
      : Outcome env w client op id (.error .useAfterFree)
  | stranded {text : CString} {inv : InvitationPtr} {i : Invitation} {game : GamePtr} {g : Game}
      {move : GameMove} {co : Client} (hop : op = .move id text)
      (hmove : w.store.Move client id text inv i game g move)
      (hco : w.store.clients.get? (i.opponentOf client) = some co) (hone : co.refCount = 1)
      (hends : EndsGame env w g move) (halloc : env.allocOk w.trace.allocs = true)
      : Outcome env w client op id (.error .useAfterFree)

section Outcome

variable {op : Operation} {id : Int} {x : Except Fault (Int × World)}

theorem Outcome.returned (h : Outcome env w client op id x) (hx : x = .ok (r, w'))
    : Returned env w client op r w' := by
  subst hx
  cases h with
  | returns hreturned => exact hreturned

theorem Outcome.settled (h : Outcome env w client op id x) (hv : w.store.Valid extra)
    (hs : w.store.Settled) (hop : ∀ text, op ≠ .move id text)
    : ∃ r w', x = .ok (r, w') ∧ Effect env w client op r w' := by
  cases h with
  | returns hreturned => exact ⟨_, _, rfl, hreturned.effect⟩
  | orphaned horphan => exact absurd horphan (hs.not_orphan hv id)
  | stranded hmove => exact absurd hmove (hop _)

end Outcome

theorem Operation.returned_make {target : ClientPtr} {sourceRole targetRole : GameRole}
    (hv : w.store.Valid extra)
    (hcall : w.store.Allowed extra client (.make target sourceRole targetRole))
    (hrun : (clientMakeInvitation client target sourceRole targetRole).run env w = .ok (r, w'))
    : Returned env w client (.make target sourceRole targetRole) r w' := by
  obtain ⟨hne, ⟨ct, hct, -⟩, -⟩ := hcall.invited target sourceRole targetRole rfl
  obtain ⟨cs, hcs⟩ := hv.held_live client hcall.held
  cases halloc : env.allocOk w.trace.allocs with
  | false =>
    rw [clientMakeInvitation_run_no_room hcs hct hne.symm halloc, Except.ok.injEq,
      Prod.mk.injEq] at hrun
    obtain ⟨rfl, rfl⟩ := hrun
    exact Effect.returned (.refused _ _ (by simp [Operation.Granted, halloc])) rfl
  | true =>
    cases hplayer : cs.player with
    | none =>
      rw [clientMakeInvitation_run_no_player hv hcs hct hne.symm hplayer halloc] at hrun
      simp at hrun
    | some player =>
      obtain ⟨p, hp⟩ := hv.player_live hcs hplayer
      rw [clientMakeInvitation_run hv hcs hct hne.symm hplayer hp halloc] at hrun
      split at hrun
      . simp at hrun
      . rw [Except.ok.injEq, Prod.mk.injEq] at hrun
        obtain ⟨rfl, rfl⟩ := hrun
        exact ⟨.made _ halloc hcs hct hplayer hp,
          fun hcounted => hcounted.invite hne.symm sourceRole targetRole⟩

theorem Operation.outcome_revoke (env : Env) (id : Int) (hv : w.store.Valid extra)
    (hl : w.store.Linked) (hheld : 0 < w.store.registered client + extra client)
    : Outcome env w client (.revoke id) id ((clientRevokeInvitation client id).run env w) := by
  obtain ⟨c, hc⟩ := hv.held_live client hheld
  by_cases hopen : ∃ inv i, w.store.Open client id inv i
  . obtain ⟨inv, i, hopen⟩ := hopen
    obtain ⟨-, i', -, -, hi', hor⟩ := hv.invitationOf hopen.named
    obtain rfl := Option.some.inj (hopen.invitation.symm.trans hi')
    cases hsend : env.sendOk w.trace.sent.length with
    | false =>
      rw [clientRevokeInvitation_run_unsent hv hopen.named hopen.invitation hopen.state hsend]
      exact .returns (Effect.returned (.revokeUnsent hopen hsend) rfl)
    | true =>
      cases hor with
      | inl hsource =>
        obtain ⟨ct, hct, -⟩ := (hv.invitation inv i hopen.invitation).target
        rw [clientRevokeInvitation_run hv hl hheld hopen.named hopen.invitation hopen.state hsource
          hct hsend]
        split
        . next hone =>
          refine .orphaned ⟨inv, i, ct, hopen.named, hopen.invitation, .inl hopen.state, ?_, hone⟩
          rwa [Invitation.opponentOf, if_pos hsource]
        . next hkeept =>
          refine .returns ⟨.revoked hopen hsource hsend, ?_⟩
          intro hcounted
          have hok := hv.invitation inv i hopen.invitation
          have hclosed : (w.store.close inv).Counted := hcounted.congr rfl
          exact hclosed.dissolve hopen.closed
            (hopen.refCount hv hl)
            (by rw [← hsource]; exact hok.distinct.symm) (.inl ⟨hsource, rfl⟩) hc
            (hv.refCount_ne_one hc hopen.invitation (.inl hsource) hheld) hct hkeept
      | inr htarget =>
        rw [clientRevokeInvitation_run_target hv hl hopen.named hopen.invitation hopen.state htarget
          hsend]
        refine .returns ⟨.revokedByTarget hopen htarget hsend, ?_⟩
        intro hcounted
        have hclosed : (w.store.close inv).Counted := hcounted.congr rfl
        exact hclosed.drop hopen.closed
          (hopen.refCount hv hl)
  . rw [clientRevokeInvitation_run_refused hv hc
      (fun inv i hid hi hstate => hopen ⟨inv, i, hid, hi, hstate⟩)]
    exact .returns (Effect.returned (.refused _ _ hopen) rfl)

theorem Operation.outcome_decline (env : Env) (id : Int) (hv : w.store.Valid extra)
    (hl : w.store.Linked) (hheld : 0 < w.store.registered client + extra client)
    : Outcome env w client (.decline id) id ((clientDeclineInvitation client id).run env w) := by
  obtain ⟨c, hc⟩ := hv.held_live client hheld
  by_cases hopen : ∃ inv i, w.store.Open client id inv i
  . obtain ⟨inv, i, hopen⟩ := hopen
    obtain ⟨-, i', -, -, hi', hor⟩ := hv.invitationOf hopen.named
    obtain rfl := Option.some.inj (hopen.invitation.symm.trans hi')
    cases hor with
    | inl hsource =>
      rw [clientDeclineInvitation_run_source hv hl hopen.named hopen.invitation hopen.state hsource]
      refine .returns ⟨.declinedBySource hopen hsource, ?_⟩
      intro hcounted
      have hclosed : (w.store.close inv).Counted := hcounted.congr rfl
      exact hclosed.drop hopen.closed
        (hopen.refCount hv hl)
    | inr htarget =>
      have hok := hv.invitation inv i hopen.invitation
      obtain ⟨cs, hcs, -⟩ := hok.source
      rw [clientDeclineInvitation_run hv hl hheld hopen.named hopen.invitation hopen.state htarget
        hcs]
      split
      . next hone =>
        refine .orphaned ⟨inv, i, cs, hopen.named, hopen.invitation, .inl hopen.state, ?_, hone⟩
        rwa [hok.opponentOf_target htarget]
      . next hkeeps =>
        refine .returns ⟨.declined hopen htarget, ?_⟩
        intro hcounted
        have hclosed : (w.store.close inv).Counted := hcounted.congr rfl
        exact hclosed.dissolve hopen.closed
          (hopen.refCount hv hl)
          (by rw [← htarget]; exact hok.distinct) (.inr ⟨rfl, htarget⟩) hc
          (hv.refCount_ne_one hc hopen.invitation (.inr htarget) hheld) hcs hkeeps
  . rw [clientDeclineInvitation_run_refused hv hc
      (fun inv i hid hi hstate => hopen ⟨inv, i, hid, hi, hstate⟩)]
    exact .returns (Effect.returned (.refused _ _ hopen) rfl)

theorem Operation.outcome_resign (env : Env) (id : Int) (hv : w.store.Valid extra)
    (hl : w.store.Linked) (hheld : 0 < w.store.registered client + extra client)
    : Outcome env w client (.resign id) id ((clientResignGame client id).run env w) := by
  obtain ⟨c, hc⟩ := hv.held_live client hheld
  by_cases hplay : ∃ inv i game, w.store.Playing client id inv i game
  . obtain ⟨inv, i, game, hplay⟩ := hplay
    obtain ⟨-, i', -, -, hi', hor⟩ := hv.invitationOf hplay.named
    obtain rfl := Option.some.inj (hplay.invitation.symm.trans hi')
    cases hsend : env.sendOk w.trace.sent.length with
    | false =>
      rw [clientResignGame_run_unsent hv hplay.named hplay.invitation hplay.state hplay.owned hsend]
      exact .returns (Effect.returned (.resignUnsent hplay hsend) rfl)
    | true =>
      have hok := hv.invitation inv i hplay.invitation
      obtain ⟨c', hc', hplayer⟩ := hok.live hor
      obtain ⟨co, hco, hplayero⟩ := hok.live (opponentOf_or hor)
      obtain ⟨player, hplayer⟩ := Option.ne_none_iff_exists'.mp hplayer
      obtain ⟨playero, hplayero⟩ := Option.ne_none_iff_exists'.mp hplayero
      rw [clientResignGame_run hv hl hheld hplay.named hplay.invitation hplay.state hplay.owned hc'
        hco hplayer hplayero hsend]
      split
      . next hone =>
        exact .orphaned ⟨inv, i, co, hplay.named, hplay.invitation,
          .inr ⟨hplay.state, by simp [hplay.owned]⟩, hco, hone⟩
      . next hkeepo =>
        refine .returns ⟨.resigned hplay hc' hco hplayer hplayero hsend, ?_⟩
        intro hcounted
        have hi : (w.store.resign inv game (i.roleOf client)).invitations.get? inv
            = some { i with state := .closedState } := by simp [hplay.invitation]
        exact Store.Counted.conclude
          (w := { store := w.store.resign inv game (i.roleOf client), trace := _ })
          (hcounted.congr rfl) hi (hplay.refCount hv hl) hok.distinct (opponentOf_ends hor) hc'
          (hv.refCount_ne_one hc' hplay.invitation hor hheld) hco hkeepo _
  . have hno : ∀ inv i, w.store.invitationOf client id = some inv →
        w.store.invitations.get? inv = some i → i.state ≠ .acceptedState ∨ i.game = none := by
      intro inv i hid hi
      cases hgame : i.game with
      | none => exact .inr rfl
      | some game => exact .inl fun hstate => hplay ⟨inv, i, game, hid, hi, hstate, hgame⟩
    rw [clientResignGame_run_refused hv hc hno]
    exact .returns (Effect.returned (.refused _ _ hplay) rfl)

theorem Operation.run_accept (env : Env) (id : Int) (hv : w.store.Valid extra)
    (hheld : 0 < w.store.registered client + extra client)
    : ∃ r w' state, (clientAcceptInvitation client id).run env w = .ok ((r, state), w')
        ∧ Returned env w client (.accept id) r w' := by
  obtain ⟨c, hc⟩ := hv.held_live client hheld
  by_cases hopen : ∃ inv i, w.store.Open client id inv i ∧ i.target = client
  . obtain ⟨inv, i, hopen, htarget⟩ := hopen
    cases halloc : env.allocOk w.trace.allocs with
    | false =>
      exact ⟨_, _, _, clientAcceptInvitation_run_no_room hopen.named hc hopen.invitation hopen.state
        htarget halloc, Effect.returned (.acceptNoRoom hopen htarget halloc) rfl⟩
    | true =>
      exact ⟨_, _, _, clientAcceptInvitation_run hv hopen.named hopen.invitation hopen.state htarget
        halloc, Effect.returned (.accepted hopen htarget halloc) rfl⟩
  . exact ⟨_, _, _, clientAcceptInvitation_run_refused hv hc (fun inv i hid hi htarget hstate =>
      hopen ⟨inv, i, ⟨hid, hi, hstate⟩, htarget⟩), Effect.returned (.refused _ _ hopen) rfl⟩

theorem clientMakeMove_run_ends {id : Int} {text : CString} {inv : InvitationPtr} {i : Invitation}
    {game : GamePtr} {g : Game} {move : GameMove} (hv : w.store.Valid extra) (hl : w.store.Linked)
    (hheld : 0 < w.store.registered client + extra client)
    (hmove : w.store.Move client id text inv i game g move) (hends : EndsGame env w g move)
    (halloc : env.allocOk w.trace.allocs = true)
    : ∃ c co player playero, w.store.clients.get? client = some c
        ∧ w.store.clients.get? (i.opponentOf client) = some co ∧ c.player = some player
        ∧ co.player = some playero
        ∧ (clientMakeMove client id text).run env w
            =
          if co.refCount = 1 then
            .error .useAfterFree
          else
            .ok (0, World.conclude
              (endedTwice env client (i.opponentOf client) inv id (gameApplyMove g move).2.winner
                (w.moved env (i.opponentOf client) inv game g move))
              env client (i.opponentOf client) inv
              (resultOf (i.roleOf client) player playero (gameApplyMove g move).2.winner)) := by
  obtain ⟨-, i', -, -, hi', hor⟩ := hv.invitationOf hmove.named
  obtain rfl := Option.some.inj (hmove.invitation.symm.trans hi')
  have hok := hv.invitation inv i hmove.invitation
  have hsides := opponentOf_ends hor
  have hplayed : i.state ≠ .closedState ∨ i.game ≠ none := .inr (by simp [hmove.owned])
  have href := hl.refCount_eq_two hv hmove.invitation hplayed
  -- both participants have the invitation in their lists
  obtain ⟨c, hc, hmem, -⟩ := hl.participant hv hmove.invitation hplayed hor
  obtain ⟨co, hco, hmemo, -⟩ := hl.participant hv hmove.invitation hplayed (opponentOf_or hor)
  obtain ⟨c', hc', hplayer⟩ := hok.live hor
  obtain rfl := Option.some.inj (hc.symm.trans hc')
  obtain ⟨co', hco', hplayero⟩ := hok.live (opponentOf_or hor)
  obtain rfl := Option.some.inj (hco.symm.trans hco')
  obtain ⟨player, hplayer⟩ := Option.ne_none_iff_exists'.mp hplayer
  obtain ⟨playero, hplayero⟩ := Option.ne_none_iff_exists'.mp hplayero
  have hkeep := hv.refCount_ne_one hc hmove.invitation hor hheld
  refine ⟨c, co, player, playero, hc, hco, hplayer, hplayero, ?_⟩
  have hover := gameIsOver_gameApplyMove (legalMove?_eq_some hmove.legal).2
  rw [hends.finished] at hover
  have hg : (w.moved env (i.opponentOf client) inv game g move).store.games.get? game
      = some (gameApplyMove g move).2 := by
    simp [World.moved, hmove.board]
  have hlen : (w.moved env (i.opponentOf client) inv game g move).trace.sent.length
      = w.trace.sent.length + 1 := by simp [World.moved]
  rw [clientMakeMove_run hv hmove halloc, if_pos hends.sent,
    finishMove_run_over (w := w.moved env (i.opponentOf client) inv game g move) hc hco hg hover,
    hlen, if_pos hends.ended, if_pos hends.endedSelf]
  by_cases hone : co.refCount = 1
  . obtain ⟨w₁, hpost, hremove⟩ := removeBoth_run_posted_orphan env
      (w := endedTwice env client (i.opponentOf client) inv id
        (gameApplyMove g move).2.winner (w.moved env (i.opponentOf client) inv game g move))
      (hv.play game move) hmove.invitation href hsides hc hco hmem hmemo hkeep hone hplayer
      hplayero (i.roleOf client) (gameApplyMove g move).2.winner
    rw [if_pos hone]
    exact bind_ok (f := fun _ => removeBoth client (i.opponentOf client) inv) hpost hremove
  . obtain ⟨w₁, hpost, hremove⟩ := removeBoth_run_posted env
      (w := endedTwice env client (i.opponentOf client) inv id
        (gameApplyMove g move).2.winner (w.moved env (i.opponentOf client) inv game g move))
      (hv.play game move) hmove.invitation hsides hc hco hmem hmemo hkeep hone hplayer
      hplayero (i.roleOf client) (gameApplyMove g move).2.winner
    rw [if_neg hone]
    exact bind_ok (f := fun _ => removeBoth client (i.opponentOf client) inv) hpost hremove

theorem Operation.outcome_move (env : Env) (id : Int) (text : CString) (hv : w.store.Valid extra)
    (hl : w.store.Linked) (hheld : 0 < w.store.registered client + extra client)
    : Outcome env w client (.move id text) id ((clientMakeMove client id text).run env w) := by
  obtain ⟨c, hc⟩ := hv.held_live client hheld
  by_cases hmove : env.allocOk w.trace.allocs = true
      ∧ ∃ inv i game g move, w.store.Move client id text inv i game g move
  . obtain ⟨halloc, inv, i, game, g, move, hmove⟩ := hmove
    obtain ⟨-, i', -, -, hi', hor⟩ := hv.invitationOf hmove.named
    obtain rfl := Option.some.inj (hmove.invitation.symm.trans hi')
    have hok := hv.invitation inv i hmove.invitation
    by_cases hends : EndsGame env w g move
    . obtain ⟨c, co, player, playero, hc, hco, hplayer, hplayero, hrun⟩ :=
        clientMakeMove_run_ends hv hl hheld hmove hends halloc
      rw [hrun]
      split
      . next hone =>
        exact .stranded rfl hmove hco hone hends halloc
      . next hkeepo =>
        refine .returns ⟨.finished hmove hc hco hplayer hplayero hends.sent hends.finished hends.ended
          hends.endedSelf halloc, ?_⟩
        intro hcounted
        exact Store.Counted.conclude (w := { store := w.store.play game move, trace := _ })
          (hcounted.congr rfl) hmove.invitation
          (hl.refCount_eq_two hv hmove.invitation (.inr (by simp [hmove.owned]))) hok.distinct
          (opponentOf_ends hor) hc (hv.refCount_ne_one hc hmove.invitation hor hheld) hco hkeepo _
    . rw [clientMakeMove_run hv hmove halloc]
      cases hsend : env.sendOk w.trace.sent.length with
      | false =>
        simp only [Bool.false_eq_true, ↓reduceIte, run_pure]
        exact .returns (Effect.returned (.moveUnsent hmove hsend halloc) rfl)
      | true =>
        rw [if_pos rfl]
        have hover := gameIsOver_gameApplyMove (legalMove?_eq_some hmove.legal).2
        have hg : (w.moved env (i.opponentOf client) inv game g move).store.games.get? game
            = some (gameApplyMove g move).2 := by
          simp [World.moved, hmove.board]
        cases hend : (gameApplyMove g move).2.isOver with
        | false =>
          rw [hend] at hover
          rw [finishMove_run_playing hg hover]
          exact .returns (Effect.returned (.moved hmove hsend hend halloc) rfl)
        | true =>
          rw [hend] at hover
          obtain ⟨co, hco, -⟩ := hok.live (opponentOf_or hor)
          have hlen : (w.moved env (i.opponentOf client) inv game g move).trace.sent.length
              = w.trace.sent.length + 1 := by simp [World.moved]
          rw [finishMove_run_over (w := w.moved env (i.opponentOf client) inv game g move) hc hco hg
            hover, hlen]
          -- one of the two packets about the end is not sent
          cases hsend₁ : env.sendOk (w.trace.sent.length + 1) with
          | false =>
            simp only [Bool.false_eq_true, ↓reduceIte]
            exact .returns (Effect.returned (.endUnsent hmove hsend hend hsend₁ halloc) rfl)
          | true =>
            cases hsend₂ : env.sendOk (w.trace.sent.length + 2) with
            | false =>
              simp only [Bool.false_eq_true, ↓reduceIte]
              exact .returns (Effect.returned (.endUnsentSelf hmove hsend hend hsend₁ hsend₂ halloc)
                rfl)
            | true => exact absurd ⟨hsend, hend, hsend₁, hsend₂⟩ hends
  . obtain ⟨n, hrefused⟩ := clientMakeMove_run_refused env id text hv hc
      (fun halloc inv i game g move h => hmove ⟨halloc, inv, i, game, g, move, h⟩)
    rw [hrefused]
    exact .returns (Effect.returned (.refused _ _ hmove) rfl)

theorem Operation.returned {op : Operation} (hv : w.store.Valid extra) (hl : w.store.Linked)
    (hcall : w.store.Allowed extra client op) (hrun : (op.call client).run env w = .ok (r, w'))
    : Returned env w client op r w' := by
  cases op with
  | make target sourceRole targetRole => exact returned_make hv hcall hrun
  | revoke id => exact (outcome_revoke env id hv hl hcall.held).returned hrun
  | decline id => exact (outcome_decline env id hv hl hcall.held).returned hrun
  | accept id =>
    obtain ⟨r', w'', state, hrun', hreturned⟩ := run_accept env id hv hcall.held
    rw [Operation.call, run_bind, hrun'] at hrun
    simp only [run_pure, Except.ok.injEq, Prod.mk.injEq] at hrun
    exact hrun.1 ▸ hrun.2 ▸ hreturned
  | resign id => exact (outcome_resign env id hv hl hcall.held).returned hrun
  | move id text => exact (outcome_move env id text hv hl hcall.held).returned hrun

end Jeux
