import Jeux.Concurrent.InviteLogout
import Jeux.Service.Refinement

/-!
The service threads side by side as a lobby. Other threads go on between two steps of a handler, but
all that a handler does in the lobby it does in one of its steps. So whatever turns the threads take
it is as if one client after the other had done something.
-/

namespace Jeux

open ServerM

variable {env : Env} {w w' : World} {s s' : Store} {extra : ClientPtr → Nat} {client x : ClientPtr}
  {c : Client} {t t'' : Thread} {t' : Option Thread} {gate : Int} {name : CString}
  {nodes : List InvitationNode}

/-! ## What one step leads to -/

theorem Store.GamesOn.congr (h : s.GamesOn) (hinvitations : s'.invitations = s.invitations)
    (hgames : s'.games = s.games) : s'.GamesOn := by
  intro inv i hi g hg
  rw [hinvitations] at hi
  unfold Store.gameOf at hg
  rw [hgames] at hg
  exact h inv i hi g hg

theorem Store.unrefClient_players (s : Store) (client : ClientPtr)
    : (s.unrefClient client).players = s.players := by
  unfold Store.unrefClient
  split
  . split <;> rfl
  . rfl

theorem LogoutRun.gamesOn (h : LogoutRun env client w nodes w') (hsends : ∀ n, env.sendOk n = true)
    (hserves : w.store.Serves extra client) (hon : w.store.GamesOn) : w'.store.GamesOn := by
  induction h with
  | nil => exact hon
  | cons _ _ _ heffect _ ih =>
    exact ih (heffect.serves hserves (hserves.callable (logoutOp_ne_make _ _ _)))
      (heffect.gamesOn hsends hserves hon)

namespace Thread

theorem step_login_store {payload : Option CString} (henv : env.Reliable) (hv : w.store.Valid extra)
    (hc : w.store.clients.get? client = some c)
    (hrun : (step client ⟨gate, .login payload⟩).run env w = .ok (t', w'))
    : w'.store = w.store ∨ ∃ name, w'.store = w.store.enlist name := by
  by_cases hrefused : LoginRefused c payload
  . rw [step_login_refused gate hc hrefused, Except.ok.injEq, Prod.mk.injEq] at hrun
    exact .inl (hrun.2 ▸ rfl)
  . cases payload with
    | none => exact absurd (.inr (.inl rfl)) hrefused
    | some name =>
      have havail : PlayerAvailable env w name := .inr ⟨henv.allocs _, henv.allocs _⟩
      rw [step_login_enlisted gate hv hc hrefused havail, Except.ok.injEq, Prod.mk.injEq] at hrun
      exact .inr ⟨name, hrun.2 ▸ rfl⟩

theorem step_logIn_store {player : PlayerPtr} {p : Player} (hv : w.store.Valid extra)
    (hc : w.store.clients.get? client = some c) (hout : c.loggedIn = .loggedOut)
    (hp : w.store.players.get? player = some p)
    (hrun : (step client ⟨gate, .logIn player⟩).run env w = .ok (t', w'))
    : w'.store = w.store
        ∨ (w.store.lookup p.name = none ∧ w'.store = w.store.login client player) := by
  simp only [step, run_bind] at hrun
  by_cases hsem : w.store.loginSem = 0
  . rw [clientLogin_run_deadlock player hsem] at hrun
    simp at hrun
  . rw [clientLogin_run hv.slotsLive hc hout hp hsem] at hrun
    cases halloc : env.allocOk w.trace.allocs with
    | false => simp [halloc] at hrun
    | true =>
      cases hlookup : w.store.lookup p.name with
      | some other =>
        simp only [halloc, hlookup, Option.isSome_some, ↓reduceIte, run_pure, Except.ok.injEq,
          Prod.mk.injEq] at hrun
        exact .inl (hrun.2 ▸ rfl)
      | none =>
        simp only [halloc, hlookup, Option.isSome_none, Bool.false_eq_true, ↓reduceIte, run_pure,
          (by decide : ¬ (0 : Int) = -1), Except.ok.injEq, Prod.mk.injEq] at hrun
        exact .inr ⟨rfl, hrun.2 ▸ rfl⟩

end Thread

inductive Phase.Does (s : Store) (client : ClientPtr)
    : Phase → List (Lobby.Action CString ClientPtr InvitationPtr CString) → Prop
  | nothing (phase : Phase) : Does s client phase []
  | login {player : PlayerPtr} {p : Player} (hp : s.players.get? player = some p)
      : Does s client (.logIn player) [.login p.name]
  | invited {invitee : ClientPtr} {hdr : PacketHeader} {sourceRole targetRole : GameRole}
      (hroles : inviteRoles? hdr = some (sourceRole, targetRole))
      : Does s client (.invite invitee hdr) [.offer s.invitations.next invitee sourceRole.host]
  | operated {op : Operation} {a : Lobby.Action CString ClientPtr InvitationPtr CString}
      (ha : op.action? s client = some a) : Does s client (.operation op) [a]
  | departed {as : List (Lobby.Action CString ClientPtr InvitationPtr CString)}
      (hquits : ∀ a ∈ as, Quits a) : Does s client .logout (as ++ [.logout])

def Phase.Handled : Phase → Prop
  | .acknowledge _ _ | .respond _ | .unregister => True
  | _ => False

theorem Phase.Does.handled {as : List (Lobby.Action CString ClientPtr InvitationPtr CString)}
    (h : t.phase.Does s client as) (hstep : Stepped env client w t t' w')
    : as = [] ∨ ∃ t₁, t' = some t₁ ∧ ¬ t.phase.Handled ∧ t₁.phase.Handled := by
  obtain ⟨gate, phase⟩ := t
  dsimp only at h
  cases h with
  | nothing => exact .inl rfl
  | login | invited | operated | departed =>
    cases hstep <;> exact .inr ⟨_, rfl, by simp [Handled], trivial⟩

namespace Interleaved

variable {σ σ' : Interleaved} {e : HandlerEvent}

structure Steady (σ : Interleaved) : Prop where
  sound : σ.Sound
  settled : σ.world.store.Settled
  on : σ.world.store.GamesOn
  names : σ.world.store.NamesApart
  invitees : ∀ client t x, σ.threads client = some t → t.phase.invites? client = some x →
    σ.world.store.isLoggedIn x = true
  session : ∀ client t, σ.threads client = some t → t.phase ≠ .unregister →
    ∀ c, σ.world.store.clients.get? client = some c → c.player ≠ none → c.loggedIn = .loggedIn

/--
Nobody who has logged out is looked up for an INVITE, and nobody who has been looked up for one logs
out before it has been sent.
-/
def LetsStay (σ : Interleaved) (client : ClientPtr) : Phase → Prop
  | .lookup user hdr => ∀ x ∈ σ.world.store.lookup user,
    (Phase.unref x hdr).invites? client = some x → σ.world.store.isLoggedIn x = true
  | .logout => ∀ other < σ.world.store.clients.next, ∀ t ∈ σ.threads other,
    t.phase.invites? other ≠ some client
  | _ => True

instance (σ : Interleaved) (client : ClientPtr) : DecidablePred (σ.LetsStay client)
  | .lookup _ _ | .logout => by
    dsimp only [LetsStay]
    infer_instance
  | .login _ | .logIn _ | .users | .unref _ _ | .invite _ _ | .acknowledge _ _ | .operation _
  | .respond _ | .unregister => instDecidableTrue

def Considerate (σ : Interleaved) : HandlerEvent → Prop
  | .go client => ∀ t ∈ σ.threads client, σ.LetsStay client t.phase
  | _ => True

instance (σ : Interleaved) : DecidablePred σ.Considerate
  | .go client => inferInstanceAs (Decidable (∀ t ∈ σ.threads client, σ.LetsStay client t.phase))
  | .connect _ | .packet _ _ | .hangUp _ => instDecidableTrue

theorem Steady.serves (h : σ.Steady) (ht : σ.threads client = some t)
    (hne : t.phase ≠ .unregister) : ∃ extra, σ.world.store.Serves extra client := by
  obtain ⟨held, hv, -⟩ := h.sound.valid
  exact ⟨_, hv, h.settled, h.sound.registered client t ht, h.session client t ht hne⟩

theorem Steady.callable_invite {invitee : ClientPtr} {hdr : PacketHeader}
    {sourceRole targetRole : GameRole} (h : σ.Steady)
    (ht : σ.threads client = some ⟨gate, .invite invitee hdr⟩) (hne : client ≠ invitee)
    (hroles : inviteRoles? hdr = some (sourceRole, targetRole))
    : σ.world.store.Callable client (.make invitee sourceRole targetRole) where
  registered := h.sound.registered client _ ht
  session := h.session client _ ht (by simp)
  invited := by
    intro target sourceRole' targetRole' heq
    obtain ⟨rfl, rfl, rfl⟩ := Operation.make.inj heq
    have hin := h.invitees client _ invitee ht (by simp [Phase.invites?, hne, hroles])
    exact ⟨hne.symm, Store.isLoggedIn_iff.mp hin, inviteRoles?_opposite hroles⟩

theorem Steady.callable_operation {op : Operation} (h : σ.Steady)
    (ht : σ.threads client = some ⟨gate, .operation op⟩)
    : σ.world.store.Callable client op := by
  obtain ⟨extra, hserves⟩ := h.serves ht (by simp)
  exact hserves.callable (h.sound.phases client _ ht)

theorem Steady.registered_of_session (h : σ.Steady) (hx : σ.world.store.sessionOf x ≠ none)
    : 0 < σ.world.store.registered x := by
  have hin : σ.world.store.isLoggedIn x = true := by
    refine Classical.byContradiction fun hout => hx ?_
    rw [Store.sessionOf, if_neg hout]
  obtain ⟨c, hc, hstate⟩ := Store.isLoggedIn_iff.mp hin
  exact h.sound.session x c hc hstate

/--
What a thread does in one step is something that its client can do in the lobby.
-/
theorem Steady.lobby (h : σ.Steady) (henv : env.Reliable) (ht : σ.threads client = some t)
    (hrun : (t.step client).run env σ.world = .ok (t', w'))
    (hstep : Stepped env client σ.world t t' w')
    : ∃ as l, t.phase.Does σ.world.store client as
        ∧ Lobby.Run (lobbyRules env.expected) client σ.world.store.lobby as l
        ∧ l.Looks w'.store.lobby := by
  obtain ⟨held, hv, -⟩ := h.sound.valid
  have hnothing : w'.store.lobby = σ.world.store.lobby →
      ∃ as l, t.phase.Does σ.world.store client as
        ∧ Lobby.Run (lobbyRules env.expected) client σ.world.store.lobby as l
        ∧ l.Looks w'.store.lobby :=
    fun heq => ⟨[], _, .nothing _, .nil _, heq ▸ .refl _⟩
  -- a name can be enrolled some time before anybody is logged in under it
  have henlisted : ∀ name, w'.store = σ.world.store.enlist name →
      ∃ as l, t.phase.Does σ.world.store client as
        ∧ Lobby.Run (lobbyRules env.expected) client σ.world.store.lobby as l
        ∧ l.Looks w'.store.lobby := by
    intro name heq
    refine ⟨[], _, .nothing _, .nil _, ?_⟩
    rw [heq, hv.lobby_enlist]
    exact ⟨rfl, rfl, rfl⟩
  cases hstep with
  | refused | taken | listed | unfound | uninvited | acknowledged | waits | nacked | acked =>
    exact hnothing rfl
  | noRoom =>
    obtain ⟨c, hc⟩ := h.sound.live ht
    rcases Thread.step_login_store henv hv hc hrun with heq | ⟨name, heq⟩
    . exact hnothing (by rw [heq])
    . exact henlisted name heq
  | enlisted => exact henlisted _ rfl
  | @entered gate player c n hc hout hplayer =>
    obtain ⟨p, hp, -⟩ := hv.player player hplayer
    rcases Thread.step_logIn_store hv hc hout hp hrun with heq | ⟨hlookup, heq⟩
    . exact hnothing (by rw [heq])
    . refine ⟨_, _, .login hp, Lobby.Step.run (.login ?_ ?_), ?_⟩
      . show σ.world.store.sessionOf client = none
        simp [Store.sessionOf, Store.isLoggedIn, hc, hout]
      . exact Store.sessionOf_ne_of_lookup (fun _ => h.registered_of_session) hlookup
      . rw [heq, Store.lobby_enter hc hp]
        exact ⟨rfl, rfl, rfl⟩
  | found =>
    refine hnothing (Store.lobby_congr (.of_players rfl rfl) (fun _ => rfl) (fun x => ?_) rfl rfl)
    exact Store.sessionOf_congr (Heap.map_get?_modify fun _ => rfl) fun _ _ => rfl
  | unreffed =>
    refine hnothing (Store.lobby_unrefClient fun c hc hone => ?_)
    obtain ⟨c', hc', hout⟩ := h.sound.looked_up ht rfl
    obtain rfl := Option.some.inj (hc'.symm.trans hc)
    exact hout hone
  | invited hne hroles heffect =>
    obtain ⟨extra, hserves⟩ := h.serves ht (by simp)
    rcases heffect.lobby henv hserves (h.callable_invite ht hne hroles) h.on h.names with
      ⟨-, hsame⟩ | ⟨a, ha, hstep⟩
    . exact hnothing hsame
    . obtain rfl := Option.some.inj ha
      exact ⟨_, _, .invited hroles, hstep.run, .refl _⟩
  | operated _ heffect =>
    obtain ⟨extra, hserves⟩ := h.serves ht (by simp)
    rcases heffect.lobby henv hserves (h.callable_operation ht) h.on h.names with
      ⟨-, hsame⟩ | ⟨a, ha, hstep⟩
    . exact hnothing hsame
    . exact ⟨_, _, .operated ha, hstep.run, .refl _⟩
  | loggedOut hlogout =>
    cases hlogout with
    | out => exact hnothing rfl
    | @left c player w₁ hc hin _ hloop =>
      obtain ⟨extra, hserves⟩ := h.serves ht (by simp)
      obtain ⟨as, hquits, hrun⟩ := hloop.lobby_leave henv hserves hc hin h.on h.names player
      exact ⟨_, _, .departed hquits, hrun, .refl _⟩
  | unregistered _ hc hout => exact hnothing (Store.lobby_unregister hc hout _)

/-! ## Whole runs -/

theorem Steady.keeps (h : σ.Steady) (henv : env.Reliable) (ht : σ.threads client = some t)
    (hrun : (t.step client).run env σ.world = .ok (t', w'))
    (hstep : Stepped env client σ.world t t' w')
    : w'.store.Settled ∧ w'.store.GamesOn ∧ w'.store.NamesApart := by
  obtain ⟨held, hv, hheld⟩ := h.sound.valid
  have hregistered := h.sound.registered client t ht
  have hkeep : ∀ {s : Store}, s.Settled → s.invitations = σ.world.store.invitations →
      s.games = σ.world.store.games → σ.world.store.SameNames s →
      s.Settled ∧ s.GamesOn ∧ s.NamesApart :=
    fun hsettled hinvitations hgames hnames =>
      ⟨hsettled, h.on.congr hinvitations hgames, h.names.same hnames⟩
  have henlisted : ∀ name, (σ.world.store.enlist name).Settled
      ∧ (σ.world.store.enlist name).GamesOn ∧ (σ.world.store.enlist name).NamesApart := by
    intro name
    have hquiet := Store.quiet_enlist σ.world.store name
    exact ⟨h.settled.congr (Store.enlist_clients ..) hquiet.invitations,
      h.on.congr hquiet.invitations hquiet.games, h.names.enlist hv name⟩
  cases hstep with
  | refused | taken | listed | unfound | uninvited | acknowledged | waits | nacked | acked =>
    exact ⟨h.settled, h.on, h.names⟩
  | noRoom =>
    obtain ⟨c, hc⟩ := h.sound.live ht
    rcases Thread.step_login_store henv hv hc hrun with heq | ⟨name, heq⟩
    . rw [heq]
      exact ⟨h.settled, h.on, h.names⟩
    . rw [heq]
      exact henlisted name
  | enlisted => exact henlisted _
  | entered => exact hkeep (h.settled.login _ _) rfl rfl (Store.sameNames_login ..)
  | found =>
    exact hkeep (h.settled.modifyClient _ (fun _ => rfl) fun _ _ hin => .inl hin) rfl rfl
      (.of_players rfl rfl)
  | @unreffed gate invitee hdr =>
    have hrefs := refsOf_erase (hheld client _ invitee hdr ht rfl) invitee
    rw [if_pos rfl] at hrefs
    exact hkeep (h.settled.unrefClient hv (by omega)) (Store.unrefClient_invitations ..)
      (Store.unrefClient_games ..)
      (.of_players (Store.unrefClient_players ..) (Store.unrefClient_registry ..).2.1)
  | invited hne hroles heffect =>
    obtain ⟨extra, hserves⟩ := h.serves ht (by simp)
    have hcall := h.callable_invite ht hne hroles
    exact ⟨heffect.settled hserves.valid h.settled hcall,
      heffect.gamesOn henv.sends hserves h.on, h.names.same heffect.keepsSessions.sameNames⟩
  | operated _ heffect =>
    obtain ⟨extra, hserves⟩ := h.serves ht (by simp)
    have hcall := h.callable_operation ht
    exact ⟨heffect.settled hserves.valid h.settled hcall,
      heffect.gamesOn henv.sends hserves h.on, h.names.same heffect.keepsSessions.sameNames⟩
  | loggedOut hlogout =>
    cases hlogout with
    | out => exact ⟨h.settled, h.on, h.names⟩
    | @left c player w₁ hc _ _ hloop =>
      obtain ⟨extra, hserves⟩ := h.serves ht (by simp)
      have hquiet := Store.quiet_leave w₁.store client player
      exact ⟨(hloop.serves hserves).settled.leave player (hloop.idle hserves hc),
        (hloop.gamesOn henv.sends hserves h.on).congr hquiet.invitations hquiet.games,
        (h.names.same hloop.keepsSessions.sameNames).same (Store.sameNames_leave ..)⟩
  | @unregistered gate c i =>
    have hquiet := Store.quiet_unregister σ.world.store client i
    exact hkeep (h.settled.unregister hv (Store.registered_pos.mp hregistered))
      hquiet.invitations hquiet.games (Store.sameNames_unregister ..)

theorem Considerate.lookup {user : CString} {hdr : PacketHeader}
    (h : Considerate σ (.go client)) (ht : σ.threads client = some ⟨gate, .lookup user hdr⟩)
    (hlookup : σ.world.store.lookup user = some x)
    (hinvites : (Phase.unref x hdr).invites? client = some x)
    : σ.world.store.isLoggedIn x = true :=
  h _ ht x hlookup hinvites

theorem Considerate.logout (h : Considerate σ (.go client)) (hsound : σ.Sound)
    (ht : σ.threads client = some ⟨gate, .logout⟩) {other : ClientPtr}
    (hthread : σ.threads other = some t) : t.phase.invites? other ≠ some client := by
  obtain ⟨c, hc⟩ := hsound.live hthread
  exact h _ ht other (Heap.lt_next_of_get? hc) t hthread

theorem Steady.after {history : List Entry} (h : σ.Steady) (henv : env.Reliable)
    (hguard : Considerate σ (.go client)) (ht : σ.threads client = some t)
    (hrun : (t.step client).run env σ.world = .ok (t', w'))
    (hstep : Stepped env client σ.world t t' w')
    : Steady ⟨w', Function.update σ.threads client t', history⟩ := by
  have hsound := h.sound.after ht hstep history
  obtain ⟨hsettled, hon, hnames⟩ := h.keeps henv ht hrun hstep
  refine ⟨hsound, hsettled, hon, hnames, ?_, ?_⟩
  . intro other t₁ x hthread hinvites
    apply h.sound.invitees_after ht hstep hsound _ _ (fun other t => h.invitees other t x) hthread
      hinvites
    . intro user hdr hphase
      obtain ⟨gate, phase⟩ := t
      subst hphase
      exact hguard.lookup ht
    . intro hphase other t₁
      obtain ⟨gate, phase⟩ := t
      subst hphase
      exact hguard.logout h.sound ht
  . intro other t₁ hthread hne c hc hplayer
    exact h.sound.session_after ht hstep h.session hthread hne hc hplayer

theorem Steady.goto (h : σ.Steady) (hsound : (σ.goto client t).Sound)
    (hinvites : t.phase.invites? client = none)
    (hsession : ∀ c, σ.world.store.clients.get? client = some c → c.player ≠ none →
      c.loggedIn = .loggedIn)
    : (σ.goto client t).Steady where
  sound := hsound
  settled := h.settled
  on := h.on
  names := h.names
  invitees _ _ _ := goto_invitees hinvites h.invitees
  session _ _ hthread hne _ := goto_session hsession h.session hthread hne

theorem Steady.connects {fd : Int} {o : Option ClientPtr} (h : σ.Steady)
    (hconnects : Connects fd σ.world o w')
    : Steady { σ with world := w' }
      ∧ ∀ client ∈ o, (Interleaved.goto { σ with world := w' } client ⟨0, .respond []⟩).Steady := by
  obtain ⟨hsound, hgoto⟩ := h.sound.connected hconnects
  obtain ⟨held, hv, -⟩ := h.sound.valid
  cases hconnects with
  | refused => exact ⟨h, by simp⟩
  | failed n hqueue =>
    exact ⟨⟨hsound, h.settled.congr rfl rfl, h.on, h.names.same (.of_players rfl rfl), h.invitees,
      h.session⟩, by simp⟩
  | connected n hqueue =>
    have hsteady : Steady { σ with world := {
        store := σ.world.store.connect fd, trace := { σ.world.trace with allocs := n } } } := by
      refine ⟨hsound, h.settled.connect hv fd, h.on, h.names.same (.of_players rfl rfl), ?_, ?_⟩
      . intro other t x hthread hinvites
        exact Store.isLoggedIn_connect fd (h.invitees other t x hthread hinvites)
      . intro other t hthread hne c hc hplayer
        exact h.session other t hthread hne c (Store.get?_of_connect hc hplayer) hplayer
    refine ⟨hsteady, fun client hclient => ?_⟩
    apply hsteady.goto (hgoto client hclient) rfl
    obtain rfl := Option.some.inj hclient
    intro c hc hplayer
    have hgone := Store.get?_of_connect hc hplayer
    simp at hgone

theorem Steady.steps (h : σ.Steady) (henv : env.Reliable) (hguard : Considerate σ e)
    (hstep : Steps env σ e σ') : σ'.Steady := by
  have hsound := hstep.sound h.sound
  cases hstep with
  | nothing => exact h
  | turnedAway hconnects => exact (h.connects hconnects).1
  | connected hconnects => exact (h.connects hconnects).2 _ rfl
  | @received client gate pkt ht =>
    apply h.goto hsound
    . exact (Phase.early_received gate pkt).invites?
    . exact h.session client _ ht (by simp)
  | hungUp ht => exact h.goto hsound rfl (h.session _ _ ht (by simp))
  | went ht hrun hstep => exact h.after henv hguard ht hrun hstep

theorem steady_of_considerate (henv : env.Reliable) (h : (machine env).Reach Considerate initial σ)
    : σ.Steady := by
  apply h.invariant Steady
  . refine ⟨sound_initial, Server.initial_ok.steady.settled, ?_, ?_, ?_, ?_⟩
    . simp [Store.GamesOn, initial, initialWorld, initialStore]
    . simp [Store.NamesApart, initial, initialWorld, initialStore]
    . simp [initial]
    . simp [initial]
  . intro σ e σ' hsteady hguard hstep
    exact hsteady.steps henv hguard (hsteady.sound.steps hstep)

/--
`σ.Does e client as`: what the thread of `client` does in the lobby when `e` happens.
-/
def Does (σ : Interleaved) (e : HandlerEvent) (client : ClientPtr)
    (as : List (Lobby.Action CString ClientPtr InvitationPtr CString)) : Prop :=
  as = [] ∨ ∃ t, e = .go client ∧ σ.threads client = some t ∧ t.phase.Does σ.world.store client as

/--
Somebody does something in the lobby when `e` happens, and that is all there is to the request it is
part of.
-/
def Advances (env : Env) (σ : Interleaved) (e : HandlerEvent) (σ' : Interleaved) : Prop :=
  ∃ client as l, σ.Does e client as
    ∧ Lobby.Run (lobbyRules env.expected) client σ.world.store.lobby as l
    ∧ l.Looks σ'.world.store.lobby
    ∧ (as = [] ∨ ∃ t t', σ.threads client = some t ∧ σ'.threads client = some t'
      ∧ ¬ t.phase.Handled ∧ t'.phase.Handled)

theorem Steps.advances (h : Steps env σ e σ') (henv : env.Reliable) (hsteady : σ.Steady)
    : σ.Advances env e σ' := by
  have hnothing : σ'.world.store.lobby = σ.world.store.lobby → σ.Advances env e σ' :=
    fun heq => ⟨0, [], _, .inl rfl, .nil _, heq ▸ .refl _, .inl rfl⟩
  have hconnect : ∀ {fd o w'}, Connects fd σ.world o w' →
      w'.store.lobby = σ.world.store.lobby := by
    intro fd o w' hconnects
    cases hconnects with
    | refused => rfl
    | failed => rfl
    | connected => exact Store.lobby_connect ..
  cases h with
  | nothing => exact hnothing rfl
  | turnedAway hconnects => exact hnothing (hconnect hconnects)
  | connected hconnects => exact hnothing (hconnect hconnects)
  | received => exact hnothing rfl
  | hungUp => exact hnothing rfl
  | @went client t _ _ ht hrun hstep =>
    obtain ⟨as, l, hdoes, hlobby, hlooks⟩ := hsteady.lobby henv ht hrun hstep
    refine ⟨client, as, l, .inr ⟨t, rfl, ht, hdoes⟩, hlobby, hlooks, ?_⟩
    rcases hdoes.handled hstep with hnone | ⟨t₁, rfl, hbefore, hafter⟩
    . exact .inl hnone
    . exact .inr ⟨t, t₁, ht, by simp, hbefore, hafter⟩

theorem looks_reachable (henv : env.Reliable) (h : (machine env).Reach Considerate initial σ)
    : ∃ l, Lobby.Reachable (lobbyRules env.expected) l ∧ l.Looks σ.world.store.lobby := by
  induction h with
  | refl =>
    refine ⟨_, .refl, ?_⟩
    rw [← Server.initialServer_lobby env.expected]
    exact .refl _
  | step hreach hguard hstep ih =>
    obtain ⟨l, hl, hlooks⟩ := ih
    have hsteady := steady_of_considerate henv hreach
    obtain ⟨client, as, l₁, -, hrun, hlooks₁, -⟩ :=
      (hsteady.sound.steps hstep).advances henv hsteady
    obtain ⟨l', hrun', hlooks'⟩ := hrun.looks hlooks.symm
    exact ⟨l', hrun'.reachable hl, hlooks'.symm.trans hlooks₁⟩

theorem exec_advances (henv : env.Reliable) (h : (machine env).Reach Considerate initial σ)
    (hexec : exec env σ e = .ok σ') : σ.Advances env e σ' := by
  have hsteady := steady_of_considerate henv h
  have hstep : (machine env).step σ e = some σ' := by simp [machine, hexec, Except.toOption]
  exact (hsteady.sound.steps hstep).advances henv hsteady

/--
In whatever order the threads take their turns, the server looks like a lobby in which one client
after the other has done something, and a request has its effect there in one step of its thread.
-/
theorem threads_refine_lobby (henv : env.Reliable)
    (h : (machine env).Reach Considerate initial σ)
    : (∃ l, Lobby.Reachable (lobbyRules env.expected) l ∧ l.Looks σ.world.store.lobby)
        ∧ ∀ e σ', exec env σ e = .ok σ' → σ.Advances env e σ' :=
  ⟨looks_reachable henv h, fun _ _ => exec_advances henv h⟩

/--
`B` accepts before the thread of `A` has sent the ACK for the INVITE.
-/
theorem threads_refine_lobby_of_accepted
    : ∃ σ, (machine calmEnv).Reach Considerate initial σ
      ∧ (σ.world.store.pairingOf 0).any (·.position.isSome) = true
      ∧ (∃ l, Lobby.Reachable (lobbyRules calmEnv.expected) l ∧ l.Looks σ.world.store.lobby)
      ∧ ∀ e σ', exec calmEnv σ e = .ok σ' → σ.Advances calmEnv e σ' := by
  obtain ⟨σ, hreach, hplaying⟩ := Machine.Reach.of_any_run (machine calmEnv) Considerate initial
    (inviteEvents ++ acceptEvents) (fun σ => (σ.world.store.pairingOf 0).any (·.position.isSome))
    (by decide +kernel)
  exact ⟨σ, hreach, hplaying, threads_refine_lobby calmEnv_reliable hreach⟩

/--
A step of a thread spares everybody but its client, whatever the other threads are in the middle of.
-/
theorem step_spares (henv : env.Reliable) (h : (machine env).Reach Considerate initial σ)
    (hexec : exec env σ e = .ok σ')
    : σ.world.store.lobby.Looks σ'.world.store.lobby
        ∨ ∃ client, e = .go client
          ∧ σ.world.store.lobby.Spares client σ'.world.store.lobby := by
  obtain ⟨l, hl, hlooks⟩ := looks_reachable henv h
  obtain ⟨client, as, l₁, hdoes, hrun, hlooks₁, -⟩ := exec_advances henv h hexec
  rcases hdoes with rfl | ⟨t, rfl, -, -⟩
  . obtain rfl := hrun.eq_of_nil
    exact .inl hlooks₁
  . obtain ⟨l', hrun', hlooks'⟩ := hrun.looks hlooks.symm
    have hspares := hrun'.spares hl.sound
    exact .inr ⟨client, rfl, hlooks.spares (hlooks'.symm.trans hlooks₁) hspares⟩

/--
`A` resigns while the thread of `B` is in the middle of its ACCEPT.
-/
theorem step_spares_of_resigned
    : ∃ σ σ', (machine calmEnv).Reach Considerate initial σ
      ∧ exec calmEnv σ (.go 0) = .ok σ'
      ∧ (σ.world.store.lobby.Looks σ'.world.store.lobby
        ∨ ∃ client, HandlerEvent.go 0 = .go client
          ∧ σ.world.store.lobby.Spares client σ'.world.store.lobby) := by
  obtain ⟨σ, hreach, hok⟩ := Machine.Reach.of_any_run (machine calmEnv) Considerate initial
    (inviteEvents ++ acceptEvents ++ [.go 0, .packet 0 (request .resign 0 .nullRole [] fits_nil)])
    (fun σ => (exec calmEnv σ (.go 0)).isOk) (by decide +kernel)
  cases hexec : exec calmEnv σ (.go 0) with
  | error f => simp [hexec, Except.isOk, Except.toBool] at hok
  | ok σ' => exact ⟨σ, σ', hreach, hexec, step_spares calmEnv_reliable hreach hexec⟩

end Interleaved

end Jeux
