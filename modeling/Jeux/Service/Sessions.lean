import Jeux.Service.Invariant

/-!
Clients that come, log in, log out and go, without any game between them. The functions that open
and close sessions are called directly, in any order: `client_logout` may be called long before
`creg_unregister`, and `client_login` for a client that is logged in already.
-/

namespace Jeux

open ServerM

/--
The calls. `enlist` is `preg_register` for a caller who gives the reference back at once.
-/
inductive SessionCall where
  | register (fd : Int)
  | enlist (name : CString)
  | login (client : ClientPtr) (player : PlayerPtr)
  | logout (client : ClientPtr)
  | unregister (client : ClientPtr)

namespace SessionCall

def enlistPlayer (name : CString) : ServerM Unit := do
  match ← pregRegister name with
  | some player => playerUnref player
  | none => return ()

def exec (env : Env) (w : World) : SessionCall → Except Fault World
  | register fd => ((cregRegister fd).run env w).map (·.2)
  | enlist name => ((enlistPlayer name).run env w).map (·.2)
  | login client player =>
    if player ∈ w.store.playerRegistry.players then
      ((clientLogin client player).run env w).map (·.2)
    else
      .ok w
  | logout client => ((clientLogout client).run env w).map (·.2)
  | unregister client => ((cregUnregister client).run env w).map (·.2)

def machine (env : Env) : Machine World SessionCall where
  step w call := (exec env w call).toOption

end SessionCall

/--
No client that is logged in is logged in again.
-/
def NoRelogin (w : World) : SessionCall → Prop
  | .login client _ => w.store.isLoggedIn client = false
  | _ => True

instance (w : World) (call : SessionCall) : Decidable (NoRelogin w call) :=
  match call with
  | .login client _ => inferInstanceAs (Decidable (w.store.isLoggedIn client = false))
  | .register _ | .enlist _ | .logout _ | .unregister _ => .isTrue trivial

inductive SessionSteps (s : Store) : SessionCall → Store → Prop
  | idle (call : SessionCall) : SessionSteps s call s
  | registers (fd : Int) (hqueue : s.clientRegistry.loginQueue ≠ 0)
      : SessionSteps s (.register fd) (s.connect fd)
  | registerFails (fd : Int) (hqueue : s.clientRegistry.loginQueue ≠ 0)
      : SessionSteps s (.register fd) s.connectFailed
  | enlists (name : CString) : SessionSteps s (.enlist name) (s.enlist name)
  | noRoom (name : CString) (p : Player)
      : SessionSteps s (.enlist name) { s with players := s.players.push p }
  | logsIn {client : ClientPtr} {player : PlayerPtr} {c : Client} {p : Player}
      (hc : s.clients.get? client = some c) (hout : c.loggedIn = .loggedOut)
      (hmem : player ∈ s.playerRegistry.players) (hp : s.players.get? player = some p)
      (hfree : s.lookup p.name = none)
      : SessionSteps s (.login client player) (s.login client player)
  | logsOut {client : ClientPtr} {player : PlayerPtr} {c : Client}
      (hc : s.clients.get? client = some c) (hin : c.loggedIn = .loggedIn)
      (hplayer : c.player = some player) : SessionSteps s (.logout client) (s.leave client player)
  | unregisters {client : ClientPtr} {c : Client} {i : Nat}
      (hc : s.clients.get? client = some c) (hout : c.loggedIn = .loggedOut)
      (hi : s.clientRegistry.slotOf? client = some i)
      : SessionSteps s (.unregister client) (s.unregister client i)
  | departs {client : ClientPtr} {player : PlayerPtr} {c : Client} {i : Nat}
      (hc : s.clients.get? client = some c) (hin : c.loggedIn = .loggedIn)
      (hplayer : c.player = some player) (hi : s.clientRegistry.slotOf? client = some i)
      : SessionSteps s (.unregister client) ((s.leave client player).unregister client i)

structure Store.Enrolled (s : Store) : Prop where
  valid : s.Valid fun _ => 0
  alone : ∀ inv, s.invitations.get? inv = none
  live : ∀ client c, s.clients.get? client = some c → 0 < s.registered client
  sem : ∀ client, 0 < s.registered client → s.loginSem = 1
  names : ∀ x y name, x ∈ s.clientRegistry.members → y ∈ s.clientRegistry.members →
    s.nameOf x = some name → s.nameOf y = some name → x = y
  players : ∀ player player' p p', player ∈ s.playerRegistry.players →
    player' ∈ s.playerRegistry.players → s.players.get? player = some p →
    s.players.get? player' = some p' → p.name = p'.name → player = player'

variable {env : Env} {w w' : World} {s s' : Store} {client : ClientPtr} {c : Client}
  {player : PlayerPtr} {p : Player} {call : SessionCall} {name : CString}

/-! ## What the calls do -/

theorem Store.Enrolled.noNodes (h : s.Enrolled) (hc : s.clients.get? client = some c)
    : c.inviteHead = [] := by
  rw [List.eq_nil_iff_forall_not_mem]
  intro node hnode
  obtain ⟨i, hi, -⟩ := (h.valid.client client c hc).mine node.invitation
    (List.mem_map_of_mem hnode)
  simp [h.alone] at hi

theorem clientLogout_run_idle (hc : w.store.clients.get? client = some c)
    (hin : c.loggedIn = .loggedIn) (hnodes : c.inviteHead = []) (hplayer : c.player = some player)
    (hp : w.store.players.get? player = some p) (href : p.refCount ≠ 1)
    : (clientLogout client).run env w
        =
      .ok (0, { w with store := w.store.leave client player }) := by
  simp only [clientLogout, run_bind, run_derefClient, hc, hin, ne_eq, not_true_eq_false, ↓reduceIte,
    hnodes, logoutLoop, run_pure, logoutTail_run hc hplayer hp href]

theorem cregUnregister_run_loggedIn {i : Nat} (hi : w.store.clientRegistry.slotOf? client = some i)
    (hc : w.store.clients.get? client = some c) (hin : c.loggedIn = .loggedIn)
    (hnodes : c.inviteHead = []) (hplayer : c.player = some player)
    (hp : w.store.players.get? player = some p) (href : p.refCount ≠ 1)
    : (cregUnregister client).run env w
        =
      .ok (0, { w with store := (w.store.leave client player).unregister client i }) := by
  obtain ⟨w₁, hw₁⟩ : ∃ w₁ : World,
      { w with store := { w.store with clientRegistry := w.store.clientRegistry.shift i } } = w₁ :=
    ⟨_, rfl⟩
  have hc₁ : w₁.store.clients.get? client = some c := hw₁ ▸ hc
  have hp₁ : w₁.store.players.get? player = some p := hw₁ ▸ hp
  obtain ⟨w₂, hw₂⟩ : ∃ w₂ : World, { w₁ with store := w₁.store.leave client player } = w₂ :=
    ⟨_, rfl⟩
  have hc₂ : w₂.store.clients.get? client = some { c with loggedIn := .loggedOut } := by
    rw [← hw₂]
    simp [hc₁]
  simp only [cregUnregister, run_bind, run_getStore, hi, modifyRegistry, run_modifyStore, hw₁,
    clientLogout_run_idle hc₁ hin hnodes hplayer hp₁ href, hw₂,
    clientUnref_run_loggedOut hc₂ (fun _ => rfl), run_pure]
  have hc' : (w.store.leave client player).clients.get? client
      = some { c with loggedIn := .loggedOut } := by simp [hc]
  subst hw₂ hw₁
  unfold Store.unregister Store.unrefClient
  simp only [hc₂, hc']
  split <;> rfl

theorem enlistPlayer_run (env : Env) (name : CString) (hv : w.store.Valid fun _ => 0)
    : ∃ w', (SessionCall.enlistPlayer name).run env w = .ok ((), w')
        ∧ SessionSteps w.store (.enlist name) w'.store := by
  unfold SessionCall.enlistPlayer
  by_cases havail : PlayerAvailable env w name
  . obtain ⟨p, hp, hname⟩ := hv.playerFor_name name
    obtain ⟨p', hp', href⟩ := (hv.enlist name).player _ (Store.Valid.playerFor_mem name)
    obtain rfl := Option.some.inj (hp.symm.trans hp')
    have hone : p.addRef.refCount ≠ 1 := by
      simp only [Player.addRef_refCount]
      omega
    have hback := modifyPlayer_addRef_dropRef hp
    refine ⟨{
      store := w.store.enlist name
      trace := { w.trace with allocs := w.trace.allocs + w.store.enlistAllocs name } }, ?_,
      .enlists name⟩
    simp only [run_bind, pregRegister_run hv havail]
    rw [playerUnref_run (p := p.addRef) (by simp [hp]) hone, hback]
  . obtain ⟨w₁, hrun, hstore, -⟩ := pregRegister_run_no_room hv havail
    refine ⟨w₁, by simp only [run_bind, hrun, run_pure], ?_⟩
    rcases hstore with hstore | ⟨p, hstore⟩
    . exact hstore ▸ .idle _
    . exact hstore ▸ .noRoom name p

theorem Store.Enrolled.login_run (h : w.store.Enrolled)
    (hc : w.store.clients.get? client = some c) (hout : c.loggedIn = .loggedOut)
    (hp : w.store.players.get? player = some p)
    : (clientLogin client player).run env w
        =
      if env.allocOk w.trace.allocs then
        if (w.store.lookup p.name).isSome then
          .ok (-1, { w with trace.allocs := w.trace.allocs + 1 })
        else
          .ok (0, {
            store := w.store.login client player
            trace := { w.trace with allocs := w.trace.allocs + 1 } })
      else
        .error .nullDereference :=
  clientLogin_run h.valid.slotsLive hc hout hp (by simp [h.sem client (h.live client c hc)])

theorem Store.Enrolled.steps (h : w.store.Enrolled) (hguard : NoRelogin w call)
    (hrun : SessionCall.exec env w call = .ok w') : SessionSteps w.store call w'.store := by
  cases call with
  | register fd =>
    obtain ⟨o, w₁, hrun', hconnects⟩ := cregRegister_run env h.valid.registry fd
    simp only [SessionCall.exec, hrun', Except.map, Except.ok.injEq] at hrun
    subst hrun
    cases hconnects with
    | refused => exact .idle _
    | failed n hqueue => exact .registerFails fd hqueue
    | connected n hqueue => exact .registers fd hqueue
  | enlist name =>
    obtain ⟨w₁, hrun', hsteps⟩ := enlistPlayer_run env name h.valid
    simp only [SessionCall.exec, hrun', Except.map, Except.ok.injEq] at hrun
    exact hrun ▸ hsteps
  | login client player =>
    simp only [SessionCall.exec] at hrun
    split at hrun
    . next hmem =>
      obtain ⟨p, hp, -⟩ := h.valid.player player hmem
      cases hc : w.store.clients.get? client with
      | none =>
        -- a client that has gone
        exfalso
        simp only [clientLogin, loginSemWait, run_bind, run_getStore, run_ite] at hrun
        by_cases hsem : w.store.loginSem = 0
        . simp [hsem, Except.map] at hrun
        . simp [hsem, Except.map, hc] at hrun
      | some c =>
        have hout : c.loggedIn = .loggedOut := by
          cases hstate : c.loggedIn with
          | loggedOut => rfl
          | loggedIn => simp [NoRelogin, Store.isLoggedIn, hc, hstate] at hguard
        rw [h.login_run hc hout hp] at hrun
        split at hrun
        . split at hrun
          . simp only [Except.map, Except.ok.injEq] at hrun
            exact hrun ▸ .idle _
          . next hfree =>
            simp only [Except.map, Except.ok.injEq] at hrun
            exact hrun ▸ .logsIn hc hout hmem hp (by simpa using hfree)
        . simp [Except.map] at hrun
    . simp only [Except.ok.injEq] at hrun
      exact hrun ▸ .idle _
  | logout client =>
    simp only [SessionCall.exec] at hrun
    cases hc : w.store.clients.get? client with
    | none =>
      simp only [clientLogout, run_bind, run_derefClient, hc, Except.map] at hrun
      simp at hrun
    | some c =>
      cases hstate : c.loggedIn with
      | loggedOut =>
        simp only [clientLogout_run_loggedOut hc hstate, Except.map, Except.ok.injEq] at hrun
        exact hrun ▸ .idle _
      | loggedIn =>
        obtain ⟨player, p, hplayer, hp, href⟩ := h.valid.session_player hc hstate
        simp only [clientLogout_run_idle hc hstate (h.noNodes hc) hplayer hp href, Except.map,
          Except.ok.injEq] at hrun
        exact hrun ▸ .logsOut hc hstate hplayer
  | unregister client =>
    simp only [SessionCall.exec] at hrun
    cases hi : w.store.clientRegistry.slotOf? client with
    | none =>
      simp only [cregUnregister, run_bind, run_getStore, hi, run_pure, Except.map,
        Except.ok.injEq] at hrun
      exact hrun ▸ .idle _
    | some i =>
      have hregistered : 0 < w.store.registered client := by
        refine Nat.pos_of_ne_zero fun hzero => ?_
        rw [ClientRegistry.slotOf?_eq_none.mpr (List.count_eq_zero.mp hzero)] at hi
        simp at hi
      obtain ⟨c, hc⟩ := h.valid.held_live client (by omega)
      cases hstate : c.loggedIn with
      | loggedOut =>
        simp only [cregUnregister_run hi hc hstate, Except.map, Except.ok.injEq] at hrun
        exact hrun ▸ .unregisters hc hstate hi
      | loggedIn =>
        obtain ⟨player, p, hplayer, hp, href⟩ := h.valid.session_player hc hstate
        simp only [cregUnregister_run_loggedIn hi hc hstate (h.noNodes hc) hplayer hp href,
          Except.map, Except.ok.injEq] at hrun
        exact hrun ▸ .departs hc hstate hplayer hi

/-! ## What they keep -/

namespace Store

theorem nameOf_congr {x : ClientPtr} (hplayer : s'.playerOf x = s.playerOf x)
    (hnames : ∀ player, s.playerOf x = some player →
      (s'.players.get? player).map (·.name) = (s.players.get? player).map (·.name))
    : s'.nameOf x = s.nameOf x := by
  unfold nameOf
  rw [hplayer]
  cases hof : s.playerOf x with
  | none => rfl
  | some player => exact hnames player hof

theorem playerOf_congr {x : ClientPtr}
    (hclient : (s'.clients.get? x).map (·.player) = (s.clients.get? x).map (·.player))
    : s'.playerOf x = s.playerOf x := by
  unfold playerOf
  cases hc' : s'.clients.get? x with
  | none => cases hc : s.clients.get? x <;> simp_all
  | some c' => cases hc : s.clients.get? x <;> simp_all

theorem registered_pos {x : ClientPtr} : 0 < s.registered x ↔ x ∈ s.clientRegistry.members :=
  List.count_pos_iff

theorem Enrolled.congr_names (h : s.Enrolled)
    (hmembers : s'.clientRegistry.members ⊆ s.clientRegistry.members)
    (hnames : ∀ x ∈ s'.clientRegistry.members, s'.nameOf x = s.nameOf x)
    : ∀ x y name, x ∈ s'.clientRegistry.members → y ∈ s'.clientRegistry.members →
      s'.nameOf x = some name → s'.nameOf y = some name → x = y := by
  intro x y name hx hy hnx hny
  rw [hnames x hx] at hnx
  rw [hnames y hy] at hny
  exact h.names x y name (hmembers hx) (hmembers hy) hnx hny

theorem Enrolled.registers (h : s.Enrolled) (hqueue : s.clientRegistry.loginQueue ≠ 0) (fd : Int)
    : (s.connect fd).Enrolled := by
  have hmembers : (s.connect fd).clientRegistry.members
      = s.clientRegistry.members ++ [s.clients.next] := h.valid.registry.members_enrol hqueue _
  have hold : ∀ x ∈ s.clientRegistry.members, (s.connect fd).nameOf x = s.nameOf x := by
    intro x hx
    obtain ⟨c, hc⟩ := h.valid.held_live x (by have := registered_pos.mpr hx; omega)
    have hc' : (s.connect fd).clients.get? x = some c := Heap.get?_push_of_get? hc
    exact nameOf_congr (playerOf_congr (by rw [hc, hc'])) (fun _ _ => rfl)
  have hnew : (s.connect fd).nameOf s.clients.next = none := by
    have hc' : (s.connect fd).clients.get? s.clients.next = some (newClient fd) :=
      Heap.get?_push_next
    simp [nameOf, playerOf, hc', newClient]
  refine ⟨h.valid.connect hqueue fd, h.alone, ?_, fun _ _ => rfl, ?_, h.players⟩
  . intro x c hc
    rw [registered_pos, hmembers, List.mem_append, List.mem_singleton]
    have hpush : (s.clients.push (newClient fd)).get? x = some c := hc
    rw [Heap.get?_push] at hpush
    split at hpush
    . next heq => exact .inr heq
    . exact .inl (registered_pos.mp (h.live x c hpush))
  . intro x y name hx hy hnx hny
    rw [hmembers, List.mem_append, List.mem_singleton] at hx hy
    rcases hx with hx | rfl
    . rcases hy with hy | rfl
      . rw [hold x hx] at hnx
        rw [hold y hy] at hny
        exact h.names x y name hx hy hnx hny
      . simp [hnew] at hny
    . simp [hnew] at hnx

theorem Enrolled.registerFails (h : s.Enrolled) (hqueue : s.clientRegistry.loginQueue ≠ 0)
    : s.connectFailed.Enrolled := by
  have hmembers : s.connectFailed.clientRegistry.members = s.clientRegistry.members := by
    have henrol := h.valid.registry.members_enrol hqueue none
    rwa [Option.toList_none, List.append_nil] at henrol
  refine ⟨h.valid.connectFailed hqueue, h.alone, ?_, fun _ _ => rfl, ?_, h.players⟩
  . intro x c hc
    rw [registered_pos, hmembers]
    exact registered_pos.mp (h.live x c hc)
  . apply h.congr_names (by rw [hmembers]; exact List.Subset.refl _)
    intro x _
    rfl

theorem Valid.nameOf_enlist (hv : s.Valid fun _ => 0) (name : CString) (x : ClientPtr)
    : (s.enlist name).nameOf x = s.nameOf x := by
  refine nameOf_congr (playerOf_congr (by rw [enlist_clients])) ?_
  intro player hof
  obtain ⟨c, hc, hplayer⟩ := Option.bind_eq_some_iff.mp hof
  obtain ⟨p, hp⟩ := hv.player_live hc hplayer
  unfold Store.enlist
  split
  . rfl
  . have hp' : (s.addPlayer name).players.get? player = some p := Heap.get?_push_of_get? hp
    rw [hp', hp]

theorem Enrolled.enlists (h : s.Enrolled) (name : CString) : (s.enlist name).Enrolled := by
  have hmembers : (s.enlist name).clientRegistry.members = s.clientRegistry.members := by
    rw [enlist_clientRegistry]
  refine ⟨h.valid.enlist name, ?_, ?_, ?_, ?_, ?_⟩
  . rw [enlist_invitations]
    exact h.alone
  . intro x c hc
    rw [enlist_clients] at hc
    rw [registered_pos, hmembers]
    exact registered_pos.mp (h.live x c hc)
  . intro x hx
    rw [registered_pos, hmembers] at hx
    rw [enlist_loginSem]
    exact h.sem x (registered_pos.mpr hx)
  . apply h.congr_names (by rw [hmembers]; exact List.Subset.refl _)
    intro x _
    exact h.valid.nameOf_enlist name x
  . unfold enlist
    split
    . exact h.players
    . next hnamed =>
      -- the new player is the only one of its name
      have hfree : ∀ player ∈ s.playerRegistry.players, ∀ p, s.players.get? player = some p →
          p.name ≠ name := by
        intro player hmem p hp heq
        have hnone := List.find?_eq_none.mp hnamed player hmem
        simp [hp, heq] at hnone
      intro player player' p p' hmem hmem' hp hp' heq
      have hget : ∀ x px, x ∈ s.playerRegistry.players →
          (s.addPlayer name).players.get? x = some px → s.players.get? x = some px := by
        intro x px hx hpx
        obtain ⟨p₀, hp₀⟩ := h.valid.registry_live x hx
        have hp₁ : (s.addPlayer name).players.get? x = some p₀ := Heap.get?_push_of_get? hp₀
        rw [hp₀, ← hp₁, hpx]
      have hnew : ∀ px, (s.addPlayer name).players.get? s.players.next = some px →
          px.name = name := by
        intro px hpx
        have hp₁ : (s.addPlayer name).players.get? s.players.next
            = some { name := name, refCount := 1, rating := playerInitialRating } :=
          Heap.get?_push_next
        rw [hp₁, Option.some.injEq] at hpx
        rw [← hpx]
      rcases List.mem_append.mp hmem with hx | hx
      . rcases List.mem_append.mp hmem' with hy | hy
        . exact h.players player player' p p' hx hy (hget _ _ hx hp) (hget _ _ hy hp') heq
        . rw [List.mem_singleton] at hy
          subst hy
          exact absurd (heq.trans (hnew _ hp')) (hfree player hx p (hget _ _ hx hp))
      . rw [List.mem_singleton] at hx
        subst hx
        rcases List.mem_append.mp hmem' with hy | hy
        . exact absurd (heq.symm.trans (hnew _ hp)) (hfree player' hy p' (hget _ _ hy hp'))
        . rw [List.mem_singleton] at hy
          exact hy.symm

theorem Enrolled.noRoom (h : s.Enrolled) (p : Player)
    : { s with players := s.players.push p }.Enrolled := by
  have hsub : { s with players := s.players.push p }.clientRegistry.members
      ⊆ s.clientRegistry.members := List.Subset.refl _
  refine ⟨h.valid.pushPlayer p, h.alone, h.live, h.sem, ?_, ?_⟩
  . apply h.congr_names hsub
    intro x _
    refine nameOf_congr rfl ?_
    intro player hof
    obtain ⟨c, hc, hplayer⟩ := Option.bind_eq_some_iff.mp hof
    obtain ⟨p₀, hp₀⟩ := h.valid.player_live hc hplayer
    dsimp only
    rw [Heap.get?_push_of_get? hp₀, hp₀]
  . intro player player' q q' hmem hmem' hq hq'
    obtain ⟨q₀, hq₀⟩ := h.valid.registry_live player hmem
    obtain ⟨q₁, hq₁⟩ := h.valid.registry_live player' hmem'
    dsimp only at hq hq'
    rw [Heap.get?_push_of_get? hq₀, ← hq₀] at hq
    rw [Heap.get?_push_of_get? hq₁, ← hq₁] at hq'
    exact h.players player player' q q' hmem hmem' hq hq'

theorem Enrolled.players_modify (h : s.Enrolled) {f : Player → Player} (player : PlayerPtr)
    (hf : ∀ p, (f p).name = p.name)
    : ∀ x y px py, x ∈ s.playerRegistry.players → y ∈ s.playerRegistry.players →
      (s.players.modify player f).get? x = some px → (s.players.modify player f).get? y = some py →
      px.name = py.name → x = y := by
  intro x y px py hx hy hpx hpy heq
  obtain ⟨qx, hqx, rfl⟩ := Heap.get?_modify_eq_some.mp hpx
  obtain ⟨qy, hqy, rfl⟩ := Heap.get?_modify_eq_some.mp hpy
  refine h.players x y qx qy hx hy hqx hqy ?_
  split at heq
  all_goals split at heq
  all_goals simpa only [hf] using heq

theorem leave_get?_self (player : PlayerPtr) (hc : s.clients.get? client = some c)
    : (s.leave client player).clients.get? client = some { c with loggedIn := .loggedOut } := by
  rw [leave_clients, Heap.get?_modify_self, hc, Option.map_some]

theorem Enrolled.leave (h : s.Enrolled) (hc : s.clients.get? client = some c)
    (hin : c.loggedIn = .loggedIn) (hplayer : c.player = some player)
    : (s.leave client player).Enrolled := by
  have hsub : (s.leave client player).clientRegistry.members
      ⊆ s.clientRegistry.members := List.Subset.refl _
  refine ⟨h.valid.leave hc hin hplayer, h.alone, ?_, h.sem, ?_,
    h.players_modify player fun _ => rfl⟩
  . intro x c' hc'
    rw [leave_clients] at hc'
    obtain ⟨c₀, hc₀, -⟩ := Heap.get?_modify_eq_some.mp hc'
    exact h.live x c₀ hc₀
  . apply h.congr_names hsub
    intro x _
    refine nameOf_congr (playerOf_congr ?_) fun player' _ => ?_
    . rw [leave_clients]
      exact Heap.map_get?_modify fun _ => rfl
    . rw [leave_players]
      exact Heap.map_get?_modify fun _ => rfl

theorem Enrolled.login (h : s.Enrolled) (hc : s.clients.get? client = some c)
    (hout : c.loggedIn = .loggedOut) (hmem : player ∈ s.playerRegistry.players)
    (hp : s.players.get? player = some p) (hfree : s.lookup p.name = none)
    : (s.login client player).Enrolled := by
  have hregistered := h.live client c hc
  -- nobody has the name, and afterwards the client has it
  have hnone : ∀ x ∈ s.clientRegistry.members, s.nameOf x ≠ some p.name := by
    intro x hx hname
    have hnot := List.find?_eq_none.mp hfree x hx
    simp [hname] at hnot
  have hself : (s.login client player).nameOf client = some p.name := by
    simp [nameOf, playerOf, hc, hp]
  have hother : ∀ x, x ≠ client → (s.login client player).nameOf x = s.nameOf x := by
    intro x hne
    refine nameOf_congr (playerOf_congr ?_) fun player' _ => ?_
    . rw [login_clients, Heap.get?_modify_ne hne]
    . rw [login_players]
      exact Heap.map_get?_modify fun _ => rfl
  refine ⟨h.valid.login hc hout (by omega) hmem, h.alone, ?_, h.sem, ?_,
    h.players_modify player fun _ => rfl⟩
  . intro x c' hc'
    rw [login_clients] at hc'
    obtain ⟨c₀, hc₀, -⟩ := Heap.get?_modify_eq_some.mp hc'
    exact h.live x c₀ hc₀
  . intro x y name hx hy hnx hny
    by_cases hxc : x = client
    . by_cases hyc : y = client
      . exact hxc.trans hyc.symm
      . subst hxc
        rw [hself] at hnx
        rw [hother y hyc, ← hnx] at hny
        exact absurd hny (hnone y hy)
    . by_cases hyc : y = client
      . subst hyc
        rw [hself] at hny
        rw [hother x hxc, ← hny] at hnx
        exact absurd hnx (hnone x hx)
      . rw [hother x hxc] at hnx
        rw [hother y hyc] at hny
        exact h.names x y name hx hy hnx hny

/--
The reference of the registry is the only one there is, so the client does not outlive it.
-/
theorem Enrolled.unregister_gone (h : s.Enrolled) (i : Nat) (hc : s.clients.get? client = some c)
    : (s.unregister client i).clients.get? client = none := by
  have hcount := (h.valid.client client c hc).refCount
  have hone := registered_le_one h.valid client
  have hpos := h.live client c hc
  have hnone : s.involved client = 0 := by
    apply Heap.countP_eq_zero
    intro inv i hi
    simp [h.alone] at hi
  have href : c.refCount = 1 := by omega
  unfold Store.unregister Store.unrefClient
  simp [hc, href]

theorem Enrolled.unregister (h : s.Enrolled) {i : Nat} (hc : s.clients.get? client = some c)
    (hout : c.loggedIn = .loggedOut) (hi : s.clientRegistry.slotOf? client = some i)
    : (s.unregister client i).Enrolled := by
  have hregistered := fun x => registered_unregister (x := x) h.valid hi
  have hmembers : (s.unregister client i).clientRegistry.members ⊆ s.clientRegistry.members := by
    intro x hx
    rw [← registered_pos, hregistered] at hx
    exact registered_pos.mp (by omega)
  have hgone := h.unregister_gone i hc
  have hnot : client ∉ (s.unregister client i).clientRegistry.members := by
    intro hx
    rw [← registered_pos, hregistered, if_pos rfl] at hx
    have hone := registered_le_one h.valid client
    omega
  have hsame : (s.unregister client i).invitations = s.invitations
      ∧ (s.unregister client i).players = s.players
      ∧ (s.unregister client i).playerRegistry = s.playerRegistry := by
    unfold Store.unregister Store.unrefClient
    simp only [hc]
    split <;> exact ⟨rfl, rfl, rfl⟩
  obtain ⟨hinvitations, hplayers, hregistry⟩ := hsame
  refine ⟨h.valid.unregister hi hc hout, ?_, ?_, ?_, ?_, ?_⟩
  . rw [hinvitations]
    exact h.alone
  . intro x cx hcx
    have hne : x ≠ client := by
      rintro rfl
      simp [hgone] at hcx
    rw [unregister_clients_ne hne] at hcx
    rw [hregistered, if_neg hne]
    exact h.live x cx hcx
  . intro x hx
    rw [unregister_loginSem]
    exact h.sem x (registered_pos.mpr (hmembers (registered_pos.mp hx)))
  . apply h.congr_names hmembers
    intro x hx
    have hne : x ≠ client := fun heq => hnot (heq ▸ hx)
    exact nameOf_congr (playerOf_congr (by rw [unregister_clients_ne hne]))
      (fun _ _ => by rw [hplayers])
  . rw [hregistry, hplayers]
    exact h.players

theorem Enrolled.after (h : s.Enrolled) (hsteps : SessionSteps s call s') : s'.Enrolled := by
  cases hsteps with
  | idle => exact h
  | registers fd hqueue => exact h.registers hqueue fd
  | registerFails fd hqueue => exact h.registerFails hqueue
  | enlists name => exact h.enlists name
  | noRoom name p => exact h.noRoom p
  | logsIn hc hout hmem hp hfree => exact h.login hc hout hmem hp hfree
  | logsOut hc hin hplayer => exact h.leave hc hin hplayer
  | unregisters hc hout hi => exact h.unregister hc hout hi
  | @departs client player c i hc hin hplayer hi =>
    exact (h.leave hc hin hplayer).unregister (leave_get?_self player hc) rfl hi

theorem initial_enrolled : initialStore.Enrolled where
  valid := Server.initial_ok.steady.valid
  alone := by simp [initialStore]
  live := by simp [initialStore]
  sem := by simp [initialStore, registered, ClientRegistry.members, ClientRegistry.slots]
  names := by simp [initialStore, ClientRegistry.members, ClientRegistry.slots]
  players := by simp [initialStore]

end Store

theorem SessionCall.exec_of_step (h : (SessionCall.machine env).step w call = some w')
    : SessionCall.exec env w call = .ok w' := Except.eq_ok_of_toOption h

theorem Store.enrolled_of_reach
    (h : (SessionCall.machine env).Reach NoRelogin initialWorld w) : w.store.Enrolled :=
  h.invariant (fun w => w.store.Enrolled) initial_enrolled fun _ _ _ henrolled hguard hstep =>
    henrolled.after (henrolled.steps hguard (SessionCall.exec_of_step hstep))

end Jeux
