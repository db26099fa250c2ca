import Jeux.Service.Sessions

/-!
Who is logged in, and under which name. The session of a client is recorded twice, as the flag
`logged_in` and as the pointer to the player; `creg_lookup` and `creg_all_players` read the pointer.
-/

namespace Jeux

open ServerM

variable {env : Env} {w w' : World} {s s' : Store} {client : ClientPtr} {c : Client}
  {player : PlayerPtr} {p : Player} {call : SessionCall} {name : CString}

theorem clientGetPlayer_run (hc : w.store.clients.get? client = some c)
    : (clientGetPlayer client).run env w = .ok (c.player, w) := by
  simp only [clientGetPlayer, run_bind, run_derefClient, hc, run_pure]

namespace Store

theorem isLoggedIn_eq (hc : s.clients.get? client = some c)
    : s.isLoggedIn client = true ↔ c.loggedIn = .loggedIn := by
  unfold isLoggedIn
  simp only [hc, decide_eq_true_eq]

theorem nameOf_eq (hc : s.clients.get? client = some c) (hplayer : c.player = some player)
    (hp : s.players.get? player = some p) : s.nameOf client = some p.name := by
  unfold nameOf playerOf
  simp only [hc, hplayer, hp, Option.bind_some, Option.map_some]

theorem Enrolled.member_live (h : s.Enrolled) (hmem : client ∈ s.clientRegistry.members)
    : ∃ c, s.clients.get? client = some c := by
  have hregistered := registered_pos.mpr hmem
  exact h.valid.held_live client (by omega)

theorem Enrolled.lookup_eq (h : s.Enrolled) (hmem : client ∈ s.clientRegistry.members)
    (hname : s.nameOf client = some name) : s.lookup name = some client := by
  cases hfound : s.lookup name with
  | none =>
    have hnot := List.find?_eq_none.mp hfound client hmem
    simp [hname] at hnot
  | some other =>
    have hmem' := List.mem_of_find?_eq_some hfound
    have hname' := List.find?_some hfound
    simp only [decide_eq_true_eq] at hname'
    rw [h.names other client name hmem' hmem hname' hname]

end Store

/-! ## Names -/

/--
No name is used twice, a login that would use one again is refused, and the client that is logged in
under a name is the one that is found.
-/
structure UsernamesUnique (env : Env) (w : World) : Prop where
  unique : ∀ x y name, x ∈ w.store.clientRegistry.members → y ∈ w.store.clientRegistry.members →
    w.store.nameOf x = some name → w.store.nameOf y = some name → x = y
  refused : ∀ client other player p, client ∈ w.store.clientRegistry.members →
    other ∈ w.store.clientRegistry.members → other ≠ client →
    w.store.players.get? player = some p → w.store.nameOf other = some p.name →
    env.allocOk w.trace.allocs = true → ∃ w', (clientLogin client player).run env w = .ok (-1, w')
  found : ∀ client name, client ∈ w.store.clientRegistry.members →
    w.store.isLoggedIn client = true → w.store.nameOf client = some name →
    ∃ w', (cregLookup name).run env w = .ok (some client, w')

theorem clientLogin_run_loggedIn (hsem : w.store.loginSem ≠ 0)
    (hc : w.store.clients.get? client = some c) (hin : c.loggedIn = .loggedIn)
    : ∃ w', (clientLogin client player).run env w = .ok (-1, w') := by
  simp only [clientLogin, loginSemWait, run_bind, run_getStore, if_neg hsem, run_modifyStore,
    run_derefClient, hc, hin, ne_eq, reduceCtorEq, not_false_eq_true, ↓reduceIte, run_pure]
  exact ⟨_, rfl⟩

theorem usernames_unique
    (h : (SessionCall.machine env).Reach NoRelogin initialWorld w) : UsernamesUnique env w := by
  have henrolled := Store.enrolled_of_reach h
  refine ⟨henrolled.names, ?_, ?_⟩
  . intro client other player p hmem hother hne hp hname halloc
    obtain ⟨c, hc⟩ := henrolled.member_live hmem
    cases hstate : c.loggedIn with
    | loggedOut =>
      rw [henrolled.login_run hc hstate hp, if_pos halloc, henrolled.lookup_eq hother hname]
      exact ⟨_, rfl⟩
    | loggedIn =>
      refine clientLogin_run_loggedIn ?_ hc hstate
      rw [henrolled.sem client (Store.registered_pos.mpr hmem)]
      exact Nat.one_ne_zero
  . intro client name hmem _ hname
    rw [cregLookup_run name henrolled.valid, henrolled.lookup_eq hmem hname]
    exact ⟨_, rfl⟩

def loggedInOnce : List SessionCall :=
  [.register 4, .register 5, .enlist [65], .enlist [66], .login 0 0]

theorem usernames_unique_of_loggedInOnce
    : ∃ w, (SessionCall.machine calmEnv).Reach NoRelogin initialWorld w
      ∧ w.store.isLoggedIn 0 = true ∧ UsernamesUnique calmEnv w := by
  obtain ⟨w, hreach, hin⟩ := Machine.Reach.of_any_run (SessionCall.machine calmEnv) NoRelogin
    initialWorld loggedInOnce (fun w => w.store.isLoggedIn 0) (by decide +kernel)
  exact ⟨w, hreach, hin, usernames_unique hreach⟩

/--
The first client tries to log in again and leaves the semaphore taken, so that the login of the
second as `A` is never refused: it does not return.
-/
theorem not_usernames_unique
    : ∃ w, (SessionCall.machine calmEnv).Reach (fun _ _ => True) initialWorld w
      ∧ ¬ UsernamesUnique calmEnv w := by
  obtain ⟨w, hreach, hcheck⟩ := Machine.Reach.of_any_run (SessionCall.machine calmEnv)
    (fun _ _ => True) initialWorld (loggedInOnce ++ [.login 0 1])
    (fun w => decide (1 ∈ w.store.clientRegistry.members ∧ 0 ∈ w.store.clientRegistry.members
      ∧ (w.store.players.get? 0).map (·.name) = some [65] ∧ w.store.nameOf 0 = some [65]
      ∧ ((clientLogin 1 0).run calmEnv w).toOption.isNone))
    (by decide +kernel)
  obtain ⟨hone, hzero, hplayer, hname, hblocked⟩ := of_decide_eq_true hcheck
  refine ⟨w, hreach, fun hunique => ?_⟩
  obtain ⟨p, hp, hpname⟩ := Option.map_eq_some_iff.mp hplayer
  obtain ⟨w', hrun⟩ := hunique.refused 1 0 0 p hone hzero (by decide) hp (hpname ▸ hname) rfl
  simp [hrun, Except.toOption] at hblocked

/-! ## Sessions -/

/--
Sessions are ended by `creg_unregister`, and no client that is logged in is logged in again.
-/
def LogoutsUnregister (w : World) : SessionCall → Prop
  | .login client _ => w.store.isLoggedIn client = false
  | .logout client => w.store.isLoggedIn client = false
  | _ => True

instance (w : World) (call : SessionCall) : Decidable (LogoutsUnregister w call) :=
  match call with
  | .login client _ | .logout client =>
    inferInstanceAs (Decidable (w.store.isLoggedIn client = false))
  | .register _ | .enlist _ | .unregister _ => .isTrue trivial

theorem LogoutsUnregister.noRelogin (h : LogoutsUnregister w call) : NoRelogin w call := by
  cases call with
  | login client player => exact h
  | _ => trivial

/--
The flag and the pointer say the same, `creg_all_players` and `creg_lookup` find those who are logged
in, and whoever is logged out can log in as a player that nobody is logged in as.
-/
structure SessionsAgree (env : Env) (w : World) : Prop where
  player : ∀ client ∈ w.store.clientRegistry.members,
    ∃ o, (clientGetPlayer client).run env w = .ok (o, w)
      ∧ (o ≠ none ↔ w.store.isLoggedIn client = true)
  all : env.allocOk w.trace.allocs = true →
    ∃ players w', cregAllPlayers.run env w = .ok (players, w')
      ∧ players.map some
          = (w.store.clientRegistry.members.filter w.store.isLoggedIn).map w.store.playerOf
  lookup : ∀ name, ∃ o w', (cregLookup name).run env w = .ok (o, w')
    ∧ (o ≠ none ↔ ∃ client ∈ w.store.clientRegistry.members,
        w.store.isLoggedIn client = true ∧ w.store.nameOf client = some name)
  login : ∀ client player, client ∈ w.store.clientRegistry.members →
    w.store.isLoggedIn client = false → player ∈ w.store.playerRegistry.players →
    (∀ x ∈ w.store.clientRegistry.members, w.store.isLoggedIn x = true →
      w.store.playerOf x ≠ some player) →
    env.allocOk w.trace.allocs = true →
    ∃ w', (clientLogin client player).run env w = .ok (0, w')

structure Store.Current (s : Store) : Prop extends s.Enrolled where
  session : ∀ client c, s.clients.get? client = some c → c.player ≠ none → c.loggedIn = .loggedIn

namespace Store

theorem Current.player_iff (h : s.Current) (hc : s.clients.get? client = some c)
    : c.player ≠ none ↔ s.isLoggedIn client = true := by
  rw [isLoggedIn_eq hc]
  exact ⟨h.session client c hc, (h.valid.client client c hc).player⟩

theorem Current.playerOf_iff (h : s.Current) (hmem : client ∈ s.clientRegistry.members)
    : s.playerOf client ≠ none ↔ s.isLoggedIn client = true := by
  obtain ⟨c, hc⟩ := h.member_live hmem
  rw [← h.player_iff hc]
  unfold playerOf
  rw [hc, Option.bind_some]

theorem map_some_filterMap_playerOf (clients : List ClientPtr)
    (hiff : ∀ client ∈ clients, s.playerOf client ≠ none ↔ s.isLoggedIn client = true)
    : (clients.filterMap s.playerOf).map some = (clients.filter s.isLoggedIn).map s.playerOf := by
  induction clients with
  | nil => rfl
  | cons client rest ih =>
    have hrest := ih fun x hx => hiff x (List.mem_cons_of_mem _ hx)
    have hclient := hiff client List.mem_cons_self
    cases hof : s.playerOf client with
    | none =>
      have hout : s.isLoggedIn client = false := by simpa [hof] using hclient
      rw [List.filterMap_cons_none hof, List.filter_cons_of_neg (by simp [hout])]
      exact hrest
    | some player =>
      have hin : s.isLoggedIn client = true := by simpa [hof] using hclient
      rw [List.filterMap_cons_some hof, List.filter_cons_of_pos hin, List.map_cons, List.map_cons,
        hof, hrest]

theorem Current.lookup_iff (h : s.Current) (name : CString)
    : s.lookup name ≠ none
        ↔
      ∃ client ∈ s.clientRegistry.members,
        s.isLoggedIn client = true ∧ s.nameOf client = some name := by
  constructor
  . intro hne
    obtain ⟨client, hfound⟩ := Option.ne_none_iff_exists'.mp hne
    have hmem := List.mem_of_find?_eq_some hfound
    have hname := List.find?_some hfound
    simp only [decide_eq_true_eq] at hname
    have hplayer : s.playerOf client ≠ none := by
      intro hnone
      simp [nameOf, hnone] at hname
    exact ⟨client, hmem, (h.playerOf_iff hmem).mp hplayer, hname⟩
  . rintro ⟨client, hmem, -, hname⟩
    simp [h.lookup_eq hmem hname]

theorem Current.lookup_free (h : s.Current) (hmem : player ∈ s.playerRegistry.players)
    (hp : s.players.get? player = some p)
    (hfree : ∀ x ∈ s.clientRegistry.members, s.isLoggedIn x = true → s.playerOf x ≠ some player)
    : s.lookup p.name = none := by
  by_contra hne
  obtain ⟨x, hx, hin, hname⟩ := (h.lookup_iff p.name).mp hne
  obtain ⟨player', hof, hsame⟩ := Option.bind_eq_some_iff.mp hname
  obtain ⟨p', hp', heq⟩ := Option.map_eq_some_iff.mp hsame
  obtain ⟨c, hc⟩ := h.member_live hx
  have hknown : player' ∈ s.playerRegistry.players := by
    rw [playerOf, hc, Option.bind_some] at hof
    exact (h.valid.client x c hc).known player' hof
  obtain rfl := h.players player' player p' p hknown hmem hp' hp heq
  exact hfree x hx hin hof

theorem ne_of_get?_none {x : ClientPtr} (hgone : s.clients.get? client = none)
    (hx : s.clients.get? x = some c) : x ≠ client := by
  rintro rfl
  simp [hgone] at hx

theorem Current.after (h : s.Current) (hsteps : SessionSteps s call s')
    (hguard : ∀ client, call = .logout client → s.isLoggedIn client = false) : s'.Current := by
  refine ⟨h.toEnrolled.after hsteps, ?_⟩
  cases hsteps with
  | idle => exact h.session
  | registers fd hqueue =>
    intro x c hc hplayer
    have hpush : (s.clients.push (newClient fd)).get? x = some c := hc
    rw [Heap.get?_push] at hpush
    split at hpush
    . rw [Option.some.injEq] at hpush
      simp [← hpush, newClient] at hplayer
    . exact h.session x c hpush hplayer
  | registerFails fd hqueue => exact h.session
  | enlists name =>
    rw [enlist_clients]
    exact h.session
  | noRoom name p => exact h.session
  | logsIn hc hout hmem hp hfree =>
    intro x cx hcx hplayer
    rw [login_clients] at hcx
    obtain ⟨c₀, hc₀, rfl⟩ := Heap.get?_modify_eq_some.mp hcx
    split at hplayer
    . next heq => rw [if_pos heq]
    . next hne =>
      rw [if_neg hne]
      exact h.session x c₀ hc₀ hplayer
  | logsOut hc hin hplayer =>
    have hout := hguard _ rfl
    rw [← Bool.not_eq_true, isLoggedIn_eq hc] at hout
    exact absurd hin hout
  | @unregisters client c i hc hout hi =>
    intro x cx hcx hplayer
    have hne : x ≠ client := ne_of_get?_none (h.unregister_gone _ hc) hcx
    rw [unregister_clients_ne hne] at hcx
    exact h.session x cx hcx hplayer
  | @departs client player c i hc hin hplayer hi =>
    intro x cx hcx hpx
    have hleft := h.leave hc hin hplayer
    have hc' := leave_get?_self player hc
    have hne : x ≠ client := ne_of_get?_none (hleft.unregister_gone _ hc') hcx
    rw [unregister_clients_ne hne, leave_clients, Heap.get?_modify_ne hne] at hcx
    exact h.session x cx hcx hpx

theorem current_of_reach
    (h : (SessionCall.machine env).Reach LogoutsUnregister initialWorld w) : w.store.Current := by
  have hinit : initialStore.Current := ⟨initial_enrolled, by simp [initialStore]⟩
  refine h.invariant (fun w => w.store.Current) hinit ?_
  intro w call w' hcurrent hguard hstep
  refine hcurrent.after
    (hcurrent.toEnrolled.steps hguard.noRelogin (SessionCall.exec_of_step hstep)) ?_
  intro client hcall
  rw [hcall] at hguard
  exact hguard

end Store

theorem sessions_agree
    (h : (SessionCall.machine env).Reach LogoutsUnregister initialWorld w) : SessionsAgree env w := by
  have hcurrent := Store.current_of_reach h
  have hlive := hcurrent.valid.slotsLive
  refine ⟨?_, ?_, ?_, ?_⟩
  . intro client hmem
    obtain ⟨c, hc⟩ := hcurrent.member_live hmem
    exact ⟨c.player, clientGetPlayer_run hc, hcurrent.player_iff hc⟩
  . intro halloc
    rw [cregAllPlayers_run hlive, if_pos halloc]
    refine ⟨_, _, rfl, ?_⟩
    exact Store.map_some_filterMap_playerOf _ fun client hmem => hcurrent.playerOf_iff hmem
  . intro name
    rw [cregLookup_run name hcurrent.valid, ← hcurrent.lookup_iff name]
    cases w.store.lookup name with
    | none => exact ⟨_, _, rfl, Iff.rfl⟩
    | some client => exact ⟨_, _, rfl, by simp⟩
  . intro client player hmem hout hplayer hfree halloc
    obtain ⟨c, hc⟩ := hcurrent.member_live hmem
    obtain ⟨p, hp, -⟩ := hcurrent.valid.player player hplayer
    have hstate : c.loggedIn = .loggedOut := by
      rw [← Bool.not_eq_true, Store.isLoggedIn_eq hc] at hout
      cases hin : c.loggedIn with
      | loggedOut => rfl
      | loggedIn => exact absurd hin hout
    rw [hcurrent.login_run hc hstate hp, if_pos halloc, hcurrent.lookup_free hplayer hp hfree]
    exact ⟨_, rfl⟩

theorem sessions_agree_of_loggedInOnce
    : ∃ w, (SessionCall.machine calmEnv).Reach LogoutsUnregister initialWorld w
      ∧ w.store.isLoggedIn 0 = true ∧ SessionsAgree calmEnv w := by
  obtain ⟨w, hreach, hin⟩ := Machine.Reach.of_any_run (SessionCall.machine calmEnv)
    LogoutsUnregister initialWorld loggedInOnce (fun w => w.store.isLoggedIn 0) (by decide +kernel)
  exact ⟨w, hreach, hin, sessions_agree hreach⟩

/--
After `client_logout` the client keeps its player. It is found under its name as before, and nobody
can log in as that player.
-/
theorem not_sessions_agree
    : ∃ w, (SessionCall.machine calmEnv).Reach (fun _ _ => True) initialWorld w
      ∧ ¬ SessionsAgree calmEnv w := by
  obtain ⟨w, hreach, hcheck⟩ := Machine.Reach.of_any_run (SessionCall.machine calmEnv)
    (fun _ _ => True) initialWorld (loggedInOnce ++ [.logout 0])
    (fun w => decide (0 ∈ w.store.clientRegistry.members ∧ w.store.isLoggedIn 0 = false
      ∧ (w.store.clients.get? 0).map (·.player) = some (some 0)))
    (by decide +kernel)
  obtain ⟨hmem, hout, hplayer⟩ := of_decide_eq_true hcheck
  refine ⟨w, hreach, fun hagree => ?_⟩
  obtain ⟨c, hc, hof⟩ := Option.map_eq_some_iff.mp hplayer
  obtain ⟨o, hrun, hiff⟩ := hagree.player 0 hmem
  rw [clientGetPlayer_run hc, hof] at hrun
  simp only [Except.ok.injEq, Prod.mk.injEq, and_true] at hrun
  rw [← hrun, hout] at hiff
  simp at hiff

end Jeux
