import Jeux.Service.Usernames

/-!
`client_login` with the mutex of the client registry, which `creg_all_players` takes and gives back
on one of its two exits only. `Impl.Registry` leaves the mutex out, because on every path that comes
back to it the mutex is free; here it is part of the state, next to the login semaphore.
-/

namespace Jeux

/--
The memory of the server, and whether the mutex of the client registry is held.
-/
structure Locked where
  world : World
  mutex : Bool
  deriving DecidableEq

abbrev LockedM := ReaderT Env (StateT Locked (Except Fault))

namespace LockedM

variable {α β : Type} {env : Env} {l : Locked}

def run (x : LockedM α) (env : Env) (l : Locked) : Except Fault (α × Locked) := x env l

def fault (f : Fault) : LockedM α := fun _ _ => .error f

def lift (x : ServerM α) : LockedM α := fun env l =>
  match x.run env l.world with
  | .ok (a, w) => .ok (a, { l with world := w })
  | .error f => .error f

/--
`pthread_mutex_lock`. Nobody gives the mutex back while the caller waits.
-/
def lock : LockedM Unit := fun _ l =>
  if l.mutex then .error .deadlock else .ok ((), { l with mutex := true })

def unlock : LockedM Unit := fun _ l => .ok ((), { l with mutex := false })

@[simp]
theorem run_pure (a : α) : (pure a : LockedM α).run env l = .ok (a, l) := rfl

@[simp]
theorem run_bind (x : LockedM α) (f : α → LockedM β)
    : (x >>= f).run env l
        =
      match x.run env l with
      | .ok (a, l') => (f a).run env l'
      | .error e => .error e := by
  show Except.bind (x env l) _ = _
  unfold Except.bind run
  cases x env l with
  | error e => rfl
  | ok p => rfl

@[simp]
theorem run_ite {c : Prop} [Decidable c] (x y : LockedM α)
    : (if c then x else y).run env l = if c then x.run env l else y.run env l := by
  split <;> rfl

@[simp]
theorem run_fault (f : Fault) : (fault f : LockedM α).run env l = .error f := rfl

@[simp]
theorem run_lift (x : ServerM α)
    : (lift x).run env l
        =
      match x.run env l.world with
      | .ok (a, w) => .ok (a, { l with world := w })
      | .error f => .error f := rfl

@[simp]
theorem run_lock
    : lock.run env l
        =
      if l.mutex then .error .deadlock else .ok ((), { l with mutex := true }) := rfl

@[simp]
theorem run_unlock : unlock.run env l = .ok ((), { l with mutex := false }) := rfl

/-! ## The two functions -/

/--
`creg_all_players`. When there is no room for the array it returns NULL, and keeps the mutex.
-/
def cregAllPlayers : LockedM (Option (List PlayerPtr)) := do
  lock
  if ← lift ServerM.allocate then
    let players ← lift (ServerM.getStore >>= fun s => allPlayersLoop s.clientRegistry.slots)
    unlock
    return some players
  else
    return none

/--
`client_login`. The array is used without a check.
-/
def clientLogin (client : ClientPtr) (player : PlayerPtr) : LockedM Int := do
  lift loginSemWait
  if (← lift (ServerM.derefClient client)).loggedIn ≠ .loggedOut then
    return -1
  else
    let players ← cregAllPlayers
    let name ← lift (playerGetName player)
    match players with
    | none => fault .nullDereference
    | some players =>
      if ← lift (loginLoop name players) then
        lift loginSemPost
        return -1
      else
        lift (ServerM.modifyStore (·.modifyClient client fun c => { c with player := some player }))
        lift (playerRef player)
        lift (ServerM.modifyStore (·.modifyClient client fun c => { c with loggedIn := .loggedIn }))
        lift loginSemPost
        return 0

end LockedM

open ServerM

variable {env : Env} {w : World} {l : Locked} {client : ClientPtr} {c : Client} {player : PlayerPtr}
  {p : Player}

/-! ## With the mutex free -/

def Locked.free {α : Type} : Except Fault (α × World) → Except Fault (α × Locked)
  | .ok (a, w) => .ok (a, { world := w, mutex := false })
  | .error f => .error f

def Agrees {α : Type} (env : Env) (w : World) (x : LockedM α) (y : ServerM α) : Prop :=
  x.run env { world := w, mutex := false } = Locked.free (y.run env w)

namespace Agrees

variable {α β : Type} {x : LockedM α} {y : ServerM α} {f : α → LockedM β} {g : α → ServerM β}

theorem pure (a : α) : Agrees env w (Pure.pure a) (Pure.pure a) := rfl

theorem lift (y : ServerM α) : Agrees env w (LockedM.lift y) y := by
  unfold Agrees
  rw [LockedM.run_lift]
  cases y.run env w with
  | error f => rfl
  | ok r => rfl

theorem bind (hx : Agrees env w x y)
    (hf : ∀ a w', y.run env w = .ok (a, w') → Agrees env w' (f a) (g a))
    : Agrees env w (x >>= f) (y >>= g) := by
  unfold Agrees at hx ⊢
  rw [LockedM.run_bind, run_bind, hx]
  cases hy : y.run env w with
  | error f => rfl
  | ok r => exact hf r.1 r.2 hy

theorem ite {b : Prop} [Decidable b] {x' : LockedM α} {y' : ServerM α} (ht : b → Agrees env w x y)
    (he : ¬ b → Agrees env w x' y') : Agrees env w (if b then x else x') (if b then y else y') := by
  split
  . next h => exact ht h
  . next h => exact he h

end Agrees

theorem LockedM.run_cregAllPlayers
    : LockedM.cregAllPlayers.run env { world := w, mutex := false }
        =
      if env.allocOk w.trace.allocs then
        Locked.free ((Jeux.cregAllPlayers.run env w).map fun r => (some r.1, r.2))
      else
        .ok (none, { world := { w with trace.allocs := w.trace.allocs + 1 }, mutex := true }) := by
  simp only [LockedM.cregAllPlayers, Jeux.cregAllPlayers, run_bind, run_lock, Bool.false_eq_true,
    ↓reduceIte, run_lift, ServerM.run_allocate, run_ite, ServerM.run_ite, ServerM.run_bind,
    ServerM.run_getStore, run_pure]
  cases env.allocOk w.trace.allocs with
  | false => rfl
  | true =>
    simp only [↓reduceIte]
    cases (allPlayersLoop w.store.clientRegistry.slots).run env _ with
    | error f => rfl
    | ok r => rfl

theorem loginSemWait_ok {w' : World} (h : loginSemWait.run env w = .ok ((), w'))
    : w' = { w with store.loginSem := w.store.loginSem - 1 } := by
  unfold loginSemWait at h
  simp only [run_bind, run_getStore, run_ite, run_fault, run_modifyStore] at h
  split at h
  . exact absurd h (by simp)
  . simp only [Except.ok.injEq, Prod.mk.injEq, true_and] at h
    exact h.symm

theorem derefClient_ok {w' : World} (h : (derefClient client).run env w = .ok (c, w')) : w' = w := by
  rw [run_derefClient] at h
  split at h
  . simp only [Except.ok.injEq, Prod.mk.injEq] at h
    exact h.2.symm
  . exact absurd h (by simp)

theorem LockedM.clientLogin_agrees (env : Env) (client : ClientPtr)
    (hp : w.store.players.get? player = some p)
    : Agrees env w (LockedM.clientLogin client player) (Jeux.clientLogin client player) := by
  unfold LockedM.clientLogin Jeux.clientLogin
  apply (Agrees.lift loginSemWait).bind
  intro _ w₁ hwait
  apply (Agrees.lift (derefClient client)).bind
  intro c w₂ hderef
  apply Agrees.ite
  . intro _
    exact Agrees.pure (-1)
  intro _
  have hp₂ : w₂.store.players.get? player = some p := by
    rw [derefClient_ok hderef, loginSemWait_ok hwait]
    exact hp
  unfold Agrees
  rw [LockedM.run_bind, LockedM.run_cregAllPlayers, ServerM.run_bind]
  cases halloc : env.allocOk w₂.trace.allocs with
  | false =>
    simp only [Jeux.cregAllPlayers, run_bind, ServerM.run_bind, run_allocate, halloc,
      Bool.false_eq_true, ↓reduceIte, run_lift, playerGetName, run_derefPlayer, hp₂,
      ServerM.run_pure, run_fault, ServerM.run_fault, Locked.free]
  | true =>
    simp only [↓reduceIte]
    cases Jeux.cregAllPlayers.run env w₂ with
    | error f => rfl
    | ok r =>
      -- the array is there and the mutex is free again
      apply (Agrees.lift (playerGetName player)).bind
      intro name w₄ _
      apply (Agrees.lift (loginLoop name r.1)).bind
      intro taken w₅ _
      apply Agrees.ite
      . intro _
        exact (Agrees.lift loginSemPost).bind fun _ _ _ => Agrees.pure (-1)
      . intro _
        apply (Agrees.lift _).bind
        intro _ w₆ _
        apply (Agrees.lift _).bind
        intro _ w₇ _
        apply (Agrees.lift _).bind
        intro _ w₈ _
        exact (Agrees.lift loginSemPost).bind fun _ _ _ => Agrees.pure 0

/-! ## What a failed login leaves behind -/

def Store.NameInUse (s : Store) (name : CString) : Prop :=
  ∃ client, 0 < s.registered client ∧ s.nameOf client = some name

theorem Store.nameInUse_iff {s : Store} {name : CString}
    : s.NameInUse name ↔ (s.lookup name).isSome = true := by
  unfold NameInUse lookup
  rw [List.find?_isSome]
  constructor
  . rintro ⟨client, hregistered, hname⟩
    exact ⟨client, Store.registered_pos.mp hregistered, by simpa using hname⟩
  . rintro ⟨client, hmem, hname⟩
    exact ⟨client, Store.registered_pos.mpr hmem, by simpa using hname⟩

def Locked.Proceeds (env : Env) (l : Locked) : Prop :=
  ∀ client c player p, l.world.store.clients.get? client = some c →
    l.world.store.players.get? player = some p →
    (LockedM.clientLogin client player).run env l ≠ .error .deadlock

/--
`client_login` returns `r`. It fails when the client is logged in or the name of the player is in
use, and then everything is as it was, but for the allocation that has been made and taken back.
-/
structure LoginReports (env : Env) (l : Locked) (client : ClientPtr) (player : PlayerPtr)
    (c : Client) (p : Player) (r : Int) (l' : Locked) : Prop where
  returns : (LockedM.clientLogin client player).run env l = .ok (r, l')
  failed : r = -1 ↔ c.loggedIn = .loggedIn ∨ l.world.store.NameInUse p.name
  store : r = -1 → l'.world.store = l.world.store
  sent : r = -1 → l'.world.trace.sent = l.world.trace.sent
  posted : r = -1 → l'.world.trace.posted = l.world.trace.posted
  mutex : r = -1 → l'.mutex = l.mutex
  proceeds : r = -1 → l'.Proceeds env

namespace LockedM

theorem clientLogin_run_blocked (hsem : l.world.store.loginSem = 0)
    : (clientLogin client player).run env l = .error .deadlock := by
  simp only [clientLogin, loginSemWait, run_bind, run_lift, ServerM.run_bind, run_getStore,
    if_pos hsem, ServerM.run_fault]

theorem clientLogin_run_loggedIn (hsem : l.world.store.loginSem ≠ 0)
    (hc : l.world.store.clients.get? client = some c) (hin : c.loggedIn = .loggedIn)
    : (clientLogin client player).run env l
        =
      .ok (-1, { l with world.store.loginSem := l.world.store.loginSem - 1 }) := by
  simp only [clientLogin, loginSemWait, run_bind, run_lift, ServerM.run_bind, run_getStore,
    if_neg hsem, run_modifyStore, run_derefClient, hc, hin, ne_eq, reduceCtorEq, not_false_eq_true,
    ↓reduceIte, run_pure]

theorem clientLogin_run_held (hc : l.world.store.clients.get? client = some c)
    (hout : c.loggedIn = .loggedOut) (hheld : l.mutex = true)
    : (clientLogin client player).run env l = .error .deadlock := by
  by_cases hsem : l.world.store.loginSem = 0
  . exact clientLogin_run_blocked hsem
  . simp only [clientLogin, loginSemWait, run_bind, run_lift, ServerM.run_bind, run_getStore,
      if_neg hsem, run_modifyStore, run_derefClient, hc, hout, ne_eq, not_true_eq_false, ↓reduceIte,
      cregAllPlayers, run_lock, hheld]

theorem clientLogin_run_loggedOut (env : Env)
    (hlive : w.store.SlotsLive w.store.clientRegistry.slots)
    (hc : w.store.clients.get? client = some c) (hout : c.loggedIn = .loggedOut)
    (hp : w.store.players.get? player = some p) (hsem : w.store.loginSem ≠ 0)
    : (clientLogin client player).run env { world := w, mutex := false }
        =
      if env.allocOk w.trace.allocs then
        if (w.store.lookup p.name).isSome then
          .ok (-1, { world := { w with trace.allocs := w.trace.allocs + 1 }, mutex := false })
        else
          .ok (0, {
            world.store := w.store.login client player
            world.trace := { w.trace with allocs := w.trace.allocs + 1 }
            mutex := false })
      else
        .error .nullDereference := by
  have hagrees := clientLogin_agrees env client hp
  unfold Agrees at hagrees
  rw [hagrees, Jeux.clientLogin_run hlive hc hout hp hsem]
  split
  . split <;> rfl
  . rfl

end LockedM

theorem Locked.proceeds_of_free {w : World} (hlive : w.store.SlotsLive w.store.clientRegistry.slots)
    (hsem : w.store.loginSem ≠ 0) : Locked.Proceeds env { world := w, mutex := false } := by
  intro client c player p hc hp
  cases hstate : c.loggedIn with
  | loggedIn =>
    rw [LockedM.clientLogin_run_loggedIn hsem hc hstate]
    simp
  | loggedOut =>
    rw [LockedM.clientLogin_run_loggedOut env hlive hc hstate hp hsem]
    split
    . split <;> simp
    . simp

theorem LoginReports.loggedOut {r : Int} {l' : Locked}
    (hc : l.world.store.clients.get? client = some c)
    (h : LoginReports env l client player c p r l') : c.loggedIn = .loggedOut := by
  cases hstate : c.loggedIn with
  | loggedOut => rfl
  | loggedIn =>
    have hfailed := h.failed.mpr (.inl hstate)
    have hstore := h.store hfailed
    have hreturns := h.returns
    by_cases hsem : l.world.store.loginSem = 0
    . rw [LockedM.clientLogin_run_blocked hsem] at hreturns
      simp at hreturns
    . -- the semaphore was taken, and is not there
      rw [LockedM.clientLogin_run_loggedIn hsem hc hstate, Except.ok.injEq, Prod.mk.injEq] at hreturns
      rw [← hreturns.2] at hstore
      have hsems := congrArg Store.loginSem hstore
      dsimp only at hsems
      omega

/--
A login does what it says on a client that is logged out, when nobody holds the semaphore or the
mutex and there is room for the array of the players.
-/
theorem loginReports_iff (env : Env) (l : Locked) (client : ClientPtr) (player : PlayerPtr)
    (c : Client) (p : Player)
    (hlive : l.world.store.SlotsLive l.world.store.clientRegistry.slots)
    (hc : l.world.store.clients.get? client = some c)
    (hp : l.world.store.players.get? player = some p)
    : (∃ r l', LoginReports env l client player c p r l')
        ↔
      c.loggedIn = .loggedOut ∧ l.world.store.loginSem ≠ 0 ∧ l.mutex = false
        ∧ env.allocOk l.world.trace.allocs = true := by
  obtain ⟨w, mutex⟩ := l
  constructor
  . rintro ⟨r, l', h⟩
    have hout := h.loggedOut hc
    have hreturns := h.returns
    have hsem : w.store.loginSem ≠ 0 := by
      intro hsem
      rw [LockedM.clientLogin_run_blocked hsem] at hreturns
      simp at hreturns
    have hfree : mutex = false := by
      apply Bool.eq_false_iff.mpr
      intro hheld
      rw [LockedM.clientLogin_run_held hc hout hheld] at hreturns
      simp at hreturns
    subst hfree
    refine ⟨hout, hsem, rfl, ?_⟩
    apply Classical.by_contradiction
    intro halloc
    rw [LockedM.clientLogin_run_loggedOut env hlive hc hout hp hsem, if_neg halloc] at hreturns
    simp at hreturns
  . rintro ⟨hout, hsem, hfree, halloc⟩
    dsimp only at hfree hlive hc hp hsem halloc
    subst hfree
    have hrun := LockedM.clientLogin_run_loggedOut env hlive hc hout hp hsem
    rw [if_pos halloc] at hrun
    by_cases hused : w.store.NameInUse p.name
    . rw [if_pos (Store.nameInUse_iff.mp hused)] at hrun
      exact ⟨_, _, hrun, ⟨fun _ => .inr hused, fun _ => rfl⟩, fun _ => rfl, fun _ => rfl, fun _ => rfl,
        fun _ => rfl, fun _ => Locked.proceeds_of_free hlive hsem⟩
    . rw [if_neg (mt Store.nameInUse_iff.mpr hused)] at hrun
      have hnot : ¬ (c.loggedIn = .loggedIn ∨ w.store.NameInUse p.name) := by
        rw [hout]
        simpa using hused
      -- the login succeeds, so that nothing has to be as it was
      have hzero : ¬ (0 : Int) = -1 := by decide
      exact ⟨_, _, hrun, iff_of_false hzero hnot, fun h => absurd h hzero, fun h => absurd h hzero,
        fun h => absurd h hzero, fun h => absurd h hzero, fun h => absurd h hzero⟩

/--
The second of two clients tries to log in under the name of the first, and nothing is changed.
-/
theorem loginReports_of_loggedInOnce
    : ∃ w c p, (SessionCall.machine calmEnv).Reach NoRelogin initialWorld w
      ∧ w.store.nameOf 0 = some p.name
      ∧ ∃ r l', LoginReports calmEnv { world := w, mutex := false } 1 0 c p r l' := by
  obtain ⟨w, hreach, hcheck⟩ := Machine.Reach.of_any_run (SessionCall.machine calmEnv) NoRelogin
    initialWorld loggedInOnce
    (fun w => decide ((w.store.clients.get? 1).map (·.loggedIn) = some .loggedOut
      ∧ (w.store.players.get? 0).map (·.name) = some [65] ∧ w.store.nameOf 0 = some [65]
      ∧ w.store.loginSem ≠ 0))
    (by decide +kernel)
  obtain ⟨hclient, hplayer, hname, hsem⟩ := of_decide_eq_true hcheck
  obtain ⟨c, hc, hout⟩ := Option.map_eq_some_iff.mp hclient
  obtain ⟨p, hp, hpname⟩ := Option.map_eq_some_iff.mp hplayer
  exact ⟨w, c, p, hreach, hpname ▸ hname,
    (loginReports_iff calmEnv { world := w, mutex := false } 1 0 c p
      (Store.enrolled_of_reach hreach).valid.slotsLive hc hp).mpr ⟨hout, hsem, rfl, rfl⟩⟩

/--
The first client tries to log in again.
-/
theorem not_loginReports
    : ∃ w c p, (SessionCall.machine calmEnv).Reach NoRelogin initialWorld w
      ∧ w.store.clients.get? 0 = some c ∧ w.store.players.get? 0 = some p
      ∧ ¬ ∃ r l', LoginReports calmEnv { world := w, mutex := false } 0 0 c p r l' := by
  obtain ⟨w, hreach, hcheck⟩ := Machine.Reach.of_any_run (SessionCall.machine calmEnv) NoRelogin
    initialWorld loggedInOnce
    (fun w => decide ((w.store.clients.get? 0).map (·.loggedIn) = some .loggedIn
      ∧ (w.store.players.get? 0).isSome = true))
    (by decide +kernel)
  obtain ⟨hclient, hplayer⟩ := of_decide_eq_true hcheck
  obtain ⟨c, hc, hin⟩ := Option.map_eq_some_iff.mp hclient
  obtain ⟨p, hp⟩ := Option.isSome_iff_exists.mp hplayer
  refine ⟨w, c, p, hreach, hc, hp, ?_⟩
  rintro ⟨r, l', h⟩
  have hout := h.loggedOut hc
  rw [hin] at hout
  cases hout

end Jeux
