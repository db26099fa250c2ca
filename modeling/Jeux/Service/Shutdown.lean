import Jeux.Lemmas.Counts
import Jeux.Service.Safety

/-!
`terminate`: the connections are shut, their threads come to their ends, and the registries are
finalized. Nothing is left in memory then, unless somebody has revoked or declined an open
invitation that was not theirs to revoke or decline.
-/

namespace Jeux

open ServerM

variable {env : Env} {w w' : World} {client x : ClientPtr} {c : Client} {σ σ' τ : Server}
  {e : Event}
  {gate gate' : Int} {pkt : Packet} {player : PlayerPtr} {p : Player}

namespace Store

variable {s s' : Store} {name : CString}

/-! ## Nobody unknown, nobody gone -/

def AllKnown (s : Store) : Prop :=
  ∀ player p, s.players.get? player = some p → player ∈ s.playerRegistry.players

def AllHere (s : Store) : Prop := ∀ x c, s.clients.get? x = some c → 0 < s.registered x

structure SamePeople (s s' : Store) : Prop where
  clientRegistry : s'.clientRegistry = s.clientRegistry
  clients : ∀ x c', s'.clients.get? x = some c' → ∃ c, s.clients.get? x = some c
  players : s.AllKnown → s'.AllKnown

theorem SamePeople.refl (s : Store) : s.SamePeople s := ⟨rfl, fun _ c h => ⟨c, h⟩, id⟩

theorem SamePeople.trans {s'' : Store} (h : s.SamePeople s') (h' : s'.SamePeople s'')
    : s.SamePeople s'' where
  clientRegistry := h'.clientRegistry.trans h.clientRegistry
  clients := by
    intro x c'' hc''
    obtain ⟨c', hc'⟩ := h'.clients x c'' hc''
    exact h.clients x c' hc'
  players := h'.players ∘ h.players

theorem KeepsSessions.samePeople (h : s.KeepsSessions s') : s.SamePeople s' where
  clientRegistry := h.clientRegistry
  clients := by
    intro x c' hc'
    obtain ⟨c, hc, -⟩ := h.get?_of_get? hc'
    exact ⟨c, hc⟩
  players := by
    intro hknown player p' hp'
    have hname := h.name player
    rw [hp', Option.map_some] at hname
    obtain ⟨p, hp, -⟩ := Option.map_eq_some_iff.mp hname.symm
    rw [h.playerRegistry]
    exact hknown player p hp

theorem samePeople_enlist (s : Store) (name : CString) : s.SamePeople (s.enlist name) where
  clientRegistry := enlist_clientRegistry s name
  clients := by
    intro x c hc
    rw [enlist_clients] at hc
    exact ⟨c, hc⟩
  players := by
    intro hknown
    unfold enlist
    split
    . exact hknown
    . intro player p hp
      unfold addPlayer at hp ⊢
      dsimp only at hp ⊢
      rw [Heap.get?_push] at hp
      split at hp
      . next heq => simp [heq]
      . exact List.mem_append_left _ (hknown player p hp)

theorem samePeople_login (s : Store) (client : ClientPtr) (player : PlayerPtr)
    : s.SamePeople (s.login client player) where
  clientRegistry := rfl
  clients := by
    intro x c' hc'
    rw [login_clients] at hc'
    obtain ⟨c, hc, -⟩ := Heap.get?_modify_eq_some.mp hc'
    exact ⟨c, hc⟩
  players := by
    intro hknown y p' hp'
    rw [login_players] at hp'
    obtain ⟨p, hp, -⟩ := Heap.get?_modify_eq_some.mp hp'
    exact hknown y p hp

theorem samePeople_leave (s : Store) (client : ClientPtr) (player : PlayerPtr)
    : s.SamePeople (s.leave client player) where
  clientRegistry := rfl
  clients := by
    intro x c' hc'
    rw [leave_clients] at hc'
    obtain ⟨c, hc, -⟩ := Heap.get?_modify_eq_some.mp hc'
    exact ⟨c, hc⟩
  players := by
    intro hknown y p' hp'
    rw [leave_players] at hp'
    obtain ⟨p, hp, -⟩ := Heap.get?_modify_eq_some.mp hp'
    exact hknown y p hp

structure Tidy (s : Store) : Prop where
  filled : none ∉ s.clientRegistry.slots
  here : s.AllHere
  known : s.AllKnown

theorem Tidy.samePeople (h : s.Tidy) (hsame : s.SamePeople s') : s'.Tidy where
  filled := by
    rw [hsame.clientRegistry]
    exact h.filled
  here := by
    intro x c' hc'
    obtain ⟨c, hc⟩ := hsame.clients x c' hc'
    unfold registered
    rw [hsame.clientRegistry]
    exact h.here x c hc
  known := hsame.players h.known

theorem Tidy.connect (h : s.Tidy) (hsteady : s.Steady) (hqueue : s.clientRegistry.loginQueue ≠ 0)
    (fd : Int) : (s.connect fd).Tidy where
  filled := by
    unfold Store.connect
    dsimp only
    rw [ClientRegistry.slots_enrol _ (hsteady.valid.registry.length_lt hqueue)]
    simpa using h.filled
  here := by
    intro x c hc
    rw [registered_connect hsteady hqueue]
    unfold Store.connect at hc
    dsimp only at hc
    rw [Heap.get?_push] at hc
    split at hc
    . next heq => simp [heq]
    . have := h.here x c hc
      omega
  known := h.known

theorem Tidy.unregister {i : Nat} (h : s.Tidy) (hv : s.Valid fun _ => 0)
    (hv' : (s.unregister client i).Valid fun _ => 0)
    (hi : s.clientRegistry.slotOf? client = some i)
    (hidle : (s.unregister client i).involved client = 0) : (s.unregister client i).Tidy := by
  obtain ⟨hplayers, hregistry, -⟩ := unregister_players s client i
  have hregistered := fun x => registered_unregister hv hi x
  refine ⟨?_, ?_, ?_⟩
  . have hlen : s.clientRegistry.length ≤ s.clientRegistry.clients.length := by
      have := hv.registry.room
      rw [hv.registry.clients_length]
      omega
    have heq : (s.unregister client i).clientRegistry = (s.clientRegistry.shift i).release := by
      unfold Store.unregister Store.unrefClient
      split
      . split <;> rfl
      . rfl
    rw [heq, ClientRegistry.slots_release_shift (ClientRegistry.slotOf?_lt hi) hlen]
    exact fun hmem => h.filled (List.mem_of_mem_eraseIdx hmem)
  . intro x c' hc'
    rw [hregistered]
    by_cases heq : x = client
    . subst heq
      -- whoever is left would be referred to by nobody, and the last reference frees a client
      have hcount := (hv'.client x c' hc').refCount
      rw [hregistered, hidle, if_pos rfl] at hcount
      have hle := registered_le_one hv x
      rw [unregister_clients] at hc'
      unfold Store.unrefClient at hc'
      split at hc'
      . next c hc =>
        split at hc'
        . simp at hc'
        . next href =>
          simp only [modifyClient_clients, Heap.get?_modify_self, hc, Option.map_some,
            Option.some.injEq] at hc'
          subst hc'
          simp only [Client.dropRef_refCount] at hcount
          omega
      . next hgone => simp [hgone] at hc'
    . rw [unregister_clients_ne heq] at hc'
      have := h.here x c' hc'
      rwa [if_neg heq, Nat.sub_zero]
  . unfold AllKnown
    rw [hplayers, hregistry]
    exact h.known

theorem Steady.involved_eq_zero (h : s.Steady) (hactive : s.AllActive) (hgone : s.registered x = 0)
    : s.involved x = 0 := by
  refine Heap.countP_eq_zero fun inv i hi => ?_
  rw [decide_eq_false_iff_not]
  intro hor
  obtain ⟨c, hc, -, hin, -⟩ := h.settled.participant h.valid hi (hactive inv i hi) hor
  have := (h.valid.client x c hc).held hin
  omega

end Store

/-! ## What the steps keep -/

theorem Served.samePeople (h : Served env w client gate pkt gate' w') (henv : env.Reliable)
    : w.store.SamePeople w'.store := by
  cases h with
  | ignored => exact .refl _
  | shut => exact .refl _
  | users => exact .refl _
  | unfit => exact .refl _
  | invited _ _ _ _ heffect => exact heffect.keepsSessions.samePeople
  | answered _ _ _ _ _ _ heffect =>
    apply heffect.keepsSessions.samePeople.trans
    unfold World.answered
    split
    . exact .refl _
    . exact .refl _
  | loginRefused => exact .refl _
  | loginNoRoom _ _ _ _ havail => exact absurd (.inr ⟨henv.allocs _, henv.allocs _⟩) havail
  | loginTaken => exact Store.samePeople_enlist _ _
  | loggedIn => exact (Store.samePeople_enlist _ _).trans (Store.samePeople_login _ _ _)

theorem Departs.tidy (h : Departs env client w w') (htidy : w.store.Tidy)
    (hregistered : 0 < w.store.registered client) (hsteady : w.store.Steady)
    (hactive : w'.store.AllActive) : w'.store.Tidy := by
  have hsteady' := h.steady hsteady hregistered
  have hgone : w'.store.registered client = 0 := by
    have := h.registered hsteady hregistered client
    have := Store.registered_le_one hsteady.valid client
    rw [if_pos rfl] at *
    omega
  have hidle := hsteady'.involved_eq_zero hactive hgone
  have hserves := hsteady.serves hregistered
  cases h with
  | loggedOut hc hout hi => exact htidy.unregister hsteady.valid hsteady'.valid hi hidle
  | @loggedIn c w₁ player i hc hin hplayer hlogout hi =>
    obtain ⟨c₁, hc₁, hplayer₁, hin₁⟩ := hlogout.keepsSessions.get? hc
    have hvalid := (hlogout.serves hserves).valid.leave hc₁ (hin₁.trans hin)
      (hplayer₁.trans hplayer)
    have htidy₁ := (htidy.samePeople hlogout.keepsSessions.samePeople).samePeople
      (Store.samePeople_leave _ client player)
    exact htidy₁.unregister hvalid hsteady'.valid hi hidle

theorem cregRegister_run_reliable (henv : env.Reliable) (hok : w.store.clientRegistry.Ok) (fd : Int)
    : (cregRegister fd).run env w = .ok (none, w)
        ∨ ∃ w', (cregRegister fd).run env w = .ok (some w.store.clients.next, w')
          ∧ w.store.clientRegistry.no = false ∧ w.store.clientRegistry.loginQueue ≠ 0
          ∧ w'.store = w.store.connect fd := by
  by_cases hfull : w.store.clientRegistry.length ≥ maxClients
  . left
    simp only [cregRegister, run_bind, run_getStore, if_pos hfull, run_pure]
  . by_cases hno : w.store.clientRegistry.no
    . left
      simp only [cregRegister, run_bind, run_getStore, if_neg hfull, if_pos hno, run_pure]
    . have hqueue : w.store.clientRegistry.loginQueue ≠ 0 := by
        have := hok.room
        omega
      right
      refine ⟨⟨w.store.connect fd, { w.trace with allocs := w.trace.allocs + 1 + 1 }⟩, ?_, by simpa
        using hno, hqueue, rfl⟩
      simp only [cregRegister, run_bind, run_getStore, if_neg hfull, if_neg hno, if_neg hqueue,
        modifyRegistry, run_modifyStore, clientCreate, run_allocate, henv.allocs,
        if_true]
      rfl

namespace Server

structure Clean (σ : Server) : Prop where
  ok : σ.Ok
  on : σ.world.store.GamesOn
  active : σ.world.store.AllActive
  tidy : σ.world.store.Tidy

theorem initial_clean : initialServer.Clean where
  ok := initial_ok
  on := by simp [Store.GamesOn, initialServer, initialWorld, initialStore]
  active := by simp [Store.AllActive, initialServer, initialWorld, initialStore]
  tidy := {
    filled := by simp [initialServer, initialWorld, initialStore, ClientRegistry.slots]
    here := by simp [Store.AllHere, initialServer, initialWorld, initialStore]
    known := by simp [Store.AllKnown, initialServer, initialWorld, initialStore] }

theorem Clean.tidy_after (h : σ.Clean) (henv : env.Reliable) (hexec : exec env σ e = .ok σ')
    (hactive : σ'.world.store.AllActive) : σ'.world.store.Tidy := by
  cases e with
  | connect fd =>
    rcases cregRegister_run_reliable henv h.ok.steady.valid.registry fd
      with hrun | ⟨w, hrun, -, hqueue, hstore⟩
    . simp only [exec, hrun, Except.ok.injEq] at hexec
      exact hexec ▸ h.tidy
    . simp only [exec, hrun, Except.ok.injEq] at hexec
      rw [← hexec, hstore]
      exact h.tidy.connect h.ok.steady hqueue fd
  | packet client pkt =>
    cases h.ok.steps hexec with
    | idle => exact h.tidy
    | serves _ hserved => exact h.tidy.samePeople (hserved.samePeople henv)
    | departs _ hconnected hdeparts =>
      exact hdeparts.tidy h.tidy ((h.ok.connected _).mp hconnected) h.ok.steady hactive
  | hangUp client =>
    cases h.ok.steps hexec with
    | idle => exact h.tidy
    | departs _ hconnected hdeparts =>
      exact hdeparts.tidy h.tidy ((h.ok.connected _).mp hconnected) h.ok.steady hactive
  | call client op =>
    cases h.ok.steps hexec with
    | idle => exact h.tidy
    | departs he _ _ => simp at he
    | calls _ _ heffect => exact h.tidy.samePeople heffect.keepsSessions.samePeople

theorem Clean.after (h : σ.Clean) (henv : env.Reliable) (hproper : σ.Proper e)
    (hexec : exec env σ e = .ok σ') : σ'.Clean := by
  have hsteps := h.ok.steps hexec
  have hactive : σ'.world.store.AllActive := by
    refine hsteps.preserves h.ok ?_ ?_ h.active
    . intro s s' hinvitations _ hactive inv i hi
      rw [hinvitations] at hi
      exact hactive inv i hi
    . intro client op r w w' hasks hserves _ heffect hactive
      exact heffect.allActive henv (hasks.proper hproper hserves) hserves hactive
  refine ⟨hsteps.ok h.ok, hsteps.preserves h.ok ?_ ?_ h.on, hactive,
    h.tidy_after henv hexec hactive⟩
  . intro s s' hinvitations hgames hon inv i hi g hg
    rw [hinvitations] at hi
    unfold Store.gameOf at hg
    rw [hgames] at hg
    exact hon inv i hi g hg
  . intro client op r w w' _ hserves _ heffect hon
    exact heffect.gamesOn henv.sends hserves hon

theorem Clean.reach {σ₀ : Server} (h : σ₀.Clean) (henv : env.Reliable)
    (hreach : (machine env).Reach Proper σ₀ σ) : σ.Clean :=
  hreach.invariant _ h fun _ _ _ hclean hproper hstep =>
    hclean.after henv hproper (exec_of_step hstep)

end Server

/-! ## Shutting down -/

namespace Store

variable {s : Store}

def shut (s : Store) : Store := { s with clientRegistry := { s.clientRegistry with no := true } }

theorem Steady.shut (h : s.Steady) : s.shut.Steady where
  valid := {
    registry := ⟨h.valid.registry.clients_length, h.valid.registry.room, h.valid.registry.nodup⟩
    held_live := h.valid.held_live
    client := fun x c hc => ClientOk.congr (h.valid.client x c hc) rfl rfl (fun _ hp => hp)
      fun inv i hi _ => ⟨i, hi, rfl, rfl⟩
    invitation := by
      intro inv i hi
      have hok := h.valid.invitation inv i hi
      exact ⟨hok.distinct, hok.roles, hok.source, hok.target, hok.refCount, hok.game, hok.own⟩
    owned := h.valid.owned
    players_nodup := h.valid.players_nodup
    player := h.valid.player }
  settled := h.settled.congr rfl rfl
  session := h.session

structure Empty (s : Store) : Prop where
  clients : ∀ x, s.clients.get? x = none
  players : ∀ x, s.players.get? x = none
  invitations : ∀ x, s.invitations.get? x = none
  games : ∀ x, s.games.get? x = none

end Store

theorem shutdownLoop_run (env : Env) (w : World) (slots : List (Option ClientPtr))
    (hlive : ∀ x, some x ∈ slots → ∃ c, w.store.clients.get? x = some c)
    : ∃ fds, (shutdownLoop slots).run env w = .ok (fds, w)
        ∧ ∀ x c, some x ∈ slots → w.store.clients.get? x = some c → c.fd ∈ fds := by
  induction slots with
  | nil => exact ⟨[], rfl, by simp⟩
  | cons slot slots ih =>
    obtain ⟨fds, hrun, hfds⟩ := ih fun x hx => hlive x (List.mem_cons_of_mem _ hx)
    cases slot with
    | none =>
      refine ⟨fds, hrun, fun x c hx hc => hfds x c ?_ hc⟩
      simpa using hx
    | some y =>
      obtain ⟨cy, hcy⟩ := hlive y List.mem_cons_self
      refine ⟨cy.fd :: fds, ?_, ?_⟩
      . simp only [shutdownLoop, clientGetFd, run_bind, run_derefClient, hcy, run_pure, hrun]
      . intro x c hx hc
        rcases List.mem_cons.mp hx with heq | hx
        . obtain rfl := Option.some.inj heq
          obtain rfl := Option.some.inj (hc.symm.trans hcy)
          exact List.mem_cons_self
        . exact List.mem_cons_of_mem _ (hfds x c hx hc)

theorem cregShutdownAll_run (env : Env) (hv : w.store.Valid fun _ => 0)
    : ∃ fds, cregShutdownAll.run env w = .ok (fds, { w with store := w.store.shut })
        ∧ ∀ x c, 0 < w.store.registered x → w.store.clients.get? x = some c → c.fd ∈ fds := by
  have hmem : ∀ x, some x ∈ w.store.clientRegistry.slots ↔ 0 < w.store.registered x := by
    intro x
    rw [Store.registered, List.count_pos_iff, ClientRegistry.members, List.reduceOption_mem_iff]
  obtain ⟨fds, hrun, hfds⟩ := shutdownLoop_run env { w with store := w.store.shut }
    w.store.clientRegistry.slots fun x hx => hv.held_live x (by simpa using (hmem x).mp hx)
  refine ⟨fds, ?_, fun x c hx => hfds x c ((hmem x).mpr hx)⟩
  simp only [cregShutdownAll, modifyRegistry, run_bind, run_modifyStore, run_getStore]
  exact hrun

theorem playerUnref_run_last (hp : w.store.players.get? player = some p) (href : p.refCount = 1)
    : (playerUnref player).run env w
        =
      .ok ((), { w with store.players :=
        (w.store.players.modify player Player.dropRef).free player }) := by
  have : p.refCount - 1 = 0 := by omega
  simp [playerUnref, hp, this]

theorem pregFiniLoop_run (env : Env) (w : World) {players : List PlayerPtr}
    (hnodup : players.Nodup)
    (hplayers : ∀ player ∈ players, ∃ p, w.store.players.get? player = some p ∧ p.refCount = 1)
    : ∃ w', (pregFiniLoop players).run env w = .ok ((), w')
        ∧ w'.store.clients = w.store.clients ∧ w'.store.invitations = w.store.invitations
        ∧ w'.store.games = w.store.games
        ∧ ∀ x, w'.store.players.get? x = if x ∈ players then none else w.store.players.get? x := by
  induction players generalizing w with
  | nil => exact ⟨w, rfl, rfl, rfl, rfl, by simp⟩
  | cons player players ih =>
    obtain ⟨hnot, hnodup'⟩ := List.nodup_cons.mp hnodup
    obtain ⟨p, hp, href⟩ := hplayers player List.mem_cons_self
    obtain ⟨w', hrun, hclients, hinvitations, hgames, hrest⟩ := ih (w := {
        w with
        store.players := (w.store.players.modify player Player.dropRef).free player
        store.playerRegistry := ⟨players, w.store.playerRegistry.length - 1⟩ }) hnodup' (by
      intro x hx
      have hne : x ≠ player := fun heq => hnot (heq ▸ hx)
      obtain ⟨px, hpx, hrefx⟩ := hplayers x (List.mem_cons_of_mem _ hx)
      exact ⟨px, by simp [hne, Heap.get?_modify_ne hne, hpx], hrefx⟩)
    refine ⟨w', ?_, hclients, hinvitations, hgames, ?_⟩
    . simp only [pregFiniLoop, run_bind, playerUnref_run_last hp href, run_modifyStore]
      exact hrun
    . intro x
      rw [hrest]
      by_cases heq : x = player
      . subst heq
        simp
      . simp [heq, Heap.get?_modify_ne heq]

theorem pregFini_run (env : Env) (hv : w.store.Valid fun _ => 0) (hknown : w.store.AllKnown)
    (hgone : ∀ x, w.store.clients.get? x = none)
    : ∃ w', pregFini.run env w = .ok ((), w') ∧ w'.store.Empty := by
  have hsessions : ∀ player, w.store.sessions player = 0 := by
    intro player
    exact Heap.countP_eq_zero fun x c hc => by simp [hgone] at hc
  obtain ⟨w', hrun, hclients, hinvitations, hgames, hplayers⟩ :=
    pregFiniLoop_run env w hv.players_nodup fun player hmem => by
      obtain ⟨p, hp, href⟩ := hv.player player hmem
      exact ⟨p, hp, by simpa [hsessions] using href⟩
  have hnone : ∀ inv, w.store.invitations.get? inv = none := by
    intro inv
    cases hi : w.store.invitations.get? inv with
    | none => rfl
    | some i =>
      obtain ⟨c, hc, -⟩ := (hv.invitation inv i hi).source
      simp [hgone] at hc
  refine ⟨w', ?_, ?_, ?_, ?_, ?_⟩
  . simp only [pregFini, run_bind, run_getStore, hrun]
  . rw [hclients]
    exact hgone
  . intro player
    rw [hplayers]
    split
    . rfl
    . next hnot =>
      cases hp : w.store.players.get? player with
      | none => rfl
      | some p => exact absurd (hknown player p hp) hnot
  . rw [hinvitations]
    exact hnone
  . intro game
    rw [hgames]
    cases hg : w.store.games.get? game with
    | none => rfl
    | some g =>
      obtain ⟨inv, i, hi, -⟩ := hv.owned game g hg
      simp [hnone] at hi

theorem Departs.no (h : Departs env client w w')
    : w'.store.clientRegistry.no = w.store.clientRegistry.no := by
  have hunregister : ∀ (s : Store) (i : Nat),
      (s.unregister client i).clientRegistry.no = s.clientRegistry.no := by
    intro s i
    unfold Store.unregister Store.unrefClient
    split
    . split <;> rfl
    . rfl
  cases h with
  | loggedOut => exact hunregister _ _
  | loggedIn _ _ _ hlogout =>
    rw [hunregister]
    exact congrArg ClientRegistry.no hlogout.keepsSessions.clientRegistry

namespace Server

theorem Clean.shut_after (h : σ.Clean) (henv : env.Reliable)
    (hno : σ.world.store.clientRegistry.no = true) (hexec : exec env σ e = .ok σ')
    : σ'.world.store.clientRegistry.no = true
        ∧ ∀ x, σ'.connections x ≠ none → σ.connections x ≠ none := by
  have hupdate : ∀ {client : ClientPtr} {gate : Option Int}, σ.connections client ≠ none →
      ∀ x, Function.update σ.connections client gate x ≠ none → σ.connections x ≠ none := by
    intro client gate hconnected x hx
    rw [Function.update_apply] at hx
    split at hx
    . next heq => exact heq ▸ hconnected
    . exact hx
  cases e with
  | connect fd =>
    rcases cregRegister_run_reliable henv h.ok.steady.valid.registry fd
      with hrun | ⟨w, -, hopen, -⟩
    . simp only [exec, hrun, Except.ok.injEq] at hexec
      exact hexec ▸ ⟨hno, fun _ hx => hx⟩
    . simp [hno] at hopen
  | packet client pkt =>
    cases h.ok.steps hexec with
    | idle => exact ⟨hno, fun _ hx => hx⟩
    | serves hgate hserved =>
      refine ⟨?_, hupdate (by simp [hgate])⟩
      rw [(hserved.samePeople henv).clientRegistry]
      exact hno
    | departs _ hconnected hdeparts => exact ⟨hdeparts.no.trans hno, hupdate hconnected⟩
  | hangUp client =>
    cases h.ok.steps hexec with
    | idle => exact ⟨hno, fun _ hx => hx⟩
    | departs _ hconnected hdeparts => exact ⟨hdeparts.no.trans hno, hupdate hconnected⟩
  | call client op =>
    cases h.ok.steps hexec with
    | idle => exact ⟨hno, fun _ hx => hx⟩
    | departs he _ _ => simp at he
    | calls _ _ heffect =>
      refine ⟨?_, fun _ hx => hx⟩
      rw [heffect.keepsSessions.clientRegistry]
      exact hno

theorem proper_hangUp (σ : Server) (client : ClientPtr) : σ.Proper (.hangUp client) := by
  intro p hp
  simp [opOf?] at hp

theorem hangUp_run (h : σ.Clean) (henv : env.Reliable) (client : ClientPtr)
    : ∃ σ', (machine env).step σ (.hangUp client) = some σ' ∧ σ'.Clean
        ∧ ∀ x, σ'.connections x = if x = client then none else σ.connections x := by
  cases hgate : σ.connections client with
  | none =>
    refine ⟨σ, by simp [machine, exec, hgate, Except.toOption], h, fun x => ?_⟩
    split
    . next heq => rw [heq, hgate]
    . rfl
  | some gate =>
    obtain ⟨r, w₁, w', hlogout, hclose, -⟩ :=
      departs_run env σ.connections (h.ok.serves (by simp [hgate] : σ.connections client ≠ none))
    have hexec : exec env σ (.hangUp client)
        = .ok { world := w', connections := Function.update σ.connections client none } := by
      simp only [exec, hgate, hlogout, hclose]
    refine ⟨_, congrArg Except.toOption hexec, h.after henv (proper_hangUp σ client) hexec, ?_⟩
    intro x
    exact Function.update_apply ..

theorem hangUps_run (h : σ.Clean) (henv : env.Reliable) (clients : List ClientPtr)
    : ∃ σ', (machine env).run (fun _ _ => True) σ (clients.map .hangUp) = some σ' ∧ σ'.Clean
        ∧ ∀ x, σ'.connections x = if x ∈ clients then none else σ.connections x := by
  induction clients generalizing σ with
  | nil => exact ⟨σ, rfl, h, by simp⟩
  | cons client clients ih =>
    obtain ⟨σ₁, hstep, hclean₁, hconnections₁⟩ := hangUp_run h henv client
    obtain ⟨σ', hrun, hclean, hconnections⟩ := ih hclean₁
    refine ⟨σ', ?_, hclean, ?_⟩
    . rw [List.map_cons, Machine.run, if_pos trivial, hstep]
      exact hrun
    . intro x
      rw [hconnections, hconnections₁]
      by_cases hmem : x ∈ clients
      . simp [hmem]
      . by_cases heq : x = client <;> simp [hmem, heq]

theorem Clean.empty (h : σ.Clean) (hnone : ∀ x, σ.connections x = none)
    : σ.world.store.clientRegistry.length = 0 ∧ ∀ x, σ.world.store.clients.get? x = none := by
  have hregistered : ∀ x, σ.world.store.registered x = 0 := by
    intro x
    have := (h.ok.connected x).not.mp (not_not_intro (hnone x))
    omega
  constructor
  . have hregistry := h.ok.steady.valid.registry
    have hslots : σ.world.store.clientRegistry.slots = [] := by
      refine List.eq_nil_iff_forall_not_mem.mpr fun slot hslot => ?_
      cases slot with
      | none => exact h.tidy.filled hslot
      | some x =>
        have hmem : x ∈ σ.world.store.clientRegistry.members :=
          List.reduceOption_mem_iff.mpr hslot
        have := List.count_pos_iff.mpr hmem
        have := hregistered x
        unfold Store.registered at this
        omega
    have hlength := congrArg List.length hslots
    have := hregistry.room
    rw [ClientRegistry.slots, List.length_take, hregistry.clients_length, List.length_nil]
      at hlength
    have : maxClients = 64 := rfl
    omega
  . intro x
    cases hc : σ.world.store.clients.get? x with
    | none => rfl
    | some c =>
      have := h.tidy.here x c hc
      have := hregistered x
      omega

/--
`terminate` at this point: every connection is shut down, no new one is accepted whatever still
happens, and as soon as the connections are gone, in whatever order, the wait is over and freeing
the player registry frees all that is left.
-/
def TerminatesCleanly (env : Env) (σ : Server) : Prop :=
  ∃ fds w, cregShutdownAll.run env σ.world = .ok (fds, w)
    ∧ (∀ x c, σ.connections x ≠ none → σ.world.store.clients.get? x = some c → c.fd ∈ fds)
    ∧ ∀ τ, (machine env).Reach Proper { σ with world := w } τ →
      (∀ x, τ.connections x ≠ none → σ.connections x ≠ none)
      ∧ ∀ clients : List ClientPtr, (∀ x, τ.connections x ≠ none → x ∈ clients) →
        ∃ τ' w', (machine env).run (fun _ _ => True) τ (clients.map .hangUp) = some τ'
          ∧ τ'.world.store.clientRegistry.length = 0
          ∧ pregFini.run env τ'.world = .ok ((), w') ∧ w'.store.Empty

/--
As long as nobody has asked for anything improper the server can be shut down at any time without
leaving anything behind.
-/
theorem terminate_frees (henv : env.Reliable) (h : (machine env).Reach Proper initialServer σ)
    : TerminatesCleanly env σ := by
  have hclean := initial_clean.reach henv h
  obtain ⟨fds, hrun, hfds⟩ := cregShutdownAll_run env hclean.ok.steady.valid
  refine ⟨fds, _, hrun, fun x c hx => hfds x c ((hclean.ok.connected x).mp hx), ?_⟩
  have hshut : Clean { σ with world := { σ.world with store := σ.world.store.shut } } :=
    ⟨⟨hclean.ok.steady.shut, hclean.ok.connected, hclean.ok.sem, hclean.ok.gate⟩, hclean.on,
      hclean.active, ⟨hclean.tidy.filled, hclean.tidy.here, hclean.tidy.known⟩⟩
  intro τ hreach
  obtain ⟨hcleanτ, -, hold⟩ := hreach.invariant
    (fun τ => τ.Clean ∧ τ.world.store.clientRegistry.no = true
      ∧ ∀ x, τ.connections x ≠ none → σ.connections x ≠ none) ⟨hshut, rfl, fun _ hx => hx⟩ (by
    rintro τ e τ' ⟨hcleanτ, hno, hold⟩ hproper hstep
    have hexec := exec_of_step hstep
    obtain ⟨hno', hold'⟩ := hcleanτ.shut_after henv hno hexec
    exact ⟨hcleanτ.after henv hproper hexec, hno', fun x hx => hold x (hold' x hx)⟩)
  refine ⟨hold, fun clients hall => ?_⟩
  obtain ⟨τ', hhangUps, hclean', hconnections⟩ := hangUps_run hcleanτ henv clients
  obtain ⟨hlength, hgone⟩ := hclean'.empty fun x => by
    rw [hconnections]
    split
    . rfl
    . next hnot => exact Classical.byContradiction fun hne => hnot (hall x hne)
  obtain ⟨w', hfini, hempty⟩ :=
    pregFini_run env hclean'.ok.steady.valid hclean'.tidy.known hgone
  exact ⟨τ', w', hhangUps, hlength, hfini, hempty⟩

/--
`A` and `B` are in the middle of a game, and `B` has invited `A` to another.
-/
theorem terminate_frees_of_two_invitations
    : ∃ σ, (machine calmEnv).Reach Proper initialServer σ
        ∧ (σ.world.store.clients.get? 0).map (·.invitations) = some [1, 0]
        ∧ TerminatesCleanly calmEnv σ := by
  obtain ⟨σ, hreach, hlist⟩ := Machine.Reach.of_any_run (machine calmEnv) Proper initialServer
    inPlayEvents (fun σ => (σ.world.store.clients.get? 0).map (·.invitations) = some [1, 0])
    (by decide +kernel)
  exact ⟨σ, hreach, of_decide_eq_true hlist, terminate_frees calmEnv_reliable hreach⟩

end Server

end Jeux
