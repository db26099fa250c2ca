import Jeux.Lemmas.Logout

/-!
How clients come and go: `creg_register`, `creg_unregister`, `creg_lookup`, `creg_all_players` and
`client_login`.
-/

namespace Jeux

open ServerM

variable {env : Env} {w w' : World} {extra : ClientPtr → Nat} {client : ClientPtr} {c : Client}

/-! ## Connecting and disconnecting -/

/--
`Connects fd w o w'`: `creg_register` can return `o` and take `w` to `w'`.
-/
inductive Connects (fd : Int) (w : World) : Option ClientPtr → World → Prop
  | refused : Connects fd w none w
  | failed (n : Nat) (hqueue : w.store.clientRegistry.loginQueue ≠ 0)
      : Connects fd w none
          { store := w.store.connectFailed, trace := { w.trace with allocs := n } }
  | connected (n : Nat) (hqueue : w.store.clientRegistry.loginQueue ≠ 0)
      : Connects fd w (some w.store.clients.next)
          { store := w.store.connect fd, trace := { w.trace with allocs := n } }

theorem cregRegister_run (env : Env) (hok : w.store.clientRegistry.Ok) (fd : Int)
    : ∃ o w', (cregRegister fd).run env w = .ok (o, w') ∧ Connects fd w o w' := by
  by_cases hfull : w.store.clientRegistry.length ≥ maxClients
  . refine ⟨none, w, ?_, .refused⟩
    simp only [cregRegister, run_bind, run_getStore, if_pos hfull, run_pure]
  . by_cases hno : w.store.clientRegistry.no
    . refine ⟨none, w, ?_, .refused⟩
      simp only [cregRegister, run_bind, run_getStore, if_neg hfull, if_pos hno, run_pure]
    . have hqueue : w.store.clientRegistry.loginQueue ≠ 0 := by
        have := hok.room
        omega
      simp only [cregRegister, run_bind, run_getStore, run_ite, if_neg hfull, if_neg hno,
        if_neg hqueue, modifyRegistry, run_modifyStore, clientCreate, run_allocate]
      cases halloc : env.allocOk w.trace.allocs with
      | false => exact ⟨_, _, rfl, .failed (w.trace.allocs + 1) hqueue⟩
      | true =>
        cases halloc' : env.allocOk (w.trace.allocs + 1) with
        | false => exact ⟨_, _, rfl, .failed (w.trace.allocs + 1 + 1) hqueue⟩
        | true => exact ⟨_, _, rfl, .connected (w.trace.allocs + 1 + 1) hqueue⟩

theorem clientUnref_run_loggedOut (hc : w.store.clients.get? client = some c)
    (hout : c.refCount = 1 → c.loggedIn = .loggedOut)
    : (clientUnref client).run env w
        =
      .ok ((), { w with store := w.store.unrefClient client }) := by
  unfold Store.unrefClient
  simp only [hc]
  by_cases href : c.refCount = 1
  . rw [clientUnref_run_last hc href (hout href), if_pos href]
  . rw [clientUnref_run hc href, if_neg href]

theorem cregUnregister_run {i : Nat} (hi : w.store.clientRegistry.slotOf? client = some i)
    (hc : w.store.clients.get? client = some c) (hout : c.loggedIn = .loggedOut)
    : (cregUnregister client).run env w
        =
      .ok (0, { w with store := w.store.unregister client i }) := by
  have hc' : (World.mk { w.store with clientRegistry := w.store.clientRegistry.shift i }
      w.trace).store.clients.get? client = some c := hc
  simp only [cregUnregister, run_bind, run_getStore, hi, modifyRegistry, run_modifyStore,
    clientLogout_run_loggedOut hc' hout, clientUnref_run_loggedOut hc' (fun _ => hout), run_pure]
  unfold Store.unregister Store.unrefClient
  simp only [hc]
  split <;> rfl

theorem slotOf?_of_registered {s : Store} (h : 0 < s.registered client)
    : ∃ i, s.clientRegistry.slotOf? client = some i := by
  rw [← Option.isSome_iff_exists, ← Option.ne_none_iff_isSome, ne_eq,
    ClientRegistry.slotOf?_eq_none, not_not]
  exact List.count_pos_iff.mp h

/-! ## Looking clients up -/

def Store.playerOf (s : Store) (client : ClientPtr) : Option PlayerPtr :=
  (s.clients.get? client).bind (·.player)

def Store.nameOf (s : Store) (client : ClientPtr) : Option CString :=
  (s.playerOf client).bind fun player => (s.players.get? player).map (·.name)

def Store.lookup (s : Store) (user : CString) : Option ClientPtr :=
  s.clientRegistry.members.find? fun client => s.nameOf client = some user

def Store.SlotsLive (s : Store) (slots : List (Option ClientPtr)) : Prop :=
  ∀ client, some client ∈ slots → ∃ c, s.clients.get? client = some c
    ∧ ∀ player, c.player = some player → ∃ p, s.players.get? player = some p ∧ 0 < p.refCount

theorem Store.Valid.slotsLive {s : Store} (hv : s.Valid extra)
    : s.SlotsLive s.clientRegistry.slots := by
  intro client hmem
  have hregistered : 0 < s.registered client := by
    unfold registered ClientRegistry.members
    exact List.count_pos_iff.mpr (List.reduceOption_mem_iff.mpr hmem)
  obtain ⟨c, hc⟩ := hv.held_live client (by omega)
  refine ⟨c, hc, ?_⟩
  intro player hplayer
  obtain ⟨p, hp, href⟩ := hv.player player ((hv.client client c hc).known player hplayer)
  exact ⟨p, hp, by omega⟩

theorem lookupLoop_run (user : CString) {slots : List (Option ClientPtr)}
    (hlive : w.store.SlotsLive slots)
    : (lookupLoop user slots).run env w
        =
      .ok (match slots.reduceOption.find? fun client => w.store.nameOf client = some user with
        | some client => (some client, { w with store := w.store.modifyClient client Client.addRef })
        | none => (none, w)) := by
  induction slots with
  | nil => rfl
  | cons slot rest ih =>
    have hrest : w.store.SlotsLive rest := fun client hmem => hlive client (List.mem_cons_of_mem _ hmem)
    cases slot with
    | none =>
      rw [List.reduceOption_cons_of_none]
      exact ih hrest
    | some client =>
      obtain ⟨c, hc, hplayers⟩ := hlive client (List.mem_cons_self ..)
      rw [List.reduceOption_cons_of_some, List.find?_cons]
      cases hplayer : c.player with
      | none =>
        have hname : w.store.nameOf client = none := by
          simp [Store.nameOf, Store.playerOf, hc, hplayer]
        simp only [lookupLoop, run_bind, clientGetPlayer, run_derefClient, hc, run_pure, hplayer,
          ih hrest, hname, reduceCtorEq, decide_false]
      | some player =>
        obtain ⟨p, hp, -⟩ := hplayers player hplayer
        have hname : w.store.nameOf client = some p.name := by
          simp [Store.nameOf, Store.playerOf, hc, hplayer, hp]
        simp only [lookupLoop, run_bind, clientGetPlayer, run_derefClient, hc, run_pure, hplayer,
          playerGetName, run_derefPlayer, hp, run_ite, hname, Option.some.injEq]
        by_cases heq : p.name = user
        . simp only [heq, ↓reduceIte, clientRef_run hc, decide_true]
        . simp only [heq, ↓reduceIte, ih hrest, decide_false]

theorem cregLookup_run (user : CString) (hv : w.store.Valid extra)
    : (cregLookup user).run env w
        =
      .ok (match w.store.lookup user with
        | some client => (some client, { w with store := w.store.modifyClient client Client.addRef })
        | none => (none, w)) := by
  simp only [cregLookup, run_bind, run_getStore, lookupLoop_run user hv.slotsLive]
  rfl

theorem Store.Valid.lookup_eq_some {s : Store} (hv : s.Valid extra) {user : CString}
    (h : s.lookup user = some client)
    : 0 < s.registered client ∧ ∃ c, s.clients.get? client = some c ∧ c.player ≠ none := by
  have hmem := List.mem_of_find?_eq_some h
  have hname := List.find?_some h
  simp only [decide_eq_true_eq] at hname
  have hregistered : 0 < s.registered client := List.count_pos_iff.mpr hmem
  obtain ⟨c, hc⟩ := hv.held_live client (by omega)
  refine ⟨hregistered, c, hc, ?_⟩
  intro hnone
  simp [nameOf, playerOf, hc, hnone] at hname

theorem modifyClient_addRef_dropRef {s : Store} (hc : s.clients.get? client = some c)
    : (s.modifyClient client Client.addRef).modifyClient client Client.dropRef = s := by
  have hclients : (s.clients.modify client Client.addRef).modify client Client.dropRef
      = s.clients := by
    rw [Heap.modify_modify]
    apply Heap.modify_eq_self hc
    simp [Client.addRef, Client.dropRef]
  simp only [Store.modifyClient, hclients]

/-! ## The players that are logged in -/

def Store.playersIn (s : Store) (slots : List (Option ClientPtr)) : List PlayerPtr :=
  slots.reduceOption.filterMap s.playerOf

def refPlayers (players : List PlayerPtr) (h : Heap Player) : Heap Player :=
  players.foldl (fun h player => h.modify player Player.addRef) h

theorem refPlayers_modify (players : List PlayerPtr) (player : PlayerPtr) (h : Heap Player)
    : refPlayers players (h.modify player Player.addRef)
        =
      (refPlayers players h).modify player Player.addRef := by
  induction players generalizing h with
  | nil => rfl
  | cons other rest ih =>
    unfold refPlayers at ih ⊢
    rw [List.foldl_cons, List.foldl_cons, Heap.modify_commute (fun _ => rfl), ih]

theorem refPlayers_get? (players : List PlayerPtr) {player : PlayerPtr} {h : Heap Player}
    {p : Player} (hp : h.get? player = some p)
    : ∃ n : Nat, (refPlayers players h).get? player
        = some { p with refCount := p.refCount + n } := by
  induction players generalizing h p with
  | nil => exact ⟨0, by simpa [refPlayers] using hp⟩
  | cons other rest ih =>
    by_cases heq : player = other
    . subst heq
      obtain ⟨n, hn⟩ := ih (h := h.modify player Player.addRef) (p := p.addRef) (by simp [hp])
      refine ⟨n + 1, hn.trans ?_⟩
      simp only [Player.addRef, Nat.cast_add, Nat.cast_one, Option.some.injEq, Player.mk.injEq,
        true_and, and_true]
      omega
    . exact ih (h := h.modify other Player.addRef) (by simp [heq, hp])

theorem Store.SlotsLive.refPlayer {s : Store} {slots : List (Option ClientPtr)}
    (h : s.SlotsLive slots) (player : PlayerPtr)
    : (s.modifyPlayer player Player.addRef).SlotsLive slots := by
  intro client hmem
  obtain ⟨c, hc, hplayers⟩ := h client hmem
  refine ⟨c, hc, ?_⟩
  intro player' hplayer'
  obtain ⟨p, hp, hpos⟩ := hplayers player' hplayer'
  refine ⟨_, Heap.get?_modify_eq_some.mpr ⟨p, hp, rfl⟩, ?_⟩
  split
  . simp only [Player.addRef_refCount]
    omega
  . exact hpos

@[simps]
def World.withPlayers (w : World) (players : Heap Player) : World where
  store := { w.store with players := players }
  trace := w.trace

theorem allPlayersLoop_run {slots : List (Option ClientPtr)} (hlive : w.store.SlotsLive slots)
    : (allPlayersLoop slots).run env w
        =
      .ok (w.store.playersIn slots,
        w.withPlayers (refPlayers (w.store.playersIn slots) w.store.players)) := by
  induction slots generalizing w with
  | nil => rfl
  | cons slot rest ih =>
    have hrest : w.store.SlotsLive rest := fun client hmem => hlive client (List.mem_cons_of_mem _ hmem)
    cases slot with
    | none =>
      simp only [Store.playersIn, List.reduceOption_cons_of_none]
      exact ih hrest
    | some client =>
      obtain ⟨c, hc, hplayers⟩ := hlive client (List.mem_cons_self ..)
      cases hplayer : c.player with
      | none =>
        have hnone : w.store.playerOf client = none := by simp [Store.playerOf, hc, hplayer]
        simp only [allPlayersLoop, run_bind, clientGetPlayer, run_derefClient, hc, run_pure, hplayer,
          ih hrest, Store.playersIn, List.reduceOption_cons_of_some, List.filterMap_cons, hnone]
      | some player =>
        have hsome : w.store.playerOf client = some player := by
          simp [Store.playerOf, hc, hplayer]
        obtain ⟨p, hp, -⟩ := hplayers player hplayer
        have hloop := ih (w := { w with store := w.store.modifyPlayer player Player.addRef })
          (hrest.refPlayer player)
        simp only [allPlayersLoop, run_bind, clientGetPlayer, run_derefClient, hc, run_pure, hplayer,
          playerRef_run hp, hloop]
        simp only [Store.playersIn, List.reduceOption_cons_of_some, List.filterMap_cons, hsome]
        rfl

theorem cregAllPlayers_run (hlive : w.store.SlotsLive w.store.clientRegistry.slots)
    : (cregAllPlayers).run env w
        =
      if env.allocOk w.trace.allocs then
        .ok (w.store.playersIn w.store.clientRegistry.slots,
          World.withPlayers { w with trace.allocs := w.trace.allocs + 1 }
            (refPlayers (w.store.playersIn w.store.clientRegistry.slots) w.store.players))
      else
        .error .nullDereference := by
  simp only [cregAllPlayers, run_bind, run_allocate, run_ite, run_getStore]
  split
  . exact allPlayersLoop_run (w := { w with trace.allocs := w.trace.allocs + 1 }) hlive
  . rfl

theorem playersIn_live {s : Store} {slots : List (Option ClientPtr)} (hlive : s.SlotsLive slots)
    : ∀ player ∈ s.playersIn slots, ∃ p, s.players.get? player = some p ∧ 0 < p.refCount := by
  intro player hplayer
  obtain ⟨client, hmem, hof⟩ := List.mem_filterMap.mp hplayer
  obtain ⟨c, hc, hplayers⟩ := hlive client (List.reduceOption_mem_iff.mp hmem)
  apply hplayers
  simpa [Store.playerOf, hc] using hof

theorem playerUnref_run_refPlayers {player : PlayerPtr} {rest : List PlayerPtr} {p : Player}
    {h : Heap Player} (hp : h.get? player = some p) (hpos : 0 < p.refCount)
    : (playerUnref player).run env (w.withPlayers (refPlayers (player :: rest) h))
        =
      .ok ((), w.withPlayers (refPlayers rest h)) := by
  have hcons : refPlayers (player :: rest) h
      = (refPlayers rest h).modify player Player.addRef := refPlayers_modify rest player h
  obtain ⟨n, hn⟩ := refPlayers_get? rest hp
  rw [hcons]
  rw [playerUnref_run (p := Player.addRef { p with refCount := p.refCount + n })
    (by simp [World.withPlayers, hn]) (by simp only [Player.addRef_refCount]; omega)]
  have hback : ((refPlayers rest h).modify player Player.addRef).modify player Player.dropRef
      = refPlayers rest h := by
    rw [Heap.modify_modify]
    apply Heap.modify_eq_self hn
    simp [Player.addRef, Player.dropRef]
  simp only [World.withPlayers, Store.modifyPlayer, hback]

theorem playerGetName_run_refPlayers {player : PlayerPtr} {players : List PlayerPtr} {p : Player}
    {h : Heap Player} (hp : h.get? player = some p)
    : (playerGetName player).run env (w.withPlayers (refPlayers players h))
        =
      .ok (p.name, w.withPlayers (refPlayers players h)) := by
  obtain ⟨n, hn⟩ := refPlayers_get? players hp
  have hget : (w.withPlayers (refPlayers players h)).store.players.get? player
      = some { p with refCount := p.refCount + n } := hn
  simp only [playerGetName, run_bind, run_derefPlayer, hget, run_pure]

def nameTaken (h : Heap Player) (name : CString) (players : List PlayerPtr) : Bool :=
  players.any fun player => (h.get? player).map (·.name) = some name

theorem loginLoop_run (name : CString) {players : List PlayerPtr} {h : Heap Player}
    (hlive : ∀ player ∈ players, ∃ p, h.get? player = some p ∧ 0 < p.refCount)
    : (loginLoop name players).run env (w.withPlayers (refPlayers players h))
        =
      .ok (nameTaken h name players, w.withPlayers h) := by
  induction players with
  | nil => rfl
  | cons player rest ih =>
    obtain ⟨p, hp, hpos⟩ := hlive player (List.mem_cons_self ..)
    have hrest := ih fun other hmem => hlive other (List.mem_cons_of_mem _ hmem)
    simp only [loginLoop, run_bind, playerGetName_run_refPlayers hp,
      playerUnref_run_refPlayers hp hpos, hrest, run_pure, nameTaken, List.any_cons, hp,
      Option.map_some, Option.some.injEq]

end Jeux
