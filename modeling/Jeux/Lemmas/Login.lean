import Mathlib.Data.List.Find
import Jeux.Lemmas.Sessions

/-!
A LOGIN request, from `preg_register` to the responses `process_login` sends.
-/

namespace Jeux

open ServerM

variable {env : Env} {w w' : World} {extra : ClientPtr → Nat} {client : ClientPtr} {c : Client}

/-! ## Responses -/

def ackPacket (env : Env) (w : World) (id : Int) (size : Nat) : PacketHeader :=
  createHeader (env.clock w.trace.sent.length) .ack id .nullRole size

def nackPacket (env : Env) (w : World) : PacketHeader :=
  createHeader (env.clock w.trace.sent.length) .nack 0 .nullRole 0

@[simps]
def World.acked (w : World) (env : Env) (client : ClientPtr) (id : Int) (data : Option CString)
    : World where
  store := w.store
  trace := w.trace.send env client (ackPacket env w id (data.getD []).length) data

@[simps]
def World.nacked (w : World) (env : Env) (client : ClientPtr) : World where
  store := w.store
  trace := w.trace.send env client (nackPacket env w) none

theorem clientSendNack_run (hc : w.store.clients.get? client = some c)
    : (clientSendNack client).run env w
        =
      .ok (if env.sendOk w.trace.sent.length then 0 else -1, w.nacked env client) := by
  simp only [clientSendNack, run_bind, run_newHeader, clientSendPacket_run _ _ hc]
  rw [protoSendPacket_none _ _ rfl]
  rfl

theorem clientSendAck_run (env : Env) (data : Option CString) (hc : w.store.clients.get? client = some c)
    : ∃ r, (clientSendAck client data (data.getD []).length).run env w
        = .ok (r, w.acked env client 0 data) := by
  simp only [clientSendAck, run_bind, run_newHeader, clientSendPacket_run _ _ hc]
  exact ⟨_, rfl⟩

/-! ## `preg_register` -/

def Store.playerNamed (s : Store) (name : CString) : Option PlayerPtr :=
  s.playerRegistry.players.find? fun player => (s.players.get? player).map (·.name) = some name

theorem pregFind_run (name : CString) {players : List PlayerPtr}
    (hlive : ∀ player ∈ players, ∃ p, w.store.players.get? player = some p)
    : (pregFind name players).run env w
        =
      .ok (players.find? fun player => (w.store.players.get? player).map (·.name) = some name, w) := by
  induction players with
  | nil => rfl
  | cons player rest ih =>
    obtain ⟨p, hp⟩ := hlive player (List.mem_cons_self ..)
    have hrest := ih fun other hmem => hlive other (List.mem_cons_of_mem _ hmem)
    simp only [pregFind, run_bind, playerGetName, run_derefPlayer, hp, run_pure, run_ite,
      List.find?_cons, Option.map_some, Option.some.injEq]
    by_cases heq : p.name = name
    . simp only [heq, ↓reduceIte, decide_true]
    . simp only [heq, ↓reduceIte, decide_false, hrest]

def PlayerAvailable (env : Env) (w : World) (name : CString) : Prop :=
  w.store.playerNamed name ≠ none
    ∨ (env.allocOk w.trace.allocs = true ∧ env.allocOk (w.trace.allocs + 1) = true)

instance (env : Env) (w : World) (name : CString) : Decidable (PlayerAvailable env w name) :=
  inferInstanceAs (Decidable (_ ∨ _))

def Store.playerFor (s : Store) (name : CString) : PlayerPtr :=
  (s.playerNamed name).getD s.players.next

def Store.enlist (s : Store) (name : CString) : Store :=
  match s.playerNamed name with
  | some _ => s
  | none => s.addPlayer name

def Store.enlistAllocs (s : Store) (name : CString) : Nat :=
  match s.playerNamed name with
  | some _ => 0
  | none => 2

theorem Store.Valid.registry_live {s : Store} (hv : s.Valid extra)
    : ∀ player ∈ s.playerRegistry.players, ∃ p, s.players.get? player = some p := by
  intro player hmem
  obtain ⟨p, hp, -⟩ := hv.player player hmem
  exact ⟨p, hp⟩

theorem pregRegister_run {name : CString} (hv : w.store.Valid extra)
    (havail : PlayerAvailable env w name)
    : (pregRegister name).run env w
        =
      .ok (some (w.store.playerFor name), {
        store := (w.store.enlist name).modifyPlayer (w.store.playerFor name) Player.addRef
        trace := { w.trace with allocs := w.trace.allocs + w.store.enlistAllocs name } }) := by
  have hfind : w.store.playerNamed name = _ := rfl
  unfold Store.playerFor Store.enlist Store.enlistAllocs
  simp only [pregRegister, run_bind, run_getStore, pregFind_run name hv.registry_live]
  unfold PlayerAvailable at havail
  cases hnamed : w.store.playerNamed name with
  | some player =>
    obtain ⟨p, hp⟩ := hv.registry_live player (List.mem_of_find?_eq_some hnamed)
    unfold Store.playerNamed at hnamed
    simp only [hnamed, run_bind, playerRef_run hp, run_pure]
    rfl
  | none =>
    rw [hnamed] at havail
    simp only [ne_eq, not_true_eq_false, false_or] at havail
    unfold Store.playerNamed at hnamed
    simp only [hnamed, playerCreate, run_bind, run_allocate, havail.1, ↓reduceIte,
      run_getStore, run_modifyStore, run_pure, havail.2, playerRef, run_derefPlayer,
      Heap.get?_push_next]
    rfl

theorem pregRegister_run_no_room {name : CString} (hv : w.store.Valid extra)
    (havail : ¬ PlayerAvailable env w name)
    : ∃ w₁ : World, (pregRegister name).run env w = .ok (none, w₁)
        ∧ (w₁.store = w.store
          ∨ ∃ p, w₁.store = { w.store with players := w.store.players.push p })
        ∧ w₁.trace.sent = w.trace.sent ∧ w₁.trace.posted = w.trace.posted := by
  unfold PlayerAvailable at havail
  rw [not_or, not_not, not_and] at havail
  obtain ⟨hnamed, hno⟩ := havail
  unfold Store.playerNamed at hnamed
  simp only [pregRegister, run_bind, run_getStore, pregFind_run name hv.registry_live, hnamed,
    playerCreate, run_allocate, run_ite]
  cases halloc : env.allocOk w.trace.allocs with
  | false => exact ⟨_, rfl, .inl rfl, rfl, rfl⟩
  | true =>
    have hno' : env.allocOk (w.trace.allocs + 1) = false := by
      simpa using hno halloc
    simp only [↓reduceIte, run_modifyStore, run_bind, run_pure, run_allocate, hno',
      Bool.false_eq_true]
    exact ⟨_, rfl, .inr ⟨_, rfl⟩, rfl, rfl⟩

/-! ## `client_login` -/

theorem nameTaken_eq (s : Store) (name : CString)
    : nameTaken s.players name (s.playersIn s.clientRegistry.slots) = (s.lookup name).isSome := by
  rw [Bool.eq_iff_iff, Store.lookup, List.find?_isSome, nameTaken, List.any_eq_true]
  constructor
  . rintro ⟨player, hplayer, hname⟩
    obtain ⟨client, hmem, hof⟩ := List.mem_filterMap.mp hplayer
    exact ⟨client, hmem, by simpa [Store.nameOf, hof] using hname⟩
  . rintro ⟨client, hmem, hname⟩
    simp only [Store.nameOf, decide_eq_true_eq, Option.bind_eq_some_iff] at hname
    obtain ⟨player, hof, hname⟩ := hname
    exact ⟨player, List.mem_filterMap.mpr ⟨client, hmem, hof⟩, by simpa using hname⟩

theorem clientLogin_run {player : PlayerPtr} {p : Player}
    (hlive : w.store.SlotsLive w.store.clientRegistry.slots)
    (hc : w.store.clients.get? client = some c) (hout : c.loggedIn = .loggedOut)
    (hp : w.store.players.get? player = some p) (hsem : w.store.loginSem ≠ 0)
    : (clientLogin client player).run env w
        =
      if env.allocOk w.trace.allocs then
        if (w.store.lookup p.name).isSome then
          .ok (-1, { w with trace.allocs := w.trace.allocs + 1 })
        else
          .ok (0, {
            store := w.store.login client player
            trace := { w.trace with allocs := w.trace.allocs + 1 } })
      else
        .error .nullDereference := by
  obtain ⟨w₁, hw₁⟩ : ∃ w₁ : World,
      { w with store := { w.store with loginSem := w.store.loginSem - 1 } } = w₁ := ⟨_, rfl⟩
  have hlive₁ : w₁.store.SlotsLive w₁.store.clientRegistry.slots := hw₁ ▸ hlive
  have hc₁ : w₁.store.clients.get? client = some c := hw₁ ▸ hc
  simp only [clientLogin, loginSemWait, run_bind, run_getStore, run_ite, if_neg hsem,
    run_modifyStore, hw₁, run_derefClient, hc₁, hout, ne_eq, not_true_eq_false, ↓reduceIte,
    cregAllPlayers_run hlive₁]
  have hallocs : w₁.trace.allocs = w.trace.allocs := by rw [← hw₁]
  rw [hallocs]
  cases env.allocOk w.trace.allocs with
  | false => rfl
  | true =>
    have hp₁ : w₁.store.players.get? player = some p := hw₁ ▸ hp
    have htaken : nameTaken w₁.store.players p.name
        (w₁.store.playersIn w₁.store.clientRegistry.slots) = (w.store.lookup p.name).isSome := by
      rw [nameTaken_eq, ← hw₁]
      rfl
    have hsem₁ : w₁.store.loginSem + 1 = w.store.loginSem := by
      rw [← hw₁]
      dsimp only
      omega
    simp only [↓reduceIte, playerGetName_run_refPlayers hp₁,
      loginLoop_run p.name (playersIn_live hlive₁), htaken]
    split
    . simp only [loginSemPost, run_modifyStore, run_pure, World.withPlayers, hsem₁]
      subst hw₁
      rfl
    . simp only [loginSemPost, run_modifyStore, run_bind, run_pure, World.withPlayers,
        playerRef, run_derefPlayer, Store.modifyClient_players, hp₁]
      subst hw₁
      simp only [Store.modifyClient, Store.modifyPlayer, Store.login, Heap.modify_modify] at hsem₁ ⊢
      rw [hsem₁]
      rfl

/-! ## `process_login` -/

def LoginRefused (c : Client) (payload : Option CString) : Prop :=
  c.player ≠ none ∨ payload = none ∨ payload = some []

theorem Store.Valid.loggedOut {s : Store} {payload : Option CString} (hv : s.Valid extra)
    (hc : s.clients.get? client = some c) (hrefused : ¬ LoginRefused c payload)
    : c.loggedIn = .loggedOut := by
  cases hstate : c.loggedIn with
  | loggedOut => rfl
  | loggedIn => exact absurd (.inl ((hv.client client c hc).player hstate)) hrefused

theorem processLogin_run_refused {payload : Option CString}
    (hc : w.store.clients.get? client = some c) (hrefused : LoginRefused c payload)
    : (processLogin payload client).run env w = .ok (-1, w.nacked env client) := by
  simp only [processLogin, run_bind, clientGetPlayer, run_derefClient, hc, run_pure, run_ite]
  by_cases hplayer : c.player ≠ none
  . simp only [if_pos hplayer, clientSendNack_run hc]
  . rw [if_neg hplayer]
    rcases hrefused with h | h | h
    . exact absurd h hplayer
    . subst h
      simp only [run_bind, clientSendNack_run hc, run_pure]
    . subst h
      simp only [List.length_nil, ↓reduceIte, run_bind, clientSendNack_run hc, run_pure]

theorem processLogin_run_no_room {name : CString} (hv : w.store.Valid extra)
    (hc : w.store.clients.get? client = some c) (hrefused : ¬ LoginRefused c (some name))
    (havail : ¬ PlayerAvailable env w name)
    : ∃ w₁ : World, (processLogin (some name) client).run env w = .ok (-1, w₁.nacked env client)
        ∧ (w₁.store = w.store
          ∨ ∃ p, w₁.store = { w.store with players := w.store.players.push p })
        ∧ w₁.trace.sent = w.trace.sent ∧ w₁.trace.posted = w.trace.posted := by
  unfold LoginRefused at hrefused
  simp only [not_or, not_not, Option.some.injEq, reduceCtorEq, not_false_eq_true, true_and]
    at hrefused
  obtain ⟨w₁, hrun, hstore, hsent, hposted⟩ := pregRegister_run_no_room hv havail
  have hc₁ : w₁.store.clients.get? client = some c := by
    rcases hstore with h | ⟨p, h⟩ <;> rw [h] <;> exact hc
  refine ⟨w₁, ?_, hstore, hsent, hposted⟩
  simp only [processLogin, run_bind, clientGetPlayer, run_derefClient, hc, run_pure, hrefused.1,
    ne_eq, not_true_eq_false, ↓reduceIte, List.length_eq_zero_iff, hrefused.2, hrun,
    clientSendNack_run hc₁]

theorem Store.Valid.enlist {s : Store} (hv : s.Valid extra) (name : CString)
    : (s.enlist name).Valid extra := by
  unfold Store.enlist
  split
  . exact hv
  . exact hv.addPlayer name

theorem Store.Valid.playerFor_mem {s : Store} (name : CString)
    : s.playerFor name ∈ (s.enlist name).playerRegistry.players := by
  unfold Store.enlist Store.playerFor
  cases hnamed : s.playerNamed name with
  | some player => exact List.mem_of_find?_eq_some hnamed
  | none => exact List.mem_append_right _ (List.mem_singleton_self _)

theorem Store.Valid.playerFor_name {s : Store} (hv : s.Valid extra) (name : CString)
    : ∃ p, (s.enlist name).players.get? (s.playerFor name) = some p ∧ p.name = name := by
  unfold Store.enlist Store.playerFor
  cases hnamed : s.playerNamed name with
  | some player =>
    obtain ⟨p, hp⟩ := hv.registry_live player (List.mem_of_find?_eq_some hnamed)
    have hname := List.find?_some hnamed
    simp only [hp, Option.map_some, Option.some.injEq, decide_eq_true_eq] at hname
    exact ⟨p, hp, hname⟩
  | none => exact ⟨_, Heap.get?_push_next, rfl⟩

theorem Store.Valid.lookup_enlist {s : Store} (hv : s.Valid extra) (name : CString)
    : (s.enlist name).lookup name = s.lookup name := by
  unfold Store.enlist
  cases hnamed : s.playerNamed name with
  | some player => rfl
  | none =>
    have hname : ∀ client ∈ s.clientRegistry.members,
        (s.addPlayer name).nameOf client = s.nameOf client := by
      intro client hmem
      unfold nameOf
      have hsame : (s.addPlayer name).playerOf client = s.playerOf client := rfl
      rw [hsame]
      cases hplayer : s.playerOf client with
      | none => rfl
      | some player =>
        obtain ⟨c, hc, hof⟩ := Option.bind_eq_some_iff.mp hplayer
        obtain ⟨p, hp⟩ := hv.player_live hc hof
        simp only [Option.bind_some, hp]
        exact congrArg _ (Heap.get?_push_of_get? hp)
    unfold lookup
    apply List.find?_congr
    intro client hmem
    rw [hname client hmem]

theorem Store.lookup_refPlayer (s : Store) (player : PlayerPtr) (user : CString)
    : (s.modifyPlayer player Player.addRef).lookup user = s.lookup user := by
  have hname : ∀ client, (s.modifyPlayer player Player.addRef).nameOf client = s.nameOf client := by
    intro client
    unfold nameOf
    have hsame : (s.modifyPlayer player Player.addRef).playerOf client = s.playerOf client := rfl
    rw [hsame]
    cases s.playerOf client with
    | none => rfl
    | some player' => exact Heap.map_get?_modify (fun _ => rfl)
  unfold lookup
  simp only [hname]
  rfl

theorem modifyPlayer_addRef_dropRef {s : Store} {player : PlayerPtr} {p : Player}
    (hp : s.players.get? player = some p)
    : (s.modifyPlayer player Player.addRef).modifyPlayer player Player.dropRef = s := by
  have hplayers : (s.players.modify player Player.addRef).modify player Player.dropRef
      = s.players := by
    rw [Heap.modify_modify]
    apply Heap.modify_eq_self hp
    simp [Player.addRef, Player.dropRef]
  simp only [Store.modifyPlayer, hplayers]

theorem login_addRef_dropRef (s : Store) (client : ClientPtr) (player : PlayerPtr)
    : ((s.modifyPlayer player Player.addRef).login client player).modifyPlayer player Player.dropRef
        =
      s.login client player := by
  have hplayers : ((s.players.modify player Player.addRef).modify player Player.addRef).modify player
      Player.dropRef = s.players.modify player Player.addRef := by
    rw [Heap.modify_modify, Heap.modify_modify]
    congr 1
    funext p
    simp [Player.addRef, Player.dropRef]
  simp only [Store.modifyPlayer, Store.login, Store.modifyClient, hplayers]

@[simps]
def World.enlisted (w : World) (name : CString) : World where
  store := w.store.enlist name
  trace := { w.trace with allocs := w.trace.allocs + w.store.enlistAllocs name + 1 }

theorem processLogin_run {name : CString} (hv : w.store.Valid extra)
    (hc : w.store.clients.get? client = some c) (hout : c.loggedIn = .loggedOut)
    (hrefused : ¬ LoginRefused c (some name)) (havail : PlayerAvailable env w name)
    (hsem : w.store.loginSem ≠ 0)
    : (processLogin (some name) client).run env w
        =
      if env.allocOk (w.trace.allocs + w.store.enlistAllocs name) then
        .ok (1,
          if (w.store.lookup name).isSome then
            ((w.enlisted name).nacked env client).acked env client 0 none
          else
            { w.enlisted name with
              store := (w.store.enlist name).login client (w.store.playerFor name) }.acked env client 0
              none)
      else
        .error .nullDereference := by
  unfold LoginRefused at hrefused
  simp only [not_or, not_not, Option.some.injEq, reduceCtorEq, not_false_eq_true, true_and]
    at hrefused
  obtain ⟨p, hp, hname⟩ := hv.playerFor_name name
  have hbase := hv.enlist name
  obtain ⟨p', hp', href⟩ := hbase.player _ (Store.Valid.playerFor_mem name)
  rw [hp, Option.some.injEq] at hp'
  subst hp'
  have hclients : (w.store.enlist name).clients = w.store.clients := by
    unfold Store.enlist
    split <;> rfl
  have hsem' : (w.store.enlist name).loginSem = w.store.loginSem := by
    unfold Store.enlist
    split <;> rfl
  simp only [processLogin, run_bind, clientGetPlayer, run_derefClient, hc, run_pure, run_ite,
    hrefused.1, ne_eq, not_true_eq_false, ↓reduceIte, List.length_eq_zero_iff, hrefused.2,
    pregRegister_run hv havail]
  generalize hbase' : w.store.enlist name = base at *
  generalize hplayer : w.store.playerFor name = player at *
  obtain ⟨w₁, hw₁⟩ : ∃ w₁ : World, World.mk (base.modifyPlayer player Player.addRef)
      { w.trace with allocs := w.trace.allocs + w.store.enlistAllocs name } = w₁ := ⟨_, rfl⟩
  have hlive : w₁.store.SlotsLive w₁.store.clientRegistry.slots := by
    rw [← hw₁]
    exact hbase.slotsLive.refPlayer player
  have hc₁ : w₁.store.clients.get? client = some c := by
    rw [← hw₁]
    exact hclients ▸ hc
  have hp₁ : w₁.store.players.get? player = some p.addRef := by simp [← hw₁, hp]
  have hlookup : w₁.store.lookup p.addRef.name = w.store.lookup name := by
    rw [← hw₁, Store.lookup_refPlayer, Player.addRef_name, hname, ← hbase', hv.lookup_enlist]
  have hallocs : w₁.trace.allocs = w.trace.allocs + w.store.enlistAllocs name := by rw [← hw₁]
  rw [hw₁, clientLogin_run hlive hc₁ hout hp₁ (by rw [← hw₁]; exact hsem' ▸ hsem), hlookup, hallocs]
  cases env.allocOk (w.trace.allocs + w.store.enlistAllocs name) with
  | false => rfl
  | true =>
    have hone : p.addRef.refCount ≠ 1 := by
      simp only [Player.addRef_refCount]
      omega
    by_cases htaken : (w.store.lookup name).isSome = true
    . obtain ⟨w₂, hw₂⟩ : ∃ w₂ : World, { w₁ with
          trace := { w₁.trace with allocs := w.trace.allocs + w.store.enlistAllocs name + 1 } } = w₂ :=
        ⟨_, rfl⟩
      have hc₂ : w₂.store.clients.get? client = some c := hw₂ ▸ hc₁
      have hp₂ : (w₂.nacked env client).store.players.get? player = some p.addRef := hw₂ ▸ hp₁
      simp only [htaken, ↓reduceIte, hw₂, clientSendNack_run hc₂, playerUnref_run hp₂ hone]
      have hstore : w₂.store.modifyPlayer player Player.dropRef = base := by
        rw [← hw₂, ← hw₁]
        exact modifyPlayer_addRef_dropRef hp
      simp only [World.nacked_store, hstore]
      obtain ⟨w₃, hw₃⟩ : ∃ w₃ : World, World.mk base (w₂.nacked env client).trace = w₃ := ⟨_, rfl⟩
      have hc₃ : w₃.store.clients.get? client = some c := by
        rw [← hw₃]
        exact hclients ▸ hc
      obtain ⟨r, hack⟩ := clientSendAck_run env none hc₃
      simp only [Option.getD_none, List.length_nil] at hack
      rw [hw₃, hack]
      subst hw₃ hw₂ hw₁
      simp only [World.enlisted, hbase']
      rfl
    . obtain ⟨w₂, hw₂⟩ : ∃ w₂ : World, World.mk (w₁.store.login client player)
          { w₁.trace with allocs := w.trace.allocs + w.store.enlistAllocs name + 1 } = w₂ := ⟨_, rfl⟩
      have hp₂ : w₂.store.players.get? player = some p.addRef.addRef := by
        simp [← hw₂, hp₁]
      have htwo : p.addRef.addRef.refCount ≠ 1 := by
        simp only [Player.addRef_refCount]
        omega
      simp only [htaken, ↓reduceIte, Bool.false_eq_true, hw₂, playerUnref_run hp₂ htwo,
        (by decide : ¬ (0 : Int) = -1)]
      have hstore : w₂.store.modifyPlayer player Player.dropRef = base.login client player := by
        rw [← hw₂, ← hw₁]
        exact login_addRef_dropRef base client player
      simp only [hstore]
      obtain ⟨w₃, hw₃⟩ : ∃ w₃ : World, World.mk (base.login client player) w₂.trace = w₃ := ⟨_, rfl⟩
      have hc₃ : w₃.store.clients.get? client
          = some { c with player := some player, loggedIn := .loggedIn } := by
        rw [← hw₃]
        simp [hclients, hc]
      obtain ⟨r, hack⟩ := clientSendAck_run env none hc₃
      simp only [Option.getD_none, List.length_nil] at hack
      rw [hw₃, hack]
      subst hw₃ hw₂ hw₁
      rfl

end Jeux
