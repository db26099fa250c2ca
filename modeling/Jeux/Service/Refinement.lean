import Jeux.Service.Lobby

/-!
Whatever happens to the server is something that can be done in the lobby, and whatever can be done
there can happen to the server.
-/

namespace Jeux

variable {env : Env} {w w' : World} {s s' : Store} {client x : ClientPtr} {c : Client}
  {σ σ' : Server} {e : Event} {op : Operation} {r : Int} {inv : InvitationPtr}
  {name : CString} {extra : ClientPtr → Nat} {nodes : List InvitationNode} {gate gate' : Int}
  {pkt : Packet} {a : Lobby.Action CString ClientPtr InvitationPtr CString}
  {as : List (Lobby.Action CString ClientPtr InvitationPtr CString)}
  {l : Lobby CString ClientPtr InvitationPtr Game}

/-! ## Coming and going -/

namespace Store

theorem lobby_congr (hsame : s.SameNames s')
    (hratings : ∀ player, s'.ratingOf player = s.ratingOf player)
    (hsessions : ∀ x, s'.sessionOf x = s.sessionOf x) (hinvitations : s'.invitations = s.invitations)
    (hgames : s'.games = s.games) : s'.lobby = s.lobby := by
  refine Lobby.ext ?_ (hsame.ratingFor hratings) (funext hsessions)
    (pairingOf_congr hinvitations hgames)
  funext name
  exact congrArg (· ≠ none) (hsame.playerNamed name)

theorem lobby_connect (s : Store) (fd : Int) : (s.connect fd).lobby = s.lobby := by
  refine lobby_congr (.of_players rfl rfl) (fun _ => rfl) (fun x => ?_) rfl rfl
  have hpush : (s.connect fd).clients.get? x
      = if x = s.clients.next then some (newClient fd) else s.clients.get? x := Heap.get?_push ..
  by_cases heq : x = s.clients.next
  . rw [if_pos heq] at hpush
    have hold : s.clients.get? x = none := heq ▸ Heap.get?_next
    simp [sessionOf, isLoggedIn, hpush, hold, newClient]
  . rw [if_neg heq] at hpush
    exact sessionOf_congr (by rw [hpush]) fun _ _ => rfl

/--
`preg_register` enrolls a name that is new. It starts with the rating its name has had all along.
-/
theorem Valid.lobby_enlist (hv : s.Valid extra) (name : CString)
    : (s.enlist name).lobby
        =
      { s.lobby with enrolled := fun user => user = name ∨ s.lobby.enrolled user } := by
  have hquiet := quiet_enlist s name
  have hnamed := hv.playerNamed_enlist name
  refine Lobby.ext ?_ ?_ ?_ (pairingOf_congr hquiet.invitations hquiet.games)
  . funext user
    show (_ ≠ none) = (user = name ∨ s.playerNamed user ≠ none)
    rw [hnamed]
    by_cases heq : user = name <;> simp [heq]
  . funext user
    show ratingFor _ user = ratingFor s user
    unfold ratingFor
    rw [hnamed]
    cases hold : s.playerNamed user with
    | some player =>
      obtain ⟨p, hp⟩ := hv.registry_live player (name_of_playerNamed hold).1
      have hrating : s.ratingOf player = some p.rating := by simp [ratingOf, hp]
      have hplayer : (if user = name then some (s.playerFor name) else some player)
          = some player := by
        split
        . next heq => rw [playerFor, ← heq, hold, Option.getD_some]
        . rfl
      rw [hplayer, Option.bind_some, Option.bind_some, hquiet.ratings player _ hrating, hrating]
    | none =>
      split
      . next heq =>
        subst heq
        have hnew : (s.enlist user).ratingOf (s.playerFor user) = some playerInitialRating := by
          unfold ratingOf playerFor Store.enlist
          rw [hold, Option.getD_none]
          exact congrArg _ Heap.get?_push_next
        rw [Option.bind_some, hnew]
        rfl
      . rfl
  . funext x
    refine sessionOf_congr (by rw [enlist_clients]) fun player hplayer => ?_
    obtain ⟨c, hc, hof⟩ := Option.bind_eq_some_iff.mp hplayer
    obtain ⟨p, hp⟩ := hv.player_live hc hof
    unfold Store.enlist
    split
    . rfl
    . exact congrArg _ ((Heap.get?_push_of_get? hp).trans hp.symm)

theorem lobby_enter {p : Player} (hc : s.clients.get? client = some c)
    (hp : s.players.get? player = some p)
    : (s.login client player).lobby
        =
      { s.lobby with session := Function.update s.lobby.session client (some p.name) } := by
  have hsame := sameNames_login s client player
  refine Lobby.ext ?_ ?_ ?_ (pairingOf_congr rfl rfl)
  . funext user
    exact congrArg (· ≠ none) (hsame.playerNamed user)
  . exact hsame.ratingFor fun x => ratingOf_modify player (login_players ..) (fun _ => rfl) x
  . funext x
    show sessionOf _ x = Function.update s.sessionOf client (some p.name) x
    by_cases heq : x = client
    . subst heq
      rw [Function.update_self]
      simp [sessionOf, isLoggedIn, nameOf, playerOf, login_clients, login_players, hc, hp,
        Player.addRef]
    . rw [Function.update_of_ne heq]
      refine sessionOf_congr ?_ fun x _ => ?_
      . rw [login_clients, Heap.get?_modify_ne heq]
      . rw [login_players, Heap.map_get?_modify]
        exact fun _ => rfl

theorem Valid.lobby_login (hv : s.Valid extra) (hc : s.clients.get? client = some c)
    (name : CString)
    : ((s.enlist name).login client (s.playerFor name)).lobby
        =
      { s.lobby with
        enrolled := fun user => user = name ∨ s.lobby.enrolled user
        session := Function.update s.lobby.session client (some name) } := by
  obtain ⟨p, hp, hname⟩ := hv.playerFor_name name
  have hc' : (s.enlist name).clients.get? client = some c := by rw [enlist_clients, hc]
  rw [lobby_enter hc' hp, hv.lobby_enlist, hname]

theorem lobby_leave (s : Store) (client : ClientPtr) (player : PlayerPtr)
    : (s.leave client player).lobby
        =
      { s.lobby with session := Function.update s.lobby.session client none } := by
  have hsame := sameNames_leave s client player
  refine Lobby.ext ?_ ?_ ?_ (pairingOf_congr rfl rfl)
  . funext user
    exact congrArg (· ≠ none) (hsame.playerNamed user)
  . exact hsame.ratingFor fun x => ratingOf_modify player (leave_players ..) (fun _ => rfl) x
  . funext x
    show sessionOf _ x = Function.update s.sessionOf client none x
    by_cases heq : x = client
    . subst heq
      rw [Function.update_self]
      cases hc : s.clients.get? x <;> simp [sessionOf, isLoggedIn, leave_clients, hc]
    . rw [Function.update_of_ne heq]
      refine sessionOf_congr (by rw [leave_clients_ne player heq]) fun x _ => ?_
      rw [leave_players, Heap.map_get?_modify]
      exact fun _ => rfl

theorem lobby_unrefClient
    (hlast : ∀ c ∈ s.clients.get? client, c.refCount = 1 → c.loggedIn = .loggedOut)
    : (s.unrefClient client).lobby = s.lobby := by
  unfold unrefClient
  split
  . next c hc =>
    split
    . next hone =>
      refine lobby_congr (.of_players rfl rfl) (fun _ => rfl) (fun x => ?_) rfl rfl
      by_cases heq : x = client
      . subst heq
        simp [sessionOf, isLoggedIn, hc, hlast c hc hone]
      . exact sessionOf_congr (by simp [heq]) fun _ _ => rfl
    . refine lobby_congr (.of_players rfl rfl) (fun _ => rfl) (fun x => ?_) rfl rfl
      exact sessionOf_congr (Heap.map_get?_modify fun _ => rfl) fun _ _ => rfl
  . rfl

theorem lobby_unregister (hc : s.clients.get? client = some c) (hout : c.loggedIn = .loggedOut)
    (i : Nat) : (s.unregister client i).lobby = s.lobby := by
  refine lobby_unrefClient (s := { s with clientRegistry := (s.clientRegistry.shift i).release })
    fun c' hc' _ => ?_
  obtain rfl := Option.some.inj (hc.symm.trans hc')
  exact hout

theorem Valid.isLoggedIn_registered (hv : s.Valid fun _ => 0) (h : s.sessionOf x ≠ none)
    : s.isLoggedIn x = true ∧ 0 < s.registered x := by
  have hin : s.isLoggedIn x = true := by
    refine Classical.byContradiction fun hout => h ?_
    rw [sessionOf, if_neg hout]
  refine ⟨hin, ?_⟩
  unfold isLoggedIn at hin
  cases hc : s.clients.get? x with
  | none => simp [hc] at hin
  | some c =>
    rw [hc, decide_eq_true_eq] at hin
    have := (hv.client x c hc).held hin
    omega

theorem sessionOf_ne_of_lookup (hregistered : ∀ y, s.sessionOf y ≠ none → 0 < s.registered y)
    (hfree : s.lookup name = none) (y : ClientPtr) : s.sessionOf y ≠ some name := by
  intro hy
  have hpos := hregistered y (by simp [hy])
  have hnameOf : s.nameOf y = some name := by
    unfold sessionOf at hy
    split at hy
    . exact hy
    . simp at hy
  unfold lookup at hfree
  rw [List.find?_eq_none] at hfree
  exact hfree y (registered_pos.mp hpos) (by simp [hnameOf])

theorem Steady.registered_of_takesPart {m : Lobby.Pairing ClientPtr Game} (h : s.Steady)
    (hm : s.pairingOf inv = some m) (hpart : m.TakesPart x)
    : s.isLoggedIn x = true ∧ 0 < s.registered x := by
  obtain ⟨i, hi, hactive, hor⟩ := h.valid.participant_of_takesPart hm hpart
  obtain ⟨c, hc, -, hin, -⟩ := h.settled.participant h.valid hi hactive hor
  have := (h.valid.client x c hc).held hin
  exact ⟨by simp [isLoggedIn, hc, hin], by omega⟩

end Store

def Quits : Lobby.Action CString ClientPtr InvitationPtr CString → Prop
  | .withdraw _ => True
  | .resign _ => True
  | _ => False

theorem quits_of_logoutOp {i : Invitation} {id : Int}
    (ha : (logoutOp client i id).action? s client = some a) : Quits a := by
  unfold logoutOp at ha
  split at ha
  . obtain ⟨inv, -, rfl⟩ := Option.map_eq_some_iff.mp ha
    trivial
  . split at ha
    . obtain ⟨inv, -, rfl⟩ := Option.map_eq_some_iff.mp ha
      trivial
    . obtain ⟨inv, -, rfl⟩ := Option.map_eq_some_iff.mp ha
      trivial

/--
The loop of `client_logout` takes back the offers and resigns the games.
-/
theorem LogoutRun.lobby (h : LogoutRun env client w nodes w') (henv : env.Reliable)
    (hserves : w.store.Serves extra client) (hon : w.store.GamesOn) (hnames : w.store.NamesApart)
    : ∃ as, (∀ a ∈ as, Quits a)
        ∧ Lobby.Run (lobbyRules env.expected) client w.store.lobby as w'.store.lobby := by
  induction h with
  | nil => exact ⟨[], by simp, .nil _⟩
  | @cons w w₁ w' c i node nodes r hc hnode hi heffect hrest ih =>
    have hcall : w.store.Callable client (logoutOp client i node.id) :=
      hserves.callable (logoutOp_ne_make _ _ _)
    obtain ⟨as, hquits, hrun⟩ := ih (heffect.serves hserves hcall)
      (heffect.gamesOn henv.sends hserves hon) (hnames.same heffect.keepsSessions.sameNames)
    rcases heffect.lobby henv hserves hcall hon hnames with ⟨-, hsame⟩ | ⟨a, ha, hstep⟩
    . exact ⟨as, hquits, hsame ▸ hrun⟩
    . exact ⟨a :: as, List.forall_mem_cons.mpr ⟨quits_of_logoutOp ha, hquits⟩, .cons hstep hrun⟩

theorem LogoutRun.lobby_leave (h : LogoutRun env client w c.inviteHead w') (henv : env.Reliable)
    (hserves : w.store.Serves extra client) (hc : w.store.clients.get? client = some c)
    (hin : c.loggedIn = .loggedIn) (hon : w.store.GamesOn) (hnames : w.store.NamesApart)
    (player : PlayerPtr)
    : ∃ as, (∀ a ∈ as, Quits a)
        ∧ Lobby.Run (lobbyRules env.expected) client w.store.lobby (as ++ [.logout])
          (w'.store.leave client player).lobby := by
  have hserves' := h.serves hserves
  obtain ⟨as, hquits, hrun⟩ := h.lobby henv hserves hon hnames
  refine ⟨as, hquits, hrun.append (Lobby.Step.run ?_)⟩
  rw [Store.lobby_leave]
  refine .logout ?_ fun inv m hm hpart => ?_
  . show w'.store.sessionOf client ≠ none
    rw [h.keepsSessions.sessionOf]
    exact hserves.valid.sessionOf_ne_none hc hin
  . obtain ⟨i, hi, hactive, hor⟩ := hserves'.valid.participant_of_takesPart hm hpart
    obtain ⟨hsource, htarget⟩ := h.idle hserves hc inv i hi hactive
    exact hor.elim hsource htarget

theorem Departs.lobby (h : Departs env client w w') (henv : env.Reliable)
    (hserves : w.store.Serves extra client) (hon : w.store.GamesOn) (hnames : w.store.NamesApart)
    : (w.store.sessionOf client = none ∧ w'.store.lobby = w.store.lobby)
        ∨ ∃ as, (∀ a ∈ as, Quits a)
          ∧ Lobby.Run (lobbyRules env.expected) client w.store.lobby (as ++ [.logout])
            w'.store.lobby := by
  cases h with
  | @loggedOut c i hc hout hi =>
    exact .inl ⟨by simp [Store.sessionOf, Store.isLoggedIn, hc, hout],
      Store.lobby_unregister hc hout i⟩
  | @loggedIn c w₁ player i hc hin hplayer hlogout hi =>
    obtain ⟨c₁, hc₁, -⟩ := hlogout.keepsSessions.get? hc
    have hleft : (w₁.store.leave client player).clients.get? client
        = some { c₁ with loggedIn := .loggedOut } := by simp [hc₁]
    obtain ⟨as, hquits, hrun⟩ := hlogout.lobby_leave henv hserves hc hin hon hnames player
    refine .inr ⟨as, hquits, ?_⟩
    dsimp only
    rw [Store.lobby_unregister hleft rfl]
    exact hrun

/-! ## Events as runs -/

def Event.client? : Event → Option ClientPtr
  | .connect _ => none
  | .packet client _ => some client
  | .hangUp client => some client
  | .call client _ => some client

namespace Server

/--
`σ.Does e client as`: what `client` does in the lobby when `e` happens. It does what it asks for, or
leaves, or nothing at all.
-/
inductive Does (σ : Server) (e : Event) (client : ClientPtr)
    : List (Lobby.Action CString ClientPtr InvitationPtr CString) → Prop
  | nothing : Does σ e client []
  | login {pkt : Packet} {name : CString} (he : e = .packet client pkt)
      (htype : PacketType.ofByte? pkt.hdr.type = some .login) (htext : pkt.text = some name)
      : Does σ e client [.login name]
  | asked {op : Operation} {a : Lobby.Action CString ClientPtr InvitationPtr CString}
      (hop : σ.opOf? e = some (client, op)) (ha : op.action? σ.world.store client = some a)
      : Does σ e client [a]
  | departed {as : List (Lobby.Action CString ClientPtr InvitationPtr CString)}
      (he : e = .hangUp client
        ∨ ∃ pkt, e = .packet client pkt ∧ PacketType.ofByte? pkt.hdr.type = some .no)
      (hquits : ∀ a ∈ as, Quits a) : Does σ e client (as ++ [.logout])

theorem Does.client?_eq (h : σ.Does e client as) : as = [] ∨ e.client? = some client := by
  cases h with
  | nothing => exact .inl rfl
  | login he => exact .inr (he ▸ rfl)
  | asked hop =>
    cases e with
    | packet x pkt =>
      obtain ⟨op, -, heq⟩ := Option.map_eq_some_iff.mp hop
      exact .inr (congrArg some (Prod.mk.inj heq).1)
    | call x op => exact .inr (congrArg some (Prod.mk.inj (Option.some.inj hop)).1)
    | connect fd => simp [opOf?] at hop
    | hangUp x => simp [opOf?] at hop
  | departed he =>
    rcases he with rfl | ⟨pkt, rfl, -⟩
    . exact .inr rfl
    . exact .inr rfl

theorem does_asked (henv : env.Reliable) (hok : σ.Ok) (hon : σ.world.store.GamesOn)
    (hnames : σ.world.store.NamesApart) (hconnected : σ.connections client ≠ none)
    (hop : σ.opOf? e = some (client, op)) (hcall : σ.world.store.Callable client op)
    (heffect : Effect env σ.world client op r w)
    : ∃ as, σ.Does e client as
        ∧ Lobby.Run (lobbyRules env.expected) client σ.world.store.lobby as w.store.lobby := by
  rcases heffect.lobby henv (hok.serves hconnected) hcall hon hnames with
    ⟨-, hsame⟩ | ⟨a, ha, hstep⟩
  . exact ⟨[], .nothing, hsame ▸ .nil _⟩
  . exact ⟨[a], .asked hop ha, hstep.run⟩

theorem login_step (hok : σ.Ok) (hc : σ.world.store.clients.get? client = some c)
    (hrefused : ¬ LoginRefused c (some name)) (hfree : σ.world.store.lookup name = none)
    : Lobby.Step (lobbyRules env.expected) client σ.world.store.lobby (.login name)
        ((σ.world.store.enlist name).login client (σ.world.store.playerFor name)).lobby := by
  have hv := hok.steady.valid
  rw [hv.lobby_login hc]
  refine .login ?_ (Store.sessionOf_ne_of_lookup (fun y hy => (hv.isLoggedIn_registered hy).2) hfree)
  have hout := hv.loggedOut hc hrefused
  show σ.world.store.sessionOf client = none
  simp [Store.sessionOf, Store.isLoggedIn, hc, hout]

theorem Steps.lobby (h : Steps env σ e σ') (henv : env.Reliable) (hok : σ.Ok)
    (hon : σ.world.store.GamesOn) (hnames : σ.world.store.NamesApart)
    : ∃ client as, σ.Does e client as
        ∧ Lobby.Run (lobbyRules env.expected) client σ.world.store.lobby as
          σ'.world.store.lobby := by
  have hnothing : ∀ client, ∃ as, σ.Does e client as
      ∧ Lobby.Run (lobbyRules env.expected) client σ.world.store.lobby as σ.world.store.lobby :=
    fun _ => ⟨[], .nothing, .nil _⟩
  cases h with
  | idle => exact ⟨0, hnothing 0⟩
  | connects hconnects =>
    cases hconnects with
    | refused => exact ⟨0, hnothing 0⟩
    | failed => exact ⟨0, hnothing 0⟩
    | connected =>
      dsimp only
      rw [Store.lobby_connect]
      exact ⟨0, hnothing 0⟩
  | @serves client pkt gate gate' w hgate hserved =>
    have hconnected : σ.connections client ≠ none := by simp [hgate]
    have hop : ∀ {op}, requestOp? σ.world.store client pkt = some op →
        σ.opOf? (.packet client pkt) = some (client, op) := by
      intro op hop
      simp [opOf?, hop]
    refine ⟨client, ?_⟩
    cases hserved with
    | ignored => exact hnothing client
    | shut => exact hnothing client
    | users => exact hnothing client
    | unfit => exact hnothing client
    | invited _ _ hrequest hcall heffect =>
      have hdone := does_asked henv hok hon hnames hconnected (hop hrequest) hcall heffect
      exact hdone
    | answered _ _ _ _ hrequest hcall heffect =>
      have hdone := does_asked henv hok hon hnames hconnected (hop hrequest) hcall heffect
      unfold World.answered
      split
      . exact hdone
      . exact hdone
    | loginRefused => exact hnothing client
    | loginNoRoom _ _ _ _ havail =>
      exact absurd (.inr ⟨henv.allocs _, henv.allocs _⟩) havail
    | @loginTaken c name _ _ _ _ _ htaken =>
      -- whoever is found under the name has had it enlisted
      have hknown : σ.world.store.enlist name = σ.world.store := by
        obtain ⟨y, hy⟩ := Option.ne_none_iff_exists'.mp htaken
        have hname : σ.world.store.nameOf y = some name := by simpa using List.find?_some hy
        obtain ⟨player, hplayer, hof⟩ := Option.bind_eq_some_iff.mp hname
        obtain ⟨p, hp, rfl⟩ := Option.map_eq_some_iff.mp hof
        obtain ⟨cy, hcy, hown⟩ := Option.bind_eq_some_iff.mp hplayer
        have hmem := (hok.steady.valid.client y cy hcy).known player hown
        rw [Store.enlist, hnames player hmem p hp]
      show ∃ as, _ ∧ Lobby.Run _ _ _ _ (σ.world.store.enlist name).lobby
      rw [hknown]
      exact hnothing client
    | loggedIn htype hc htext hrefused _ hfree =>
      exact ⟨[.login _], .login rfl htype htext,
        (login_step hok hc hrefused hfree).run⟩
  | @departs e client w he hconnected hdeparts =>
    refine ⟨client, ?_⟩
    rcases hdeparts.lobby henv (hok.serves hconnected) hon hnames with
      ⟨-, hsame⟩ | ⟨as, hquits, hrun⟩
    . dsimp only
      rw [hsame]
      exact hnothing client
    . exact ⟨as ++ [.logout], .departed he hquits, hrun⟩
  | @calls client op r w hconnected hcall heffect =>
    exact ⟨client, does_asked henv hok hon hnames hconnected rfl hcall heffect⟩

theorem lobby_of_reach (henv : env.Reliable) (h : Reachable env σ)
    : σ.Ok ∧ σ.world.store.GamesOn ∧ σ.world.store.NamesApart := by
  obtain ⟨hok, hon⟩ := gamesOn_of_reach henv.sends h
  exact ⟨hok, hon, (namesApart_of_reach h).2⟩

theorem initialServer_lobby (expected : Int → Rat)
    : initialServer.world.store.lobby = Lobby.empty (lobbyRules expected) := by
  refine Lobby.ext ?_ rfl ?_ ?_
  . funext name
    simp [Store.lobby, Store.playerNamed, initialServer, initialWorld, initialStore, Lobby.empty]
  . funext x
    simp [Store.lobby, Store.sessionOf, Store.isLoggedIn, initialServer, initialWorld,
      initialStore, Lobby.empty]
  . funext inv
    simp [Store.lobby, Store.pairingOf, initialServer, initialWorld, initialStore, Lobby.empty]

theorem exec_lobby (henv : env.Reliable) (h : Reachable env σ) (hexec : exec env σ e = .ok σ')
    : ∃ client as, σ.Does e client as
        ∧ Lobby.Run (lobbyRules env.expected) client σ.world.store.lobby as
          σ'.world.store.lobby := by
  obtain ⟨hok, hon, hnames⟩ := lobby_of_reach henv h
  exact (hok.steps hexec).lobby henv hok hon hnames

theorem lobby_reachable (henv : env.Reliable) (h : Reachable env σ)
    : Lobby.Reachable (lobbyRules env.expected) σ.world.store.lobby := by
  induction h with
  | refl =>
    rw [initialServer_lobby env.expected]
    exact .refl
  | step hreach _ hstep ih =>
    obtain ⟨client, as, -, hrun⟩ := exec_lobby henv hreach (exec_of_step hstep)
    exact hrun.reachable ih

/--
Where everything the server asks of the system succeeds, it is a lobby: what it has come to can have
come about in the lobby, and each event is what one client does there.
-/
theorem refines_lobby (henv : env.Reliable) (h : Reachable env σ)
    : Lobby.Reachable (lobbyRules env.expected) σ.world.store.lobby
        ∧ ∀ e σ', exec env σ e = .ok σ' →
          ∃ client as, σ.Does e client as
            ∧ Lobby.Run (lobbyRules env.expected) client σ.world.store.lobby as
              σ'.world.store.lobby :=
  ⟨lobby_reachable henv h, fun _ _ => exec_lobby henv h⟩

/--
A game is going on.
-/
theorem refines_lobby_of_accepted
    : ∃ σ, Reachable calmEnv σ ∧ (σ.world.store.pairingOf 0).any (·.position.isSome) = true
        ∧ Lobby.Reachable (lobbyRules calmEnv.expected) σ.world.store.lobby
        ∧ ∀ e σ', exec calmEnv σ e = .ok σ' →
          ∃ client as, σ.Does e client as
            ∧ Lobby.Run (lobbyRules calmEnv.expected) client σ.world.store.lobby as
              σ'.world.store.lobby := by
  obtain ⟨σ, hreach, hplaying⟩ := Machine.Reach.of_any_run (machine calmEnv) (fun _ _ => True)
    initialServer acceptedEvents
    (fun σ => (σ.world.store.pairingOf 0).any (·.position.isSome)) (by decide +kernel)
  exact ⟨σ, hreach, hplaying, refines_lobby calmEnv_reliable hreach⟩

/-! ## What nobody else can do -/

/--
An event spares whoever it does not come from: the others stay who they are, and so do their games
with each other, and the ratings of those who have no game with the client that the event comes from
and have not invited it.
-/
theorem event_spares (henv : env.Reliable) (h : Reachable env σ) (hexec : exec env σ e = .ok σ')
    : σ'.world.store.lobby = σ.world.store.lobby
        ∨ ∃ client, e.client? = some client
          ∧ σ.world.store.lobby.Spares client σ'.world.store.lobby := by
  obtain ⟨client, as, hdoes, hrun⟩ := exec_lobby henv h hexec
  rcases hdoes.client?_eq with rfl | hclient
  . exact .inl hrun.eq_of_nil
  . exact .inr ⟨client, hclient, hrun.spares (lobby_reachable henv h).sound⟩

/--
`A` resigns.
-/
theorem event_spares_of_resigned
    : ∃ σ σ', Reachable calmEnv σ
        ∧ exec calmEnv σ (.packet 0 (request .resign 0 .nullRole [] fits_nil)) = .ok σ'
        ∧ (σ'.world.store.lobby = σ.world.store.lobby
          ∨ ∃ client, (Event.packet 0 (request .resign 0 .nullRole [] fits_nil)).client?
              = some client
            ∧ σ.world.store.lobby.Spares client σ'.world.store.lobby) := by
  obtain ⟨σ, hreach, hplaying⟩ := Machine.Reach.of_any_run (machine calmEnv) (fun _ _ => True)
    initialServer acceptedEvents
    (fun σ => (exec calmEnv σ (.packet 0 (request .resign 0 .nullRole [] fits_nil))).isOk)
    (by decide +kernel)
  cases hexec : exec calmEnv σ (.packet 0 (request .resign 0 .nullRole [] fits_nil)) with
  | error f => simp [hexec, Except.isOk, Except.toBool] at hplaying
  | ok σ' => exact ⟨σ, σ', hreach, hexec, event_spares calmEnv_reliable hreach hexec⟩

end Server

def Event.LogsIn (name : CString) : Event → Prop
  | .packet _ pkt => PacketType.ofByte? pkt.hdr.type = some .login ∧ pkt.text = some name
  | _ => False

instance (name : CString) : (e : Event) → Decidable (e.LogsIn name)
  | .packet _ _ => inferInstanceAs (Decidable (_ ∧ _))
  | .connect _ => inferInstanceAs (Decidable False)
  | .hangUp _ => inferInstanceAs (Decidable False)
  | .call _ _ => inferInstanceAs (Decidable False)

namespace Server

/--
While nobody is logged in under a name, and nobody logs in, its rating stays.
-/
theorem rating_kept (henv : env.Reliable) (h : Reachable env σ)
    (hout : ∀ x, σ.world.store.sessionOf x ≠ some name)
    (hrun : (machine env).Reach (fun _ e => ¬ e.LogsIn name) σ σ')
    : σ'.world.store.ratingFor name = σ.world.store.ratingFor name := by
  have hkept : Reachable env σ' ∧ σ'.world.store.ratingFor name = σ.world.store.ratingFor name
      ∧ ∀ x, σ'.world.store.sessionOf x ≠ some name := by
    refine hrun.invariant (fun τ => Reachable env τ
      ∧ τ.world.store.ratingFor name = σ.world.store.ratingFor name
      ∧ ∀ x, τ.world.store.sessionOf x ≠ some name) ⟨h, rfl, hout⟩ ?_
    rintro τ e τ' ⟨hreach, hrating, hout⟩ hguard hstep
    obtain ⟨client, as, hdoes, hrun⟩ := exec_lobby henv hreach (exec_of_step hstep)
    have hnot : .login name ∉ as := by
      intro hmem
      cases hdoes with
      | nothing => simp at hmem
      | login he htype htext =>
        simp only [List.mem_singleton, Lobby.Action.login.injEq] at hmem
        subst hmem he
        exact hguard ⟨htype, htext⟩
      | @asked op a hop ha =>
        obtain ⟨inv, -, rfl⟩ := Option.map_eq_some_iff.mp ha
        cases op <;> simp at hmem
      | departed _ hquits =>
        rcases List.mem_append.mp hmem with hmem | hmem
        . exact hquits _ hmem
        . simp at hmem
    obtain ⟨hsame, hout'⟩ := hrun.absent hout hnot
    exact ⟨.step hreach trivial hstep, hsame.trans hrating, hout'⟩
  exact hkept.2.1

/--
`A` has resigned and left. A third client comes in, as `C`.
-/
theorem rating_kept_of_left
    : ∃ σ σ', Reachable calmEnv σ ∧ (∀ x, σ.world.store.sessionOf x ≠ some [65])
        ∧ (machine calmEnv).Reach (fun _ e => ¬ e.LogsIn [65]) σ σ'
        ∧ σ.world.store.ratingFor [65] = 1484
        ∧ σ'.world.store.ratingFor [65] = σ.world.store.ratingFor [65] := by
  obtain ⟨σ, hreach, hleft⟩ := Machine.Reach.of_any_run (machine calmEnv) (fun _ _ => True)
    initialServer (acceptedEvents ++ [.packet 0 (request .resign 0 .nullRole [] fits_nil),
      .hangUp 0])
    (fun σ => σ.world.store.clients.next = 2 ∧ σ.world.store.sessionOf 0 = none
      ∧ σ.world.store.sessionOf 1 = some [66] ∧ σ.world.store.ratingFor [65] = 1484
      ∧ ((machine calmEnv).run (fun _ e => ¬ e.LogsIn [65]) σ [.connect 6,
        .packet 2 (request .login 0 .nullRole [67] (by decide))]).isSome) (by decide +kernel)
  simp only [decide_eq_true_eq] at hleft
  obtain ⟨hnext, h0, h1, hrating, hrun⟩ := hleft
  obtain ⟨σ', hσ'⟩ := Option.isSome_iff_exists.mp hrun
  have hout : ∀ x, σ.world.store.sessionOf x ≠ some [65] := by
    intro x
    by_cases hx : x < 2
    . obtain rfl | rfl : x = 0 ∨ x = 1 :=
        Nat.le_one_iff_eq_zero_or_eq_one.mp (Nat.lt_succ_iff.mp hx)
      . simp [h0]
      . simp [h1]
    . have hnone : σ.world.store.clients.get? x = none := by
        refine Classical.byContradiction fun hne => hx ?_
        obtain ⟨c, hc⟩ := Option.ne_none_iff_exists'.mp hne
        exact hnext ▸ Heap.lt_next_of_get? hc
      simp [Store.sessionOf, Store.isLoggedIn, hnone]
  have hafter := Machine.Reach.of_run hσ'
  exact ⟨σ, σ', hreach, hout, hafter, hrating, rating_kept calmEnv_reliable hreach hout hafter⟩

/-! ## What can be done -/

theorem call_step (henv : env.Reliable) (h : Reachable env σ)
    (hconnected : σ.connections client ≠ none) (hin : σ.world.store.isLoggedIn client = true)
    (hfits : op.Fits σ.world.store client) (hgranted : op.Granted env σ.world client)
    (ha : op.action? σ.world.store client = some a)
    : ∃ σ', exec env σ (.call client op) = .ok σ'
        ∧ Lobby.Step (lobbyRules env.expected) client σ.world.store.lobby a
          σ'.world.store.lobby := by
  obtain ⟨hok, hon, hnames⟩ := lobby_of_reach henv h
  obtain ⟨σ', hexec⟩ : ∃ σ', exec env σ (.call client op) = .ok σ' :=
    calls_survive henv hok hon op
  refine ⟨σ', hexec, ?_⟩
  have hcall := hok.callable hconnected hfits
  unfold exec at hexec
  dsimp only at hexec
  rw [if_pos ⟨hconnected, hin, hfits⟩] at hexec
  split at hexec
  . next r w hrun =>
    obtain rfl := Except.ok.inj hexec
    have heffect := (hok.serves hconnected).effect hcall hrun
    rcases heffect.lobby henv (hok.serves hconnected) hcall hon hnames with
      ⟨hno, -⟩ | ⟨a', ha', hstep⟩
    . exact absurd hgranted hno
    . rw [ha, Option.some.injEq] at ha'
      exact ha' ▸ hstep
  . simp at hexec

theorem exists_id (hok : σ.Ok) {m : Lobby.Pairing ClientPtr Game}
    (hm : σ.world.store.pairingOf inv = some m) (hpart : m.TakesPart client)
    : σ.connections client ≠ none ∧ σ.world.store.isLoggedIn client = true
        ∧ ∃ id, σ.world.store.invitationOf client id = some inv := by
  have hv := hok.steady.valid
  obtain ⟨hin, hregistered⟩ := hok.steady.registered_of_takesPart hm hpart
  refine ⟨(hok.connected client).mpr hregistered, hin, ?_⟩
  obtain ⟨i, hi, hactive, hor⟩ := hv.participant_of_takesPart hm hpart
  obtain ⟨c, hc, hmem, -⟩ := hok.steady.settled.participant hv hi hactive hor
  obtain ⟨node, hnode, rfl⟩ := List.mem_map.mp hmem
  exact ⟨node.id, hv.invitationOf_node hc hnode⟩

/--
What a client can ask the server for: to be let in under a name that fits a packet, to invite
somebody under the next address there is, and everything else.
-/
def Offers (σ : Server) (client : ClientPtr)
    : Lobby.Action CString ClientPtr InvitationPtr CString → Prop
  | .login name => σ.connections client ≠ none ∧ name ≠ []
      ∧ ∃ pkt : Packet, PacketType.ofByte? pkt.hdr.type = some .login ∧ pkt.text = some name
  | .offer inv _ _ => inv = σ.world.store.invitations.next
  | _ => True

theorem available_of_named (henv : env.Reliable) (h : Reachable env σ)
    {m : Lobby.Pairing ClientPtr Game} (hm : σ.world.store.pairingOf inv = some m)
    (hpart : m.TakesPart client) (op : Int → Operation)
    (hfits : ∀ id, (op id).Fits σ.world.store client)
    (hgranted : ∀ id, σ.world.store.invitationOf client id = some inv →
      (op id).Granted env σ.world client)
    (ha : ∀ id, σ.world.store.invitationOf client id = some inv →
      (op id).action? σ.world.store client = some a)
    (hstep : Lobby.Step (lobbyRules env.expected) client σ.world.store.lobby a l)
    : ∃ e σ', exec env σ e = .ok σ' ∧ σ.Does e client [a] ∧ σ'.world.store.lobby = l := by
  obtain ⟨hok, -⟩ := lobby_of_reach henv h
  obtain ⟨hconnected, hin, id, hid⟩ := exists_id hok hm hpart
  obtain ⟨σ', hexec, hstep'⟩ := call_step henv h hconnected hin (hfits id) (hgranted id hid)
    (ha id hid)
  exact ⟨.call client (op id), σ', hexec, .asked rfl (ha id hid),
    hstep'.deterministic hstep (lobby_reachable henv h).sound⟩

theorem exists_move (hok : σ.Ok) {m : Lobby.Pairing ClientPtr Game} {seat : Lobby.Seat}
    {text : CString} {p p' : Game} {expected : Int → Rat}
    (hm : σ.world.store.pairingOf inv = some m) (hseat : m.seated seat = client)
    (hposition : m.position = some p)
    (hplay : (lobbyRules expected).play p seat text = some p')
    : ∃ i game move, ∀ id,
        σ.world.store.invitationOf client id = some inv →
        σ.world.store.Move client id text inv i game p move := by
  have hv := hok.steady.valid
  obtain ⟨i, hi, hactive, ⟨-, rfl⟩ | ⟨game, g, -, hown, hg, rfl⟩⟩ :=
    Store.active_of_pairingOf hm
  . simp [Invitation.pairing] at hposition
  . obtain rfl : g = p := Option.some.inj hposition
    have hi' := hv.invitation inv i hi
    obtain ⟨seat', hseat', hrole, -⟩ := hi'.seated_pairing
      (hi'.takesPart_pairing.mp ⟨seat, hseat⟩)
    have hdistinct : (i.pairing (some g)).first ≠ (i.pairing (some g)).second := by
      have := hi'.distinct
      unfold Invitation.pairing Invitation.first Invitation.second
      split
      . exact this
      . exact this.symm
    obtain rfl := Lobby.Pairing.seated_injective hdistinct (hseat.trans (hseat' _).symm)
    obtain ⟨move, hlegal, -⟩ := Option.map_eq_some_iff.mp hplay
    exact ⟨i, game, move, fun id hid => ⟨hid, hi, hown, hg, hrole ▸ hlegal⟩⟩

theorem login_available (henv : env.Reliable) (h : Reachable env σ)
    (hconnected : σ.connections client ≠ none) (hname : name ≠ [])
    (htype : PacketType.ofByte? pkt.hdr.type = some .login) (htext : pkt.text = some name)
    (hout : σ.world.store.sessionOf client = none)
    (hfree : ∀ y, σ.world.store.sessionOf y ≠ some name)
    : ∃ σ', exec env σ (.packet client pkt) = .ok σ'
        ∧ Lobby.Step (lobbyRules env.expected) client σ.world.store.lobby (.login name)
          σ'.world.store.lobby := by
  obtain ⟨hok, hon, -⟩ := lobby_of_reach henv h
  have hv := hok.steady.valid
  have hregistered := (hok.connected client).mp hconnected
  obtain ⟨gate, hgate⟩ := Option.ne_none_iff_exists'.mp hconnected
  obtain ⟨σ', hexec⟩ := (packet_returns_iff henv hok hon hgate).mpr fun hfatal =>
    pkt.not_fatal σ.world.store client (by simp [htype]) (by simp [htype]) hfatal.2
  refine ⟨σ', hexec, ?_⟩
  have hnoPlayer : ∀ c, σ.world.store.clients.get? client = some c → c.player = none := by
    intro c hc
    refine Classical.byContradiction fun hplayer => ?_
    exact hv.sessionOf_ne_none hc (hok.steady.session client c hregistered hc hplayer) hout
  have hlookup : σ.world.store.lookup name = none := by
    refine Classical.byContradiction fun hfound => ?_
    obtain ⟨y, hy⟩ := Option.ne_none_iff_exists'.mp hfound
    have hnameOf : σ.world.store.nameOf y = some name := by simpa using List.find?_some hy
    have hpos : 0 < σ.world.store.registered y :=
      Store.registered_pos.mpr (List.mem_of_find?_eq_some hy)
    obtain ⟨player, hplayer, -⟩ := Option.bind_eq_some_iff.mp hnameOf
    obtain ⟨cy, hcy, hof⟩ := Option.bind_eq_some_iff.mp hplayer
    have hin := hok.steady.session y cy hpos hcy (by simp [hof])
    exact hfree y (by simp [Store.sessionOf, Store.isLoggedIn, hcy, hin, hnameOf])
  simp only [exec, hgate] at hexec
  split at hexec
  . next gate' w hserve =>
    obtain rfl := Except.ok.inj hexec
    have hserved := servicePacket_served hok.steady hregistered
      (by rw [hok.sem client hconnected]; decide) hserve
    have hnot : ∀ {type : PacketType}, PacketType.ofByte? pkt.hdr.type = some type →
        ¬ type.IsRequest := by
      intro type htype' hrequest
      obtain rfl := Option.some.inj (htype.symm.trans htype')
      simp [PacketType.IsRequest] at hrequest
    cases hserved with
    | ignored hlogin => exact absurd htype hlogin
    | shut htype' hrequest => exact absurd hrequest (hnot htype')
    | users htype' => simp [htype] at htype'
    | unfit htype' hrequest =>
      obtain rfl := Option.some.inj (htype.symm.trans htype')
      simp at hrequest
    | invited htype' => simp [htype] at htype'
    | answered htype' hrequest => exact absurd hrequest (hnot htype')
    | loginRefused _ hc hrefused =>
      rcases hrefused with hplayer | hnone | hempty
      . exact absurd (hnoPlayer _ hc) hplayer
      . simp [htext] at hnone
      . rw [htext, Option.some.injEq] at hempty
        exact absurd hempty hname
    | loginNoRoom _ _ _ _ havail => exact absurd (.inr ⟨henv.allocs _, henv.allocs _⟩) havail
    | loginTaken _ _ htext' _ _ htaken =>
      obtain rfl := Option.some.inj (htext.symm.trans htext')
      exact absurd hlookup htaken
    | loggedIn _ hc htext' hrefused =>
      obtain rfl := Option.some.inj (htext.symm.trans htext')
      exact login_step hok hc hrefused hlookup
  . next gate' w hserve =>
    obtain ⟨hno, -⟩ := servicePacket_last hserve
    simp [htype] at hno
  . simp at hexec

theorem logout_available (henv : env.Reliable) (h : Reachable env σ)
    (hstep : Lobby.Step (lobbyRules env.expected) client σ.world.store.lobby .logout l)
    : ∃ σ', exec env σ (.hangUp client) = .ok σ' ∧ σ'.world.store.lobby = l := by
  obtain ⟨hok, hon, hnames⟩ := lobby_of_reach henv h
  cases id hstep with
  | logout hin hidle =>
    have hregistered := (hok.steady.valid.isLoggedIn_registered hin).2
    have hconnected := (hok.connected client).mpr hregistered
    obtain ⟨gate, hgate⟩ := Option.ne_none_iff_exists'.mp hconnected
    obtain ⟨r, w₁, w', hlogout, hclose, hdeparts⟩ :=
      departs_run env σ.connections (hok.serves hconnected)
    refine ⟨{ world := w', connections := Function.update σ.connections client none },
      by simp only [exec, hgate, hlogout, hclose], ?_⟩
    rcases hdeparts.lobby henv (hok.serves hconnected) hon hnames with ⟨hnone, -⟩ | ⟨as, hquits, hrun⟩
    . exact absurd hnone hin
    . cases as with
      | nil =>
        cases hrun with
        | cons hstep' hrest =>
          rw [← hrest.eq_of_nil] at hstep'
          exact hstep'.deterministic hstep (lobby_reachable henv h).sound
      | cons a as =>
        -- whatever it gave up it would take part in
        have hquit := hquits a List.mem_cons_self
        cases hrun with
        | cons hstep' =>
          cases hstep' with
          | withdraw hm _ hpart => exact absurd hpart (hidle _ _ hm)
          | resign hm hseat => exact absurd ⟨_, hseat⟩ (hidle _ _ hm)
          | login => exact hquit.elim
          | logout => exact hquit.elim
          | offer => exact hquit.elim
          | accept => exact hquit.elim
          | move => exact hquit.elim
          | finish => exact hquit.elim

/--
Where everything the server asks of the system succeeds, it can be made to do whatever can be done
in the lobby, and it does that and no more.
-/
theorem lobby_available (henv : env.Reliable) (h : Reachable env σ) (hoffers : σ.Offers client a)
    (hstep : Lobby.Step (lobbyRules env.expected) client σ.world.store.lobby a l)
    : ∃ e σ', exec env σ e = .ok σ' ∧ σ.Does e client [a] ∧ σ'.world.store.lobby = l := by
  obtain ⟨hok, hon, hnames⟩ := lobby_of_reach henv h
  have hv := hok.steady.valid
  have hsound := (lobby_reachable henv h).sound
  have hnamed : ∀ {id} {o : Option InvitationPtr} {f}, σ.world.store.invitationOf client id = o →
      (σ.world.store.invitationOf client id).map f
        = (o.map f : Option (Lobby.Action CString ClientPtr InvitationPtr CString)) :=
    fun h => h ▸ rfl
  cases id hstep with
  | @login name hout hfree =>
    obtain ⟨hconnected, hname, pkt, htype, htext⟩ := hoffers
    obtain ⟨σ', hexec, hstep'⟩ :=
      login_available henv h hconnected hname htype htext hout hfree
    exact ⟨.packet client pkt, σ', hexec, .login rfl htype htext,
      hstep'.deterministic hstep hsound⟩
  | logout =>
    obtain ⟨σ', hexec, hlobby⟩ := logout_available henv h hstep
    have hdoes : σ.Does (.hangUp client) client ([] ++ [.logout]) := .departed (.inl rfl) (by simp)
    exact ⟨.hangUp client, σ', hexec, hdoes, hlobby⟩
  | @offer inv guest host hin hguest hne =>
    obtain rfl : inv = σ.world.store.invitations.next := hoffers
    obtain ⟨hlogged, hregistered⟩ := hv.isLoggedIn_registered hin
    obtain ⟨hloggedGuest, hregisteredGuest⟩ := hv.isLoggedIn_registered hguest
    have hfits : (Operation.make guest (.ofSeat host) (.ofSeat host.other)).Fits σ.world.store
        client := by
      refine ⟨hne, hregisteredGuest, hloggedGuest, ?_⟩
      cases host
      . exact .inl ⟨rfl, rfl⟩
      . exact .inr ⟨rfl, rfl⟩
    have ha : (Operation.make guest (.ofSeat host) (.ofSeat host.other)).action? σ.world.store client
        = some (.offer σ.world.store.invitations.next guest host) := by cases host <;> rfl
    obtain ⟨σ', hexec, hstep'⟩ := call_step henv h ((hok.connected client).mpr hregistered) hlogged
      hfits (henv.allocs _) ha
    exact ⟨_, σ', hexec, .asked rfl ha, hstep'.deterministic hstep hsound⟩
  | @withdraw inv m hm hopen hpart =>
    obtain ⟨i, hi, hactive, ⟨hstate, -⟩ | ⟨game, g, -, -, -, rfl⟩⟩ :=
      Store.active_of_pairingOf hm
    . exact available_of_named henv h hm hpart .revoke (fun _ => trivial)
        (fun id hid => ⟨inv, i, hid, hi, hstate⟩) (fun id hid => hnamed hid) hstep
    . simp [Invitation.pairing] at hopen
  | @accept inv m hm hopen hguest =>
    obtain ⟨i, hi, hactive, ⟨hstate, rfl⟩ | ⟨game, g, -, -, -, rfl⟩⟩ :=
      Store.active_of_pairingOf hm
    . rw [(hv.invitation inv i hi).guest_pairing] at hguest
      refine available_of_named henv h hm ?_ .accept (fun _ => trivial)
        (fun id hid => ⟨inv, i, ⟨hid, hi, hstate⟩, hguest⟩) (fun id hid => hnamed hid) hstep
      exact (hv.invitation inv i hi).takesPart_pairing.mpr (.inr hguest)
    . simp [Invitation.pairing] at hopen
  | @move inv m seat p p' text hm hseat hposition hplay =>
    obtain ⟨i, game, move, hmove⟩ := exists_move hok hm hseat hposition hplay
    exact available_of_named henv h hm ⟨seat, hseat⟩ (.move · text) (fun _ => trivial)
      (fun id hid => ⟨henv.allocs _, inv, i, game, p, move, hmove id hid⟩)
      (fun id hid => hnamed hid) hstep
  | @finish inv m seat p p' text winner first second hm hseat hposition hplay =>
    obtain ⟨i, game, move, hmove⟩ := exists_move hok hm hseat hposition hplay
    exact available_of_named henv h hm ⟨seat, hseat⟩ (.move · text) (fun _ => trivial)
      (fun id hid => ⟨henv.allocs _, inv, i, game, p, move, hmove id hid⟩)
      (fun id hid => hnamed hid) hstep
  | @resign inv m seat p first second hm hseat hposition =>
    obtain ⟨i, hi, hactive, ⟨-, rfl⟩ | ⟨game, g, hstate, hown, -⟩⟩ := Store.active_of_pairingOf hm
    . simp [Invitation.pairing] at hposition
    . exact available_of_named henv h hm ⟨seat, hseat⟩ .resign (fun _ => trivial)
        (fun id hid => ⟨inv, i, game, hid, hi, hstate, hown⟩) (fun id hid => hnamed hid) hstep

/--
`B` can accept.
-/
theorem lobby_available_of_invited
    : ∃ σ l e σ', Reachable calmEnv σ ∧ σ.Offers 1 (.accept 0)
        ∧ Lobby.Step (lobbyRules calmEnv.expected) 1 σ.world.store.lobby (.accept 0) l
        ∧ exec calmEnv σ e = .ok σ' ∧ σ.Does e 1 [.accept 0] ∧ σ'.world.store.lobby = l := by
  obtain ⟨σ, hreach, hoffered⟩ := Machine.Reach.of_any_run (machine calmEnv) (fun _ _ => True)
    initialServer invitedEvents
    (fun σ => (σ.world.store.pairingOf 0).any fun m => m.position.isNone && m.guest == 1)
    (by decide +kernel)
  obtain ⟨m, hm, hmine⟩ := (Option.any_eq_true _ _).mp hoffered
  rw [Bool.and_eq_true, Option.isNone_iff_eq_none, beq_iff_eq] at hmine
  have hstep : Lobby.Step (lobbyRules calmEnv.expected) 1 σ.world.store.lobby (.accept 0)
      (σ.world.store.lobby.withPairing 0 (some { m with position := some gameCreate })) :=
    .accept hm hmine.1 hmine.2
  have hoffers : σ.Offers 1 (.accept 0) := trivial
  obtain ⟨e, σ', hexec, hdoes, hlobby⟩ := lobby_available calmEnv_reliable hreach hoffers hstep
  exact ⟨σ, _, e, σ', hreach, hoffers, hstep, hexec, hdoes, hlobby⟩

end Server

end Jeux
