import Jeux.Concurrent.HandlerSteps
import Jeux.Service.PacketIds

/-!
What holds of the server whatever the order in which its threads take their steps: the invariants of
the store, and what each thread relies on between two of its steps.
-/

namespace Jeux

open ServerM

namespace Store

variable {s s' s'' : Store} {client other : ClientPtr} {c c' : Client} {inv : InvitationPtr}

theorem drop_clients_next (s : Store) (client : ClientPtr) (inv : InvitationPtr)
    : (s.drop client inv).clients.next = s.clients.next := by
  unfold Store.drop
  split
  . split
    . simp [Store.release]
    . simp
  . rfl

theorem get?_of_unrefClient (hc' : (s.unrefClient client).clients.get? other = some c')
    : ∃ c, s.clients.get? other = some c ∧ c'.player = c.player ∧ c'.loggedIn = c.loggedIn
        ∧ c'.inviteHead = c.inviteHead := by
  have hmodify : ∀ c', (s.clients.modify client Client.dropRef).get? other = some c' →
      ∃ c, s.clients.get? other = some c ∧ c'.player = c.player ∧ c'.loggedIn = c.loggedIn
        ∧ c'.inviteHead = c.inviteHead := by
    intro c' hc'
    obtain ⟨c, hc, rfl⟩ := Heap.get?_modify_eq_some.mp hc'
    refine ⟨c, hc, ?_⟩
    split
    . exact ⟨rfl, rfl, rfl⟩
    . exact ⟨rfl, rfl, rfl⟩
  unfold Store.unrefClient at hc'
  split at hc'
  . split at hc'
    . dsimp only at hc'
      rw [Heap.get?_free] at hc'
      split at hc'
      . simp at hc'
      . exact hmodify c' hc'
    . exact hmodify c' hc'
  . exact ⟨c', hc', rfl, rfl, rfl⟩

theorem unrefClient_next (s : Store) (client : ClientPtr)
    : (s.unrefClient client).clients.next = s.clients.next := by
  unfold Store.unrefClient
  split
  . split
    . simp
    . simp
  . rfl

theorem unrefClient_registry (s : Store) (client : ClientPtr)
    : (s.unrefClient client).clientRegistry = s.clientRegistry
        ∧ (s.unrefClient client).playerRegistry = s.playerRegistry
        ∧ (s.unrefClient client).invitations = s.invitations := by
  unfold Store.unrefClient
  split
  . split
    . exact ⟨rfl, rfl, rfl⟩
    . exact ⟨rfl, rfl, rfl⟩
  . exact ⟨rfl, rfl, rfl⟩

theorem ages_unrefClient (s : Store) (client : ClientPtr) : s.Ages (s.unrefClient client) := by
  refine Ages.of_lists (by rw [(unrefClient_registry s client).2.2]) fun x c' hc' => ?_
  obtain ⟨c, hc, -, -, hlist⟩ := get?_of_unrefClient hc'
  rw [hc, Option.map_some, Option.getD_some, hlist]
  exact List.Subset.refl _

theorem unregister_registry (s : Store) (client : ClientPtr) (i : Nat)
    : (s.unregister client i).clientRegistry = (s.clientRegistry.shift i).release :=
  (unrefClient_registry _ client).1

/-! ## What a step leaves to the other threads -/

/--
`s'` comes after a step of the thread of `client`: the sessions of the other clients are what they
were, and who has had a player still has one.
-/
structure Alongside (s s' : Store) (client : ClientPtr) : Prop where
  next : s.clients.next ≤ s'.clients.next
  clients : ∀ x c', x < s.clients.next → s'.clients.get? x = some c' → ∃ c,
    s.clients.get? x = some c ∧ (c.player ≠ none → c'.player ≠ none)
      ∧ (x ≠ client → c'.player = c.player ∧ c'.loggedIn = c.loggedIn)
  players : s.playerRegistry.players ⊆ s'.playerRegistry.players
  registered : ∀ x, x ≠ client → s'.registered x = s.registered x

theorem Alongside.of_eq (hclients : s'.clients = s.clients)
    (hplayers : s.playerRegistry.players ⊆ s'.playerRegistry.players)
    (hregistry : s'.clientRegistry = s.clientRegistry) : s.Alongside s' client where
  next := by rw [hclients]
  clients := fun x c' _ hc' => ⟨c', hclients ▸ hc', id, fun _ => ⟨rfl, rfl⟩⟩
  players := hplayers
  registered := fun x _ => by rw [Store.registered, Store.registered, hregistry]

theorem Alongside.refl (s : Store) (client : ClientPtr) : s.Alongside s client :=
  .of_eq rfl (List.Subset.refl _) rfl

theorem KeepsSessions.alongside (h : s.KeepsSessions s') (hnext : s'.clients.next = s.clients.next)
    (client : ClientPtr) : s.Alongside s' client where
  next := by rw [hnext]
  clients := by
    intro x c' _ hc'
    obtain ⟨c, hc, hplayer, hin⟩ := h.get?_of_get? hc'
    exact ⟨c, hc, fun hne => hplayer ▸ hne, fun _ => ⟨hplayer, hin⟩⟩
  players := by
    rw [h.playerRegistry]
    exact List.Subset.refl _
  registered := fun x _ => h.registered x

theorem Alongside.of_client (hnext : s'.clients.next = s.clients.next)
    (hclients : ∀ x c', s'.clients.get? x = some c' → ∃ c, s.clients.get? x = some c
      ∧ (c.player ≠ none → c'.player ≠ none)
      ∧ (x ≠ client → c'.player = c.player ∧ c'.loggedIn = c.loggedIn))
    (hplayers : s'.playerRegistry = s.playerRegistry)
    (hregistry : s'.clientRegistry = s.clientRegistry) : s.Alongside s' client where
  next := by rw [hnext]
  clients := fun x c' _ hc' => hclients x c' hc'
  players := by
    rw [hplayers]
    exact List.Subset.refl _
  registered := fun x _ => by rw [Store.registered, Store.registered, hregistry]

theorem Alongside.trans (h : s.Alongside s' client) (h' : s'.Alongside s'' client)
    : s.Alongside s'' client where
  next := Nat.le_trans h.next h'.next
  clients := by
    intro x c'' hlt hc''
    obtain ⟨c', hc', hplayer', hsame'⟩ :=
      h'.clients x c'' (Nat.lt_of_lt_of_le hlt h.next) hc''
    obtain ⟨c, hc, hplayer, hsame⟩ := h.clients x c' hlt hc'
    refine ⟨c, hc, fun hne => hplayer' (hplayer hne), fun hne => ?_⟩
    exact ⟨(hsame' hne).1.trans (hsame hne).1, (hsame' hne).2.trans (hsame hne).2⟩
  players := List.Subset.trans h.players h'.players
  registered := fun x hne => (h'.registered x hne).trans (h.registered x hne)

theorem alongside_login (s : Store) (client : ClientPtr) (player : PlayerPtr)
    : s.Alongside (s.login client player) client := by
  apply Alongside.of_client
  . simp
  . intro x c' hc'
    rw [login_clients] at hc'
    obtain ⟨c, hc, rfl⟩ := Heap.get?_modify_eq_some.mp hc'
    refine ⟨c, hc, ?_, fun hne => ?_⟩
    . split
      . exact fun _ => by simp
      . exact id
    . rw [if_neg hne]
      exact ⟨rfl, rfl⟩
  . simp
  . simp

theorem alongside_leave (s : Store) (client : ClientPtr) (player : PlayerPtr)
    : s.Alongside (s.leave client player) client := by
  apply Alongside.of_client
  . simp
  . intro x c' hc'
    rw [leave_clients] at hc'
    obtain ⟨c, hc, rfl⟩ := Heap.get?_modify_eq_some.mp hc'
    refine ⟨c, hc, ?_, fun hne => ?_⟩
    . split
      . exact id
      . exact id
    . rw [if_neg hne]
      exact ⟨rfl, rfl⟩
  . simp
  . simp

theorem alongside_refClient (s : Store) (client other : ClientPtr)
    : s.Alongside (s.modifyClient other Client.addRef) client := by
  apply Alongside.of_client
  . simp
  . intro x c' hc'
    rw [modifyClient_clients] at hc'
    obtain ⟨c, hc, rfl⟩ := Heap.get?_modify_eq_some.mp hc'
    refine ⟨c, hc, ?_, fun _ => ?_⟩
    . split
      . exact id
      . exact id
    . split
      . exact ⟨rfl, rfl⟩
      . exact ⟨rfl, rfl⟩
  . rfl
  . rfl

theorem alongside_unrefClient (s : Store) (client other : ClientPtr)
    : s.Alongside (s.unrefClient other) client := by
  apply Alongside.of_client (unrefClient_next s other)
  . intro x c' hc'
    obtain ⟨c, hc, hplayer, hin, -⟩ := get?_of_unrefClient hc'
    exact ⟨c, hc, fun hne => hplayer ▸ hne, fun _ => ⟨hplayer, hin⟩⟩
  . exact (unrefClient_registry s other).2.1
  . exact (unrefClient_registry s other).1

theorem alongside_unregister (hok : s.clientRegistry.Ok) {i : Nat}
    (hi : s.clientRegistry.slotOf? client = some i)
    : s.Alongside (s.unregister client i) client where
  next := by
    rw [unregister_clients, unrefClient_next]
  clients := by
    intro x c' _ hc'
    rw [unregister_clients] at hc'
    obtain ⟨c, hc, hplayer, hin, -⟩ := get?_of_unrefClient hc'
    exact ⟨c, hc, fun hne => hplayer ▸ hne, fun _ => ⟨hplayer, hin⟩⟩
  players := by
    rw [Store.unregister, (unrefClient_registry _ client).2.1]
    exact List.Subset.refl _
  registered := by
    intro x hne
    have hlen : s.clientRegistry.length ≤ s.clientRegistry.clients.length := by
      have := hok.clients_length
      have := hok.room
      omega
    rw [registered, unregister_registry, ClientRegistry.members_release_shift hi hlen,
      List.count_erase_of_ne hne, registered]

theorem alongside_enlist (s : Store) (client : ClientPtr) (name : CString)
    : s.Alongside (s.enlist name) client := by
  unfold Store.enlist
  split
  . exact .refl s client
  . exact .of_eq rfl (List.subset_append_left _ _) rfl

theorem alongside_connect (hok : s.clientRegistry.Ok)
    (hqueue : s.clientRegistry.loginQueue ≠ 0) (fd : Int)
    : s.Alongside (s.connect fd) s.clients.next where
  next := by simp [Store.connect]
  clients := by
    intro x c' hlt hc'
    unfold Store.connect at hc'
    dsimp only at hc'
    rw [Heap.get?_push, if_neg (Nat.ne_of_lt hlt)] at hc'
    exact ⟨c', hc', id, fun _ => ⟨rfl, rfl⟩⟩
  players := List.Subset.refl _
  registered := by
    intro x hne
    rw [registered, Store.connect, hok.members_enrol hqueue, registered]
    simp [Ne.symm hne]

theorem alongside_connectFailed (hok : s.clientRegistry.Ok)
    (hqueue : s.clientRegistry.loginQueue ≠ 0) (client : ClientPtr)
    : s.Alongside s.connectFailed client where
  next := Nat.le_refl _
  clients := fun x c' _ hc' => ⟨c', hc', id, fun _ => ⟨rfl, rfl⟩⟩
  players := List.Subset.refl _
  registered := by
    intro x _
    rw [registered, Store.connectFailed, hok.members_enrol hqueue, registered]
    simp

end Store

variable {env : Env} {w w' : World} {extra : ClientPtr → Nat} {client other : ClientPtr}
  {c : Client} {op : Operation} {r : Int} {t t'' : Thread} {t' : Option Thread}
  {nodes : List InvitationNode}

theorem Effect.clients_next (h : Effect env w client op r w')
    : w'.store.clients.next = w.store.clients.next := by
  cases h with
  | made => simp [Store.invite]
  | _ =>
    simp [Store.drop_clients_next, Store.dissolve, Store.accept, World.conclude, World.moved,
      World.ended, endedOnce, endedTwice, Store.post_clients]

theorem Effect.alongside (h : Effect env w client op r w')
    : w.store.Alongside w'.store client := h.keepsSessions.alongside h.clients_next client

theorem LogoutRun.clients_next (h : LogoutRun env client w nodes w')
    : w'.store.clients.next = w.store.clients.next := by
  induction h with
  | nil => rfl
  | cons _ _ _ heffect _ ih => rw [ih, heffect.clients_next]

theorem LogsOut.alongside (h : LogsOut env client w w')
    : w.store.Alongside w'.store client := by
  cases h with
  | out => exact .refl _ _
  | left _ _ _ hrun =>
    exact (hrun.keepsSessions.alongside hrun.clients_next client).trans
      (Store.alongside_leave _ _ _)

theorem LogsOut.valid (h : LogsOut env client w w') (hv : w.store.Valid extra)
    (hl : w.store.Linked) : w'.store.Valid extra ∧ w'.store.Linked := by
  cases h with
  | out => exact ⟨hv, hl⟩
  | left hc hin hplayer hrun =>
    have hholds := hrun.holds ⟨hv, hl, (hv.client client _ hc).held hin⟩
    obtain ⟨c₁, hc₁, hplayer₁, hin₁⟩ := hrun.keepsSessions.get? hc
    constructor
    . exact hholds.valid.leave hc₁ (hin₁.trans hin) (hplayer₁.trans hplayer)
    . exact hholds.linked.leave _ _

theorem Stepped.alongside (h : Stepped env client w t t' w') (hv : w.store.Valid extra)
    : w.store.Alongside w'.store client := by
  cases h with
  | refused | taken | listed | unfound | uninvited | acknowledged | waits | nacked | acked =>
    exact .refl _ _
  | noRoom hstore =>
    rcases hstore with h | ⟨p, h⟩
    . rw [h]
      exact .refl _ _
    . rw [h]
      exact .of_eq rfl (List.Subset.refl _) rfl
  | enlisted => exact Store.alongside_enlist ..
  | entered => exact Store.alongside_login ..
  | found => exact Store.alongside_refClient ..
  | unreffed => exact Store.alongside_unrefClient ..
  | invited _ _ heffect => exact heffect.alongside
  | operated _ heffect => exact heffect.alongside
  | loggedOut hlogout => exact hlogout.alongside
  | unregistered hi => exact Store.alongside_unregister hv.registry hi

theorem Phase.Ok.mono {phase : Phase} {s s' : Store} (h : phase.Ok s other)
    (hstep : s.Alongside s' client) (hne : other ≠ client) (hlt : other < s.clients.next)
    : phase.Ok s' other := by
  cases phase with
  | logIn player =>
    refine ⟨fun c' hc' => ?_, hstep.players h.2⟩
    obtain ⟨c, hc, -, hsame⟩ := hstep.clients other c' hlt hc'
    rw [(hsame hne).1]
    exact h.1 c hc
  | unref invitee _ | invite invitee _ =>
    refine ⟨Nat.lt_of_lt_of_le h.1 hstep.next, fun c' hc' => ?_⟩
    obtain ⟨c, hc, hplayer, -⟩ := hstep.clients invitee c' h.1 hc'
    exact hplayer (h.2 c hc)
  | operation op => exact h
  | unregister =>
    intro c' hc'
    obtain ⟨c, hc, -, hsame⟩ := hstep.clients other c' hlt hc'
    rw [(hsame hne).2]
    exact h c hc
  | _ => trivial

theorem Stepped.ok (h : Stepped env client w t t' w') (hv : w.store.Valid extra)
    (hok : t.phase.Ok w.store client)
    : ∀ t'' ∈ t', t''.phase.Ok w'.store client := by
  intro t'' ht
  cases h with
  | @enlisted gate name c n hc hplayer =>
    obtain rfl := Option.some.inj ht
    have hclients : (w.store.enlist name).clients = w.store.clients := by
      unfold Store.enlist
      split <;> rfl
    refine ⟨fun c hc' => ?_, Store.Valid.playerFor_mem name⟩
    dsimp only at hc'
    rw [hclients, hc] at hc'
    rw [← Option.some.inj hc', hplayer]
  | @found gate user hdr invitee hlookup =>
    obtain rfl := Option.some.inj ht
    obtain ⟨-, ci, hci, hplayer⟩ := hv.lookup_eq_some hlookup
    refine ⟨?_, fun c hc => ?_⟩
    . simp [Heap.lt_next_of_get? hci]
    . dsimp only at hc
      rw [Store.modifyClient_clients, Heap.get?_modify_self, hci] at hc
      rw [← Option.some.inj hc]
      exact hplayer
  | unreffed =>
    obtain rfl := Option.some.inj ht
    obtain ⟨hlt, hplayer⟩ := hok
    refine ⟨?_, fun c' hc' => ?_⟩
    . rw [Store.unrefClient_next]
      exact hlt
    . obtain ⟨c, hc, heq, -⟩ := Store.get?_of_unrefClient hc'
      exact heq ▸ hplayer c hc
  | loggedOut hlogout =>
    obtain rfl := Option.some.inj ht
    obtain ⟨c, hc, hout⟩ := hlogout.loggedOut
    intro c' hc'
    obtain rfl := Option.some.inj (hc.symm.trans hc')
    exact hout
  | unregistered => simp at ht
  | _ =>
    obtain rfl := Option.some.inj ht
    trivial

/-! ## The invariant -/

def refsOf (held : List (ClientPtr × ClientPtr)) (client : ClientPtr) : Nat :=
  (held.map (·.2)).count client

theorem refsOf_cons (held : List (ClientPtr × ClientPtr)) (holder client x : ClientPtr)
    : refsOf ((holder, client) :: held) x = refsOf held x + if x = client then 1 else 0 := by
  unfold refsOf
  rw [List.map_cons, List.count_cons]
  by_cases heq : x = client
  . simp [heq]
  . simp [heq, Ne.symm heq]

theorem refsOf_erase {held : List (ClientPtr × ClientPtr)} {holder client : ClientPtr}
    (hmem : (holder, client) ∈ held) (x : ClientPtr)
    : refsOf (held.erase (holder, client)) x + (if x = client then 1 else 0) = refsOf held x := by
  rw [← refsOf_cons]
  exact ((List.perm_cons_erase hmem).map _).count_eq x |>.symm

/--
The server between two steps. The threads that have looked a client up hold a reference to it until
they give it back; each has its client registered, and nobody is logged in who is not registered.
-/
structure Interleaved.Sound (σ : Interleaved) : Prop where
  valid : ∃ held, σ.world.store.Valid (refsOf held) ∧ ∀ client t invitee hdr,
    σ.threads client = some t → t.phase = .unref invitee hdr → (client, invitee) ∈ held
  linked : σ.world.store.Linked
  registered : ∀ client t, σ.threads client = some t → 0 < σ.world.store.registered client
  phases : ∀ client t, σ.threads client = some t → t.phase.Ok σ.world.store client
  session : ∀ client c, σ.world.store.clients.get? client = some c → c.loggedIn = .loggedIn →
    0 < σ.world.store.registered client

theorem Effect.make_allowed {invitee : ClientPtr} {hdr : PacketHeader}
    {sourceRole targetRole : GameRole}
    (h : Effect env w client (.make invitee sourceRole targetRole) r w')
    (hregistered : 0 < w.store.registered client) (hne : client ≠ invitee)
    (hroles : inviteRoles? hdr = some (sourceRole, targetRole))
    (hok : ∀ c, w.store.clients.get? invitee = some c → c.player ≠ none)
    : w'.store = w.store
        ∨ w.store.Allowed extra client (.make invitee sourceRole targetRole) := by
  cases h with
  | refused => exact .inl rfl
  | made _ _ _ hct =>
    refine .inr ⟨by omega, fun target sourceRole' targetRole' heq => ?_⟩
    obtain ⟨rfl, rfl, rfl⟩ := Operation.make.inj heq
    exact ⟨Ne.symm hne, ⟨_, hct, hok _ hct⟩, inviteRoles?_opposite hroles⟩

theorem Stepped.valid (h : Stepped env client w t t' w') {held : List (ClientPtr × ClientPtr)}
    (hv : w.store.Valid (refsOf held)) (hl : w.store.Linked)
    (hregistered : 0 < w.store.registered client) (hok : t.phase.Ok w.store client)
    (hheld : ∀ invitee hdr, t.phase = .unref invitee hdr → (client, invitee) ∈ held)
    (hsession : ∀ x c, w.store.clients.get? x = some c → c.loggedIn = .loggedIn →
      0 < w.store.registered x)
    : ∃ held', w'.store.Valid (refsOf held')
        ∧ (∀ other invitee, other ≠ client → (other, invitee) ∈ held → (other, invitee) ∈ held')
        ∧ ∀ t'' ∈ t', ∀ invitee hdr, t''.phase = .unref invitee hdr → (client, invitee) ∈ held' := by
  have hkeep : w'.store.Valid (refsOf held) → (∀ t'' ∈ t', ∀ invitee hdr,
      t''.phase ≠ .unref invitee hdr) → ∃ held', w'.store.Valid (refsOf held')
        ∧ (∀ other invitee, other ≠ client → (other, invitee) ∈ held → (other, invitee) ∈ held')
        ∧ ∀ t'' ∈ t', ∀ invitee hdr, t''.phase = .unref invitee hdr → (client, invitee) ∈ held' :=
    fun hv' hno => ⟨held, hv', fun _ _ _ hmem => hmem,
      fun t'' ht invitee hdr hphase => absurd hphase (hno t'' ht invitee hdr)⟩
  cases h with
  | refused | taken | listed | unfound | uninvited | acknowledged | waits | nacked | acked =>
    exact hkeep hv (by simp)
  | noRoom hstore =>
    apply hkeep _ (by simp)
    rcases hstore with h | ⟨p, h⟩
    . rw [h]
      exact hv
    . rw [h]
      exact hv.pushPlayer p
  | enlisted => exact hkeep (hv.enlist _) (by simp)
  | entered _ hc hout hplayer => exact hkeep (hv.login hc hout (by omega) hplayer) (by simp)
  | @found gate user hdr invitee hlookup =>
    obtain ⟨-, ci, hci, -⟩ := hv.lookup_eq_some hlookup
    refine ⟨(client, invitee) :: held, ?_, fun other x _ hmem => List.mem_cons_of_mem _ hmem, ?_⟩
    . exact hv.refClient hci fun x => refsOf_cons held client invitee x
    . intro t'' ht x hdr' hphase
      obtain rfl := Option.some.inj ht
      obtain ⟨rfl, -⟩ := Phase.unref.inj hphase
      exact List.mem_cons_self ..
  | @unreffed gate invitee hdr =>
    have hmem := hheld invitee hdr rfl
    have hrefs := refsOf_erase hmem
    obtain ⟨ci, hci⟩ := hv.held_live invitee (by have := hrefs invitee; simp at this; omega)
    refine ⟨held.erase (client, invitee), ?_, ?_, by simp⟩
    . apply hv.unrefClient hci hv.registry
      . intro x
        have := hrefs x
        unfold Store.registered
        omega
      . intro hin
        exact Nat.lt_of_lt_of_le (hsession invitee ci hci hin) (Nat.le_add_right _ _)
    . intro other x hne hmem'
      exact (List.mem_erase_of_ne (by simp [hne])).mpr hmem'
  | invited hne hroles heffect =>
    apply hkeep _ (by simp)
    rcases heffect.make_allowed hregistered hne hroles hok.2 with h | hallowed
    . rw [h]
      exact hv
    . exact heffect.valid hv hl hallowed
  | operated _ heffect =>
    have hholds : w.store.Holds (refsOf held) client := ⟨hv, hl, by omega⟩
    exact hkeep (heffect.holds hholds (hholds.allowed hok)).valid (by simp)
  | loggedOut hlogout => exact hkeep (hlogout.valid hv hl).1 (by simp)
  | unregistered hi hc hout => exact hkeep (hv.unregister hi hc hout) (by simp)

theorem Stepped.linked (h : Stepped env client w t t' w') {held : List (ClientPtr × ClientPtr)}
    (hv : w.store.Valid (refsOf held)) (hl : w.store.Linked)
    (hregistered : 0 < w.store.registered client) (hok : t.phase.Ok w.store client)
    (hheld : ∀ invitee hdr, t.phase = .unref invitee hdr → (client, invitee) ∈ held)
    : w'.store.Linked := by
  cases h with
  | refused | taken | listed | unfound | uninvited | acknowledged | waits | nacked | acked =>
    exact hl
  | noRoom hstore =>
    rcases hstore with h | ⟨p, h⟩
    . rw [h]
      exact hl
    . rw [h]
      exact hl.congr (fun _ _ => rfl) rfl
  | enlisted =>
    unfold Store.enlist
    split
    . exact hl
    . exact hl.congr (fun _ _ => rfl) rfl
  | entered => exact hl.login _ _
  | found => exact hl.modifyClient _ fun _ => rfl
  | @unreffed gate invitee hdr =>
    have hrefs := refsOf_erase (hheld invitee hdr rfl) invitee
    rw [if_pos rfl] at hrefs
    exact hl.unrefClient hv (by omega)
  | invited hne hroles heffect =>
    rcases heffect.make_allowed hregistered hne hroles hok.2 with h | hallowed
    . rw [h]
      exact hl
    . exact heffect.linked hv hl hallowed
  | operated _ heffect =>
    have hholds : w.store.Holds (refsOf held) client := ⟨hv, hl, by omega⟩
    exact (heffect.holds hholds (hholds.allowed hok)).linked
  | loggedOut hlogout => exact (hlogout.valid hv hl).2
  | unregistered => exact hl.unregister hv (by omega)

theorem Stepped.clients_next (h : Stepped env client w t t' w')
    : w'.store.clients.next = w.store.clients.next := by
  cases h with
  | refused | taken | listed | unfound | uninvited | acknowledged | waits | nacked | acked => rfl
  | noRoom hstore =>
    rcases hstore with h | ⟨p, h⟩
    . rw [h]
    . rw [h]
  | enlisted =>
    dsimp only
    unfold Store.enlist
    split <;> rfl
  | entered => simp
  | found => simp
  | unreffed => exact Store.unrefClient_next ..
  | invited _ _ heffect => exact heffect.clients_next
  | operated _ heffect => exact heffect.clients_next
  | loggedOut hlogout =>
    cases hlogout with
    | out => rfl
    | left _ _ _ hrun => simp [hrun.clients_next]
  | unregistered =>
    dsimp only
    rw [Store.unregister_clients]
    exact Store.unrefClient_next _ _

theorem Stepped.registered (h : Stepped env client w t (some t'') w') (x : ClientPtr)
    : w'.store.registered x = w.store.registered x := by
  have hof : w'.store.clientRegistry = w.store.clientRegistry →
      w'.store.registered x = w.store.registered x := by
    intro heq
    rw [Store.registered, heq, Store.registered]
  cases h with
  | refused | taken | listed | unfound | uninvited | acknowledged | waits | nacked | acked => rfl
  | noRoom hstore =>
    apply hof
    rcases hstore with h | ⟨p, h⟩
    . rw [h]
    . rw [h]
  | enlisted =>
    apply hof
    dsimp only
    unfold Store.enlist
    split <;> rfl
  | entered => exact hof (by simp)
  | found => rfl
  | unreffed => exact hof (Store.unrefClient_registry _ _).1
  | invited _ _ heffect => exact heffect.keepsSessions.registered x
  | operated _ heffect => exact heffect.keepsSessions.registered x
  | loggedOut hlogout => exact hof hlogout.clientRegistry

theorem Stepped.session (h : Stepped env client w t t' w') (hv : w.store.Valid extra)
    (hregistered : 0 < w.store.registered client)
    (hsession : ∀ x c, w.store.clients.get? x = some c → c.loggedIn = .loggedIn →
      0 < w.store.registered x)
    : ∀ x c, w'.store.clients.get? x = some c → c.loggedIn = .loggedIn →
        0 < w'.store.registered x := by
  have halong := h.alongside hv
  intro x c' hc' hin
  by_cases hne : x = client
  . subst hne
    cases t' with
    | some t'' =>
      rw [h.registered x]
      exact hregistered
    | none =>
      cases h with
      | unregistered _ hc hout =>
        dsimp only at hc'
        rw [Store.unregister_clients] at hc'
        obtain ⟨c, hc₁, -, hin₁, -⟩ := Store.get?_of_unrefClient hc'
        obtain rfl := Option.some.inj (hc.symm.trans hc₁)
        rw [hin₁, hout] at hin
        cases hin
  . have hlt : x < w.store.clients.next := by
      rw [← h.clients_next]
      exact Heap.lt_next_of_get? hc'
    obtain ⟨c, hc, -, hsame⟩ := halong.clients x c' hlt hc'
    rw [halong.registered x hne]
    exact hsession x c hc ((hsame hne).2 ▸ hin)

def Phase.Early : Phase → Prop
  | .login _ | .users | .lookup _ _ | .respond _ | .logout => True
  | .operation op => ∀ target sourceRole targetRole, op ≠ .make target sourceRole targetRole
  | _ => False

theorem Phase.Early.ok {phase : Phase} (h : phase.Early) (s : Store) (client : ClientPtr)
    : phase.Ok s client := by
  cases phase with
  | operation op => exact h
  | logIn | unref | invite | unregister => exact h.elim
  | _ => trivial

theorem Phase.Early.ne_unref {phase : Phase} (h : phase.Early) (invitee : ClientPtr)
    (hdr : PacketHeader) : phase ≠ .unref invitee hdr := by
  rintro rfl
  exact h

theorem Phase.early_request {type : PacketType} {pkt : Packet} {phase : Phase}
    (h : Phase.request? type pkt = some phase) : phase.Early := by
  unfold Phase.request? at h
  split at h
  . obtain rfl := Option.some.inj h
    trivial
  . split at h
    . obtain rfl := Option.some.inj h
      trivial
    . obtain rfl := Option.some.inj h
      trivial
  . obtain rfl := Option.some.inj h
    simp [Phase.Early]
  . obtain rfl := Option.some.inj h
    simp [Phase.Early]
  . obtain rfl := Option.some.inj h
    simp [Phase.Early]
  . split at h
    . obtain rfl := Option.some.inj h
      trivial
    . obtain rfl := Option.some.inj h
      simp [Phase.Early]
  . obtain rfl := Option.some.inj h
    simp [Phase.Early]
  . simp at h

theorem Phase.early_received (gate : Int) (pkt : Packet) : (Phase.received gate pkt).Early := by
  unfold Phase.received
  split
  . trivial
  . trivial
  . split
    . next phase hphase =>
      split
      . trivial
      . exact Phase.early_request hphase
    . trivial
  . trivial

namespace Interleaved

variable {σ σ' : Interleaved} {e : HandlerEvent}

theorem Sound.live (h : σ.Sound) (ht : σ.threads client = some t)
    : ∃ c, σ.world.store.clients.get? client = some c := by
  obtain ⟨held, hv, -⟩ := h.valid
  have := h.registered client t ht
  exact hv.held_live client (by omega)

/--
A client that a thread has looked up and not given back yet has not gone, and giving it back does not
free it as long as it is logged in.
-/
theorem Sound.looked_up (h : σ.Sound) (ht : σ.threads client = some t) {invitee : ClientPtr}
    {hdr : PacketHeader} (hphase : t.phase = .unref invitee hdr)
    : ∃ c, σ.world.store.clients.get? invitee = some c ∧ (c.refCount = 1 → c.loggedIn = .loggedOut) := by
  obtain ⟨held, hv, hheld⟩ := h.valid
  have hrefs := refsOf_erase (hheld client t invitee hdr ht hphase) invitee
  rw [if_pos rfl] at hrefs
  obtain ⟨ci, hci⟩ := hv.held_live invitee (by omega)
  refine ⟨ci, hci, fun hone => ?_⟩
  cases hin : ci.loggedIn with
  | loggedOut => rfl
  | loggedIn =>
    -- the registry has a reference, and this thread has another
    have := h.session invitee ci hci hin
    have := (hv.client invitee ci hci).refCount
    omega

theorem Sound.stepped (h : σ.Sound) (ht : σ.threads client = some t)
    (hrun : (t.step client).run env σ.world = .ok (t', w')) : Stepped env client σ.world t t' w' := by
  obtain ⟨held, hv, -⟩ := h.valid
  exact Thread.stepped hv h.linked (h.registered client t ht) (h.phases client t ht)
    (fun _ _ => h.looked_up ht) hrun

theorem Sound.after (h : σ.Sound) (ht : σ.threads client = some t)
    (hstep : Stepped env client σ.world t t' w') (history : List Entry)
    : Sound ⟨w', Function.update σ.threads client t', history⟩ := by
  obtain ⟨held, hv, hheld⟩ := h.valid
  have hregistered := h.registered client t ht
  have hok := h.phases client t ht
  have hmine := fun invitee hdr => hheld client t invitee hdr ht
  have halong := hstep.alongside hv
  have hlive : ∀ other t, σ.threads other = some t → other < σ.world.store.clients.next := by
    intro other t ht
    obtain ⟨c, hc⟩ := h.live ht
    exact Heap.lt_next_of_get? hc
  obtain ⟨held', hv', hothers, hself⟩ := hstep.valid hv h.linked hregistered hok hmine h.session
  constructor
  . refine ⟨held', hv', fun other t₁ invitee hdr ht₁ hphase => ?_⟩
    dsimp only at ht₁
    by_cases heq : other = client
    . subst heq
      rw [Function.update_self] at ht₁
      exact hself t₁ ht₁ invitee hdr hphase
    . rw [Function.update_of_ne heq] at ht₁
      exact hothers other invitee heq (hheld other t₁ invitee hdr ht₁ hphase)
  . exact hstep.linked hv h.linked hregistered hok hmine
  . intro other t₁ ht₁
    dsimp only at ht₁ ⊢
    by_cases heq : other = client
    . subst heq
      rw [Function.update_self] at ht₁
      subst ht₁
      rw [hstep.registered]
      exact hregistered
    . rw [Function.update_of_ne heq] at ht₁
      rw [halong.registered other heq]
      exact h.registered other t₁ ht₁
  . intro other t₁ ht₁
    dsimp only at ht₁ ⊢
    by_cases heq : other = client
    . subst heq
      rw [Function.update_self] at ht₁
      exact hstep.ok hv hok t₁ ht₁
    . rw [Function.update_of_ne heq] at ht₁
      exact (h.phases other t₁ ht₁).mono halong heq (hlive other t₁ ht₁)
  . exact hstep.session hv hregistered h.session

theorem goto_threads {t₁ : Thread} (h : (σ.goto client t).threads other = some t₁)
    : (other = client ∧ t₁ = t) ∨ σ.threads other = some t₁ := by
  dsimp only [Interleaved.goto] at h
  rw [Function.update_apply] at h
  split at h
  . next heq => exact .inl ⟨heq, (Option.some.inj h).symm⟩
  . exact .inr h

theorem Sound.goto (h : σ.Sound) (hregistered : 0 < σ.world.store.registered client)
    (hok : t.phase.Ok σ.world.store client) (hno : ∀ invitee hdr, t.phase ≠ .unref invitee hdr)
    : (σ.goto client t).Sound := by
  obtain ⟨held, hv, hheld⟩ := h.valid
  constructor
  . refine ⟨held, hv, fun other t₁ invitee hdr ht₁ hphase => ?_⟩
    rcases goto_threads ht₁ with ⟨-, rfl⟩ | ht₁
    . exact absurd hphase (hno invitee hdr)
    . exact hheld other t₁ invitee hdr ht₁ hphase
  . exact h.linked
  . intro other t₁ ht₁
    rcases goto_threads ht₁ with ⟨rfl, -⟩ | ht₁
    . exact hregistered
    . exact h.registered other t₁ ht₁
  . intro other t₁ ht₁
    rcases goto_threads ht₁ with ⟨rfl, rfl⟩ | ht₁
    . exact hok
    . exact h.phases other t₁ ht₁
  . exact h.session

theorem Sound.connected (h : σ.Sound) {fd : Int} {o : Option ClientPtr}
    (hconnects : Connects fd σ.world o w')
    : Sound { σ with world := w' }
        ∧ ∀ client ∈ o, (Interleaved.goto { σ with world := w' } client ⟨0, .respond []⟩).Sound := by
  obtain ⟨held, hv, hheld⟩ := h.valid
  have hlive : ∀ other t, σ.threads other = some t → other < σ.world.store.clients.next := by
    intro other t ht
    obtain ⟨c, hc⟩ := h.live ht
    exact Heap.lt_next_of_get? hc
  have hkeep : w'.store.Valid (refsOf held) → w'.store.Linked →
      σ.world.store.Alongside w'.store σ.world.store.clients.next →
      (∀ x c, w'.store.clients.get? x = some c →
        c.loggedIn = .loggedOut ∨ x < σ.world.store.clients.next) →
      Sound { σ with world := w' } := by
    intro hv' hl' halong hold
    have hne : ∀ other t, σ.threads other = some t → other ≠ σ.world.store.clients.next :=
      fun other t ht => Nat.ne_of_lt (hlive other t ht)
    refine ⟨⟨held, hv', hheld⟩, hl', fun other t ht => ?_, fun other t ht => ?_, ?_⟩
    . dsimp only
      rw [halong.registered other (hne other t ht)]
      exact h.registered other t ht
    . exact (h.phases other t ht).mono halong (hne other t ht) (hlive other t ht)
    . intro x c' hc' hin
      rcases hold x c' hc' with hout | hlt
      . rw [hout] at hin
        cases hin
      . have hne := Nat.ne_of_lt hlt
        obtain ⟨c, hc, -, hsame⟩ := halong.clients x c' hlt hc'
        dsimp only
        rw [halong.registered x hne]
        exact h.session x c hc ((hsame hne).2 ▸ hin)
  cases hconnects with
  | refused => exact ⟨h, by simp⟩
  | failed n hqueue =>
    refine ⟨hkeep (hv.connectFailed hqueue) (h.linked.congr (fun _ _ => rfl) rfl) ?_ ?_, by simp⟩
    . exact Store.alongside_connectFailed hv.registry hqueue _
    . exact fun x c hc => .inr (Heap.lt_next_of_get? hc)
  | connected n hqueue =>
    have hsound : Sound { σ with
        world := { store := σ.world.store.connect fd, trace := { σ.world.trace with allocs := n } } } := by
      apply hkeep (hv.connect hqueue fd) (h.linked.connect hv fd)
      . exact Store.alongside_connect hv.registry hqueue fd
      . intro x c hc
        unfold Store.connect at hc
        dsimp only at hc
        rw [Heap.get?_push] at hc
        split at hc
        . rw [← Option.some.inj hc]
          exact .inl rfl
        . exact .inr (Heap.lt_next_of_get? hc)
    refine ⟨hsound, fun client hclient => ?_⟩
    obtain rfl := Option.some.inj hclient
    apply Sound.goto hsound
    . rw [Store.registered, Store.connect, hv.registry.members_enrol hqueue]
      simp
    . trivial
    . simp

/-! ## Every step -/

/--
`Steps env σ e σ'`: the event `e` can take `σ` to `σ'`.
-/
inductive Steps (env : Env) (σ : Interleaved) : HandlerEvent → Interleaved → Prop
  | nothing (e : HandlerEvent) : Steps env σ e σ
  | turnedAway {fd : Int} {w' : World} (hconnects : Connects fd σ.world none w')
      : Steps env σ (.connect fd) { σ with world := w' }
  | connected {fd : Int} {client : ClientPtr} {w' : World}
      (hconnects : Connects fd σ.world (some client) w')
      : Steps env σ (.connect fd) (goto { σ with world := w' } client ⟨0, .respond []⟩)
  | received {client : ClientPtr} {gate : Int} {pkt : Packet}
      (ht : σ.threads client = some ⟨gate, .respond []⟩)
      : Steps env σ (.packet client pkt) (σ.goto client ⟨gate, .received gate pkt⟩)
  | hungUp {client : ClientPtr} {gate : Int} (ht : σ.threads client = some ⟨gate, .respond []⟩)
      : Steps env σ (.hangUp client) (σ.goto client ⟨gate, .logout⟩)
  | went {client : ClientPtr} {t : Thread} {t' : Option Thread} {w' : World}
      (ht : σ.threads client = some t) (hrun : (t.step client).run env σ.world = .ok (t', w'))
      (hstep : Stepped env client σ.world t t' w')
      : Steps env σ (.go client) {
          world := w'
          threads := Function.update σ.threads client t'
          history := σ.history ++ t.phase.entries env client σ.world w' }

theorem Sound.steps (h : σ.Sound) (hstep : (machine env).step σ e = some σ') : Steps env σ e σ' := by
  have hexec : exec env σ e = .ok σ' := Except.eq_ok_of_toOption hstep
  cases e with
  | connect fd =>
    obtain ⟨held, hv, -⟩ := h.valid
    obtain ⟨o, w', hrun, hconnects⟩ := cregRegister_run env hv.registry fd
    rw [exec, hrun] at hexec
    cases o with
    | none =>
      obtain rfl := Except.ok.inj hexec
      exact .turnedAway hconnects
    | some client =>
      obtain rfl := Except.ok.inj hexec
      exact .connected hconnects
  | packet client pkt =>
    rw [exec] at hexec
    split at hexec
    . next gate ht =>
      obtain rfl := Except.ok.inj hexec
      exact .received ht
    . obtain rfl := Except.ok.inj hexec
      exact .nothing _
  | hangUp client =>
    rw [exec] at hexec
    split at hexec
    . next gate ht =>
      obtain rfl := Except.ok.inj hexec
      exact .hungUp ht
    . obtain rfl := Except.ok.inj hexec
      exact .nothing _
  | go client =>
    rw [exec] at hexec
    split at hexec
    . next t ht =>
      unfold go at hexec
      split at hexec
      . next t' w' hrun =>
        obtain rfl := Except.ok.inj hexec
        exact .went ht hrun (h.stepped ht hrun)
      . simp at hexec
    . obtain rfl := Except.ok.inj hexec
      exact .nothing _

theorem Steps.sound (hstep : Steps env σ e σ') (h : σ.Sound) : σ'.Sound := by
  cases hstep with
  | nothing => exact h
  | turnedAway hconnects => exact (h.connected hconnects).1
  | connected hconnects => exact (h.connected hconnects).2 _ rfl
  | @received client gate pkt ht =>
    have hearly := Phase.early_received gate pkt
    exact h.goto (h.registered client _ ht) (hearly.ok _ _) hearly.ne_unref
  | hungUp ht => exact h.goto (h.registered _ _ ht) trivial (by simp)
  | went ht _ hstep => exact h.after ht hstep _

theorem sound_initial : initial.Sound where
  valid := by
    refine ⟨[], ?_, by simp [initial]⟩
    exact Server.initial_ok.steady.valid
  linked := Server.initial_ok.steady.settled.linked
  registered := by simp [initial]
  phases := by simp [initial]
  session := by simp [initial, initialWorld, initialStore]

end Interleaved

end Jeux
