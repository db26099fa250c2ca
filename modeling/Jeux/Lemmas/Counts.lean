import Mathlib.Algebra.BigOperators.Group.Finset.Basic
import Jeux.Lemmas.Login
import Jeux.Lemmas.Unregister

/-!
Reference counts as numbers of references: what the counts are between two calls, and that the
calls keep it so.
-/

namespace Jeux

namespace Store

/-! ## References -/

def invitationRefs (s : Store) (inv : InvitationPtr) : Nat :=
  ∑ client ∈ Finset.range s.clients.next, s.listed client inv

/--
One reference if the client is registered, one from each invitation that it is the source of, and
one from each that it is the target of.
-/
def clientRefs (s : Store) (client : ClientPtr) : Nat :=
  (if client ∈ s.clientRegistry.members then 1 else 0)
    + s.invitations.countP (fun i => i.source = client)
    + s.invitations.countP (fun i => i.target = client)

def playerRefs (s : Store) (player : PlayerPtr) : Nat :=
  (if player ∈ s.playerRegistry.players then 1 else 0) + s.sessions player

def gameRefs (s : Store) (game : GamePtr) : Nat :=
  s.invitations.countP fun i => i.game = some game

/--
Every count is the number of references, and an object is alive exactly as long as there are any.
-/
structure Exact (s : Store) : Prop where
  invitation : ∀ inv i, s.invitations.get? inv = some i → i.refCount = s.invitationRefs inv
  client : ∀ client c, s.clients.get? client = some c → c.refCount = s.clientRefs client
  player : ∀ player p, s.players.get? player = some p →
    player ∈ s.playerRegistry.players ∧ p.refCount = s.playerRefs player
  game : ∀ game g, s.games.get? game = some g → g.refCount = 1 ∧ s.gameRefs game = 1
  invitation_live : ∀ inv, (∃ i, s.invitations.get? inv = some i) ↔ 0 < s.invitationRefs inv
  client_live : ∀ client, (∃ c, s.clients.get? client = some c) ↔ 0 < s.clientRefs client
  player_live : ∀ player, (∃ p, s.players.get? player = some p) ↔ 0 < s.playerRefs player
  game_live : ∀ game, (∃ g, s.games.get? game = some g) ↔ 0 < s.gameRefs game

structure Accounted (s : Store) : Prop where
  valid : s.Valid fun _ => 0
  linked : s.Linked
  counted : s.Counted
  known : ∀ player p, s.players.get? player = some p → player ∈ s.playerRegistry.players
  sem : ∀ client c, s.clients.get? client = some c → s.loginSem ≠ 0

variable {s s' : Store} {client : ClientPtr} {c : Client}

theorem listed_of_next_le {inv : InvitationPtr} (h : s.clients.next ≤ client)
    : s.listed client inv = 0 := by
  unfold listed
  split
  . next c hc =>
    have := Heap.lt_next_of_get? hc
    omega
  . rfl

theorem Valid.invitationRefs {extra : ClientPtr → Nat} (h : s.Valid extra) {inv : InvitationPtr}
    {i : Invitation} (hi : s.invitations.get? inv = some i)
    : s.invitationRefs inv = s.listed i.source inv + s.listed i.target inv := by
  unfold Store.invitationRefs
  apply Finset.sum_eq_add i.source i.target (h.invitation inv i hi).distinct
  . intro client _ hne
    exact h.listed_eq_zero hi hne.1.symm hne.2.symm
  . intro hnot
    exact listed_of_next_le (by simpa using hnot)
  . intro hnot
    exact listed_of_next_le (by simpa using hnot)

theorem Valid.involved_eq {extra : ClientPtr → Nat} (h : s.Valid extra) (client : ClientPtr)
    : s.involved client
        =
      s.invitations.countP (fun i => i.source = client)
        + s.invitations.countP (fun i => i.target = client) := by
  rw [← Heap.countP_or]
  . unfold involved
    congr 1
    funext i
    simp
  . intro inv i hi hboth
    simp only [decide_eq_true_eq] at hboth
    exact (h.invitation inv i hi).distinct (hboth.1.trans hboth.2.symm)

theorem Valid.clientRefs (h : s.Valid fun _ => 0) (client : ClientPtr)
    : s.clientRefs client = s.registered client + s.involved client := by
  unfold Store.clientRefs
  rw [h.involved_eq, Nat.add_assoc]
  congr 1
  unfold registered
  rw [List.Nodup.count h.registry.nodup]

theorem Valid.gameRefs (h : s.Valid fun _ => 0) {game : GamePtr} {g : Game}
    (hg : s.games.get? game = some g) : s.gameRefs game = 1 := by
  obtain ⟨inv, i, hi, hgame⟩ := h.owned game g hg
  apply Heap.countP_eq_one hi (by simpa using hgame)
  intro inv' i' hi' hgame'
  exact (h.invitation inv i hi).own game inv' i' hgame hi' (by simpa using hgame')

theorem Accounted.exact (h : s.Accounted) : s.Exact where
  invitation := by
    intro inv i hi
    rw [h.valid.invitationRefs hi]
    exact (h.valid.invitation inv i hi).refCount
  client := by
    intro client c hc
    rw [h.valid.clientRefs]
    exact (h.valid.client client c hc).refCount
  player := by
    intro player p hp
    have hmem := h.known player p hp
    obtain ⟨p', hp', hcount⟩ := h.valid.player player hmem
    obtain rfl := Option.some.inj (hp.symm.trans hp')
    refine ⟨hmem, ?_⟩
    rw [hcount, playerRefs, if_pos hmem]
  game := by
    intro game g hg
    refine ⟨?_, h.valid.gameRefs hg⟩
    obtain ⟨inv, i, hi, hgame⟩ := h.valid.owned game g hg
    obtain ⟨-, g', hg', hone⟩ := (h.valid.invitation inv i hi).game game hgame
    obtain rfl := Option.some.inj (hg.symm.trans hg')
    exact hone
  invitation_live := by
    intro inv
    constructor
    . rintro ⟨i, hi⟩
      rw [h.valid.invitationRefs hi]
      exact h.linked.positive inv i hi
    . intro hpos
      obtain ⟨client, -, hlisted⟩ := Finset.exists_ne_zero_of_sum_ne_zero (Nat.ne_of_gt hpos)
      cases hc : s.clients.get? client with
      | none => simp [listed, hc] at hlisted
      | some c =>
        have hmem := mem_of_listed hc (Nat.pos_of_ne_zero hlisted)
        obtain ⟨i, hi, -⟩ := (h.valid.client client c hc).mine inv hmem
        exact ⟨i, hi⟩
  client_live := by
    intro client
    rw [h.valid.clientRefs]
    constructor
    . rintro ⟨c, hc⟩
      have hcount := (h.valid.client client c hc).refCount
      have hpos := h.counted client c hc
      omega
    . intro hpos
      by_cases hregistered : 0 < s.registered client
      . exact h.valid.held_live client (by omega)
      . obtain ⟨inv, i, hi, hor⟩ := Heap.get?_of_countP_pos (h := s.invitations)
          (P := fun i => i.source = client ∨ i.target = client) (by unfold involved at hpos; omega)
        obtain ⟨c, hc, -⟩ := (h.valid.invitation inv i hi).live (by simpa using hor)
        exact ⟨c, hc⟩
  player_live := by
    intro player
    constructor
    . rintro ⟨p, hp⟩
      rw [playerRefs, if_pos (h.known player p hp)]
      omega
    . intro hpos
      have hmem : player ∈ s.playerRegistry.players := by
        refine Classical.byContradiction fun hnot => ?_
        rw [playerRefs, if_neg hnot, Nat.zero_add] at hpos
        obtain ⟨client, c, hc, hsession⟩ := Heap.get?_of_countP_pos hpos
        simp only [decide_eq_true_eq] at hsession
        exact hnot ((h.valid.client client c hc).known player hsession.2)
      obtain ⟨p, hp, -⟩ := h.valid.player player hmem
      exact ⟨p, hp⟩
  game_live := by
    intro game
    constructor
    . rintro ⟨g, hg⟩
      rw [h.valid.gameRefs hg]
      exact Nat.one_pos
    . intro hpos
      obtain ⟨inv, i, hi, hgame⟩ := Heap.get?_of_countP_pos hpos
      obtain ⟨-, g, hg, -⟩ := (h.valid.invitation inv i hi).game game (by simpa using hgame)
      exact ⟨g, hg⟩

/-! ## What the calls do to the counts -/

theorem Accounted.keeps (h : s.Accounted) (hkeeps : s.KeepsSessions s')
    (hv : s'.Valid fun _ => 0) (hl : s'.Linked) (hcounted : s'.Counted) : s'.Accounted where
  valid := hv
  linked := hl
  counted := hcounted
  known := by
    intro player p' hp'
    have hname := hkeeps.name player
    rw [hp', Option.map_some] at hname
    obtain ⟨p, hp, -⟩ := Option.map_eq_some_iff.mp hname.symm
    rw [hkeeps.playerRegistry]
    exact h.known player p hp
  sem := by
    intro client c' hc'
    obtain ⟨c, hc, -⟩ := hkeeps.get?_of_get? hc'
    rw [hkeeps.loginSem]
    exact h.sem client c hc

theorem Accounted.connect (h : s.Accounted) (hqueue : s.clientRegistry.loginQueue ≠ 0) (fd : Int)
    : (s.connect fd).Accounted where
  valid := h.valid.connect hqueue fd
  linked := h.linked.connect h.valid fd
  counted := h.counted.connect fd
  known := h.known
  sem := fun _ _ _ => Nat.one_ne_zero

theorem Accounted.connectFailed (h : s.Accounted) (hqueue : s.clientRegistry.loginQueue ≠ 0)
    : s.connectFailed.Accounted where
  valid := h.valid.connectFailed hqueue
  linked := h.linked.congr (fun _ _ => rfl) rfl
  counted := h.counted.congr rfl
  known := h.known
  sem := fun _ _ _ => Nat.one_ne_zero

theorem Accounted.addPlayer (h : s.Accounted) (name : CString) : (s.addPlayer name).Accounted where
  valid := h.valid.addPlayer name
  linked := h.linked.congr (fun _ _ => rfl) rfl
  counted := h.counted.congr rfl
  known := by
    intro player p hp
    unfold Store.addPlayer at hp ⊢
    dsimp only at hp ⊢
    rw [Heap.get?_push] at hp
    split at hp
    . next heq =>
      subst heq
      exact List.mem_append_right _ (List.mem_singleton_self _)
    . exact List.mem_append_left _ (h.known player p hp)
  sem := h.sem

theorem Accounted.enlist (h : s.Accounted) (name : CString) : (s.enlist name).Accounted := by
  unfold Store.enlist
  split
  . exact h
  . exact h.addPlayer name

theorem Accounted.login (h : s.Accounted) {player : PlayerPtr} (hc : s.clients.get? client = some c)
    (hout : c.loggedIn = .loggedOut) (hregistered : 0 < s.registered client)
    (hplayer : player ∈ s.playerRegistry.players) : (s.login client player).Accounted where
  valid := h.valid.login hc hout (by omega) hplayer
  linked := h.linked.login client player
  counted := by
    apply (h.counted.modifyClient client
      (f := fun c => { c with player := some player, loggedIn := .loggedIn }) ?_).congr
    . rfl
    . intro c _ hpos
      exact hpos
  known := by
    intro player' p' hp'
    rw [login_players] at hp'
    obtain ⟨p, hp, -⟩ := Heap.get?_modify_eq_some.mp hp'
    exact h.known player' p hp
  sem := by
    intro x c' hc'
    rw [login_clients] at hc'
    obtain ⟨cx, hcx, -⟩ := Heap.get?_modify_eq_some.mp hc'
    exact h.sem x cx hcx

theorem Accounted.leave (h : s.Accounted) {player : PlayerPtr} (hc : s.clients.get? client = some c)
    (hin : c.loggedIn = .loggedIn) (hplayer : c.player = some player)
    : (s.leave client player).Accounted where
  valid := h.valid.leave hc hin hplayer
  linked := h.linked.leave client player
  counted := by
    apply (h.counted.modifyClient client (f := fun c => { c with loggedIn := .loggedOut }) ?_).congr
    . rfl
    . intro c _ hpos
      exact hpos
  known := by
    intro player' p' hp'
    rw [leave_players] at hp'
    obtain ⟨p, hp, -⟩ := Heap.get?_modify_eq_some.mp hp'
    exact h.known player' p hp
  sem := by
    intro x c' hc'
    rw [leave_clients] at hc'
    obtain ⟨cx, hcx, -⟩ := Heap.get?_modify_eq_some.mp hc'
    exact h.sem x cx hcx

theorem unregister_players (s : Store) (client : ClientPtr) (i : Nat)
    : (s.unregister client i).players = s.players
        ∧ (s.unregister client i).playerRegistry = s.playerRegistry
        ∧ (s.unregister client i).loginSem = s.loginSem := by
  unfold Store.unregister Store.unrefClient
  split
  . split
    . exact ⟨rfl, rfl, rfl⟩
    . exact ⟨rfl, rfl, rfl⟩
  . exact ⟨rfl, rfl, rfl⟩

theorem get?_unrefClient {x : ClientPtr} {c' : Client}
    (hc' : (s.unrefClient client).clients.get? x = some c') : ∃ c, s.clients.get? x = some c := by
  unfold Store.unrefClient at hc'
  split at hc'
  . split at hc'
    . dsimp only at hc'
      rw [Heap.get?_free] at hc'
      split at hc'
      . simp at hc'
      . obtain ⟨cx, hcx, -⟩ := Heap.get?_modify_eq_some.mp hc'
        exact ⟨cx, hcx⟩
    . obtain ⟨cx, hcx, -⟩ := Heap.get?_modify_eq_some.mp hc'
      exact ⟨cx, hcx⟩
  . exact ⟨c', hc'⟩

theorem Accounted.unregister {i : Nat} (h : s.Accounted) (hc : s.clients.get? client = some c)
    (hout : c.loggedIn = .loggedOut) (hi : s.clientRegistry.slotOf? client = some i)
    : (s.unregister client i).Accounted := by
  obtain ⟨hplayers, hregistry, hsem⟩ := unregister_players s client i
  have hregistered : 0 < s.registered client := by
    refine Nat.pos_of_ne_zero fun hzero => ?_
    unfold registered at hzero
    rw [List.count_eq_zero] at hzero
    rw [ClientRegistry.slotOf?_eq_none.mpr hzero] at hi
    simp at hi
  constructor
  . exact h.valid.unregister hi hc hout
  . exact h.linked.unregister h.valid (by omega)
  . exact (h.counted.unrefClient client).congr (unregister_clients client i)
  . rw [hplayers, hregistry]
    exact h.known
  . intro x c' hc'
    rw [unregister_clients] at hc'
    obtain ⟨cx, hcx⟩ := get?_unrefClient hc'
    rw [hsem]
    exact h.sem x cx hcx

end Store

variable {env : Env} {w w' : World} {client : ClientPtr}

theorem Returned.accounted {op : Operation} {r : Int} (h : Returned env w client op r w')
    (hacc : w.store.Accounted) (hcall : w.store.Allowed (fun _ => 0) client op)
    : w'.store.Accounted :=
  hacc.keeps h.effect.keepsSessions (h.effect.valid hacc.valid hacc.linked hcall)
    (h.effect.linked hacc.valid hacc.linked hcall) (h.counted hacc.counted)

theorem LogsOut.accounted (h : LogsOut env client w w') (hacc : w.store.Accounted)
    : w'.store.Accounted := by
  cases h with
  | out => exact hacc
  | left hc hin hplayer hrun hcounted =>
    have hholds : w.store.Holds (fun _ => 0) client :=
      ⟨hacc.valid, hacc.linked, (hacc.valid.client client _ hc).held hin⟩
    have hholds₁ := hrun.holds hholds
    obtain ⟨c₁, hc₁, hplayer₁, hin₁⟩ := hrun.keepsSessions.get? hc
    exact (hacc.keeps hrun.keepsSessions hholds₁.valid hholds₁.linked (hcounted hacc.counted)).leave
      hc₁ (hin₁.trans hin) (hplayer₁.trans hplayer)

theorem Unregisters.accounted (h : Unregisters env client w w') (hacc : w.store.Accounted)
    : w'.store.Accounted := by
  cases h with
  | unknown => exact hacc
  | gone hi hlogout =>
    obtain ⟨c, hc, hout⟩ := hlogout.loggedOut
    apply (hlogout.accounted hacc).unregister hc hout
    rw [hlogout.clientRegistry, hi]

theorem Connects.accounted {fd : Int} {o : Option ClientPtr} (h : Connects fd w o w')
    (hacc : w.store.Accounted) : w'.store.Accounted := by
  cases h with
  | refused => exact hacc
  | failed n hqueue => exact hacc.connectFailed hqueue
  | connected n hqueue => exact hacc.connect hqueue fd

end Jeux
