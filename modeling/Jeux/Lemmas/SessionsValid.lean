import Jeux.Lemmas.Registry
import Jeux.Lemmas.InvitationsValid

/-!
Connecting, logging in and out, and disconnecting keep the store valid.
-/

namespace Jeux

namespace Store

variable {s s' : Store} {extra extra' : ClientPtr → Nat}

theorem Valid.next_not_registered (h : s.Valid extra)
    : s.registered s.clients.next + extra s.clients.next = 0 := by
  refine Nat.eq_zero_of_not_pos fun hpos => ?_
  obtain ⟨c, hc⟩ := h.held_live _ hpos
  simp at hc

theorem Valid.involved_eq_zero (h : s.Valid extra) {client : ClientPtr}
    (hc : s.clients.get? client = none) : s.involved client = 0 := by
  unfold involved
  apply Heap.countP_eq_zero
  intro inv i hi
  have hok := h.invitation inv i hi
  simp only [decide_eq_false_iff_not, not_or]
  constructor
  . intro heq
    obtain ⟨c, hsome, -⟩ := hok.source
    simp [heq, hc] at hsome
  . intro heq
    obtain ⟨c, hsome, -⟩ := hok.target
    simp [heq, hc] at hsome

theorem not_involved {client : ClientPtr} {inv : InvitationPtr} {i : Invitation}
    (hzero : s.involved client = 0) (hi : s.invitations.get? inv = some i)
    : i.source ≠ client ∧ i.target ≠ client := by
  constructor
  . intro heq
    have := involved_pos hi (.inl heq)
    omega
  . intro heq
    have := involved_pos hi (.inr heq)
    omega

theorem newClient_idsOk (fd : Int) : (newClient fd).IdsOk where
  length_eq := by simp [newClient]
  size_pos := by simp [newClient]
  slot := by
    intro i hi
    simp only [newClient] at hi
    simp [newClient, Client.ids, hi]
  range := by simp [newClient, Client.ids]
  nodup := by simp [newClient, Client.ids]
  usage := by simp [newClient, Client.ids]

/-! ## Connecting -/

theorem Valid.connectFailed (h : s.Valid extra) (hqueue : s.clientRegistry.loginQueue ≠ 0)
    : s.connectFailed.Valid extra := by
  have hregistered : ∀ x, s.connectFailed.registered x = s.registered x := by
    intro x
    unfold Store.connectFailed registered
    dsimp only
    rw [h.registry.members_enrol hqueue]
    simp
  constructor
  case registry => exact h.registry.enrol hqueue (by simp)
  case held_live =>
    intro x hx
    rw [hregistered] at hx
    exact h.held_live x hx
  case client =>
    intro x c hc
    exact ClientOk.congr (h.client x c hc) (hregistered x) rfl (fun _ hp => hp)
      fun inv i hi _ => ⟨i, hi, rfl, rfl⟩
  case invitation =>
    intro inv i hi
    have hok := h.invitation inv i hi
    exact ⟨hok.distinct, hok.roles, hok.source, hok.target, hok.refCount, hok.game, hok.own⟩
  case owned => exact h.owned
  case players_nodup => exact h.players_nodup
  case player => exact h.player

theorem sessions_connect (fd : Int) (player : PlayerPtr)
    : (s.connect fd).sessions player = s.sessions player := by
  simp [sessions, Store.connect, newClient]

theorem Valid.connect (h : s.Valid extra) (hqueue : s.clientRegistry.loginQueue ≠ 0) (fd : Int)
    : (s.connect fd).Valid extra := by
  have hfresh : s.registered s.clients.next = 0 := by
    have := h.next_not_registered
    omega
  have hregistered : ∀ x, (s.connect fd).registered x
      = s.registered x + if x = s.clients.next then 1 else 0 := by
    intro x
    unfold Store.connect registered
    dsimp only
    rw [h.registry.members_enrol hqueue, List.count_append]
    simp [List.count_singleton, eq_comm (a := x)]
  constructor
  case registry =>
    apply h.registry.enrol hqueue
    simp only [Option.mem_def, Option.some.injEq, forall_eq']
    exact List.count_eq_zero.mp hfresh
  case held_live =>
    intro x hx
    by_cases heq : x = s.clients.next
    . subst heq
      exact ⟨_, Heap.get?_push_next⟩
    . rw [hregistered, if_neg heq] at hx
      obtain ⟨c, hc⟩ := h.held_live x hx
      exact ⟨c, Heap.get?_push_of_get? hc⟩
  case client =>
    intro x c hc
    have hc' : (s.clients.push (newClient fd)).get? x = some c := hc
    rw [Heap.get?_push] at hc'
    split at hc'
    . next heq =>
      subst heq
      simp only [Option.some.injEq] at hc'
      subst hc'
      have hinvolved : s.involved s.clients.next = 0 := h.involved_eq_zero Heap.get?_next
      have hextra := h.next_not_registered
      constructor
      . exact newClient_idsOk fd
      . simp [newClient, Client.invitations]
      . simp [newClient, Client.invitations]
      . have : (s.connect fd).involved s.clients.next = s.involved s.clients.next := rfl
        rw [hregistered, this, hinvolved]
        simp only [newClient, ↓reduceIte]
        omega
      . simp [newClient]
      . simp [newClient]
      . simp [newClient]
    . next hne =>
      refine ClientOk.congr (h.client x c hc') ?_ rfl (fun _ hp => hp)
        fun inv i hi _ => ⟨i, hi, rfl, rfl⟩
      rw [hregistered, if_neg hne, Nat.add_zero]
  case invitation =>
    intro inv i hi
    have hok := h.invitation inv i hi
    obtain ⟨cs, hcs, -⟩ := hok.source
    obtain ⟨ct, hct, -⟩ := hok.target
    refine InvitationOk.congr hok ⟨rfl, rfl⟩ ⟨rfl, rfl⟩ ?_ ?_ ⟨rfl, hok.state_ne_open⟩
      (fun game g _ hg => ⟨g, hg, rfl⟩) fun inv' j hj => .inr ⟨j, hj, rfl⟩
    . have hs : (s.connect fd).clients.get? i.source = some cs := Heap.get?_push_of_get? hcs
      have ht : (s.connect fd).clients.get? i.target = some ct := Heap.get?_push_of_get? hct
      rw [hok.refCount, listed_of_get? hcs, listed_of_get? hct, listed_of_get? hs,
        listed_of_get? ht]
    . intro x c _ hc
      exact ⟨c, Heap.get?_push_of_get? hc, id⟩
  case owned => exact h.owned
  case players_nodup => exact h.players_nodup
  case player =>
    intro player hplayer
    obtain ⟨p, hp, hcount⟩ := h.player player hplayer
    exact ⟨p, hp, by rw [sessions_connect, hcount]⟩

/-! ## Giving up references to clients -/

section

variable {client : ClientPtr} {c : Client} {cr : ClientRegistry}

theorem Valid.clientOk_unref (h : s.Valid extra) (hcr : s'.clientRegistry = cr)
    (hinv : s'.invitations = s.invitations) (hpreg : s'.playerRegistry = s.playerRegistry)
    (hheld : ∀ x, cr.members.count x + extra' x + (if x = client then 1 else 0)
      = s.registered x + extra x)
    {x : ClientPtr} (hc : s.clients.get? x = some c) (hne : x ≠ client)
    : s'.ClientOk extra' x c := by
  have hok := h.client x c hc
  have hx := hheld x
  rw [if_neg hne, Nat.add_zero] at hx
  have hregistered : s'.registered x = cr.members.count x := by rw [registered, hcr]
  have hinvolved : s'.involved x = s.involved x := by rw [involved, hinv, involved]
  constructor
  . exact hok.ids
  . exact hok.nodup
  . rw [hinv]
    exact hok.mine
  . rw [hregistered, hinvolved, hx]
    exact hok.refCount
  . rw [hregistered, hx]
    exact hok.held
  . exact hok.player
  . rw [hpreg]
    exact hok.known

theorem Valid.freeClient (h : s.Valid extra) (hc : s.clients.get? client = some c) (hcr : cr.Ok)
    (hheld : ∀ x, cr.members.count x + extra' x + (if x = client then 1 else 0)
      = s.registered x + extra x)
    (hin : c.loggedIn = .loggedIn → 0 < cr.members.count client + extra' client)
    (hlast : c.refCount = 1)
    : Valid { s with
        clientRegistry := cr
        clients := (s.clients.modify client Client.dropRef).free client } extra' := by
  have hcount := (h.client client c hc).refCount
  have hclient := hheld client
  rw [if_pos rfl] at hclient
  have hzero : s.involved client = 0 := by omega
  have hout : ¬ c.loggedIn = .loggedIn := by
    intro hin'
    have := hin hin'
    omega
  have hget : ∀ x, x ≠ client →
      ((s.clients.modify client Client.dropRef).free client).get? x = s.clients.get? x := by
    intro x hne
    simp [hne]
  constructor
  case registry => exact hcr
  case held_live =>
    intro x hx
    have hne : x ≠ client := by
      intro heq
      subst heq
      change 0 < cr.members.count x + extra' x at hx
      omega
    obtain ⟨cx, hcx⟩ := h.held_live x (by
      have := hheld x
      rw [if_neg hne] at this
      change 0 < cr.members.count x + extra' x at hx
      omega)
    exact ⟨cx, (hget x hne).trans hcx⟩
  case client =>
    intro x cx hcx
    have hne : x ≠ client := by
      intro heq
      subst heq
      simp at hcx
    refine h.clientOk_unref ?_ ?_ ?_ hheld ((hget x hne).symm.trans hcx) hne
    all_goals rfl
  case invitation =>
    intro inv i hi
    have hok := h.invitation inv i hi
    obtain ⟨hsource, htarget⟩ := not_involved hzero hi
    refine InvitationOk.congr hok ⟨rfl, rfl⟩ ⟨rfl, rfl⟩ ?_ ?_ ⟨rfl, hok.state_ne_open⟩
      (fun game g _ hg => ⟨g, hg, rfl⟩) fun inv' j hj => .inr ⟨j, hj, rfl⟩
    . rw [hok.refCount]
      unfold listed
      dsimp only
      rw [hget _ hsource, hget _ htarget]
    . intro x cx hor hcx
      refine ⟨cx, (hget x ?_).trans hcx, id⟩
      rintro rfl
      cases hor with
      | inl heq => exact hsource heq
      | inr heq => exact htarget heq
  case owned => exact h.owned
  case players_nodup => exact h.players_nodup
  case player =>
    intro player hplayer
    obtain ⟨p, hp, hpcount⟩ := h.player player hplayer
    refine ⟨p, hp, ?_⟩
    have hfree := Heap.countP_free (h := s.clients.modify client Client.dropRef) (p := client)
      (v := c.dropRef) (P := fun c => c.loggedIn = .loggedIn ∧ c.player = some player)
      (by simp [hc])
    rw [Heap.countP_modify_eq (by intros; rfl)] at hfree
    simp only [Client.dropRef_loggedIn, hout, false_and, decide_false, Bool.false_eq_true,
      ↓reduceIte, Nat.add_zero] at hfree
    rw [hpcount, sessions, sessions, ← hfree]

theorem Valid.dropClient (h : s.Valid extra) (hc : s.clients.get? client = some c) (hcr : cr.Ok)
    (hheld : ∀ x, cr.members.count x + extra' x + (if x = client then 1 else 0)
      = s.registered x + extra x)
    (hin : c.loggedIn = .loggedIn → 0 < cr.members.count client + extra' client)
    : (modifyClient { s with clientRegistry := cr } client Client.dropRef).Valid extra' := by
  have hokc := h.client client c hc
  have hcount := hokc.refCount
  have hclient := hheld client
  rw [if_pos rfl] at hclient
  constructor
  case registry => exact hcr
  case held_live =>
    intro x hx
    obtain ⟨cx, hcx⟩ := h.held_live x (by
      have := hheld x
      change 0 < cr.members.count x + extra' x at hx
      omega)
    exact ⟨_, Heap.get?_modify_eq_some.mpr ⟨cx, hcx, rfl⟩⟩
  case client =>
    intro x cx' hcx'
    obtain ⟨cx, hcx, rfl⟩ := Heap.get?_modify_eq_some.mp hcx'
    by_cases hne : x = client
    . subst hne
      rw [hc, Option.some.injEq] at hcx
      subst hcx
      rw [if_pos rfl]
      refine ⟨hokc.ids.congr rfl rfl rfl rfl, hokc.nodup, hokc.mine, ?_, hin, hokc.player,
        hokc.known⟩
      rw [Client.dropRef_refCount]
      change c.refCount - 1 = ((cr.members.count x + extra' x + s.involved x : Nat) : Int)
      omega
    . rw [if_neg hne]
      refine h.clientOk_unref ?_ ?_ ?_ hheld hcx hne
      all_goals rfl
  case invitation =>
    intro inv i hi
    have hok := h.invitation inv i hi
    refine InvitationOk.congr hok ⟨rfl, rfl⟩ ⟨rfl, rfl⟩ ?_ ?_ ⟨rfl, hok.state_ne_open⟩
      (fun game g _ hg => ⟨g, hg, rfl⟩) fun inv' j hj => .inr ⟨j, hj, rfl⟩
    . rw [hok.refCount]
      have hlisted : ∀ x, (modifyClient { s with clientRegistry := cr } client
          Client.dropRef).listed x inv = s.listed x inv := by
        intro x
        unfold listed
        rw [modifyClient_clients, Heap.get?_modify]
        cases hx : s.clients.get? x with
        | none => simp
        | some cx =>
          by_cases heq : x = client
          . simp [heq]
            rfl
          . simp [heq]
      rw [hlisted, hlisted]
    . intro x cx _ hcx
      refine ⟨_, Heap.get?_modify_eq_some.mpr ⟨cx, hcx, rfl⟩, ?_⟩
      split
      . exact id
      . exact id
  case owned => exact h.owned
  case players_nodup => exact h.players_nodup
  case player =>
    intro player hplayer
    obtain ⟨p, hp, hpcount⟩ := h.player player hplayer
    refine ⟨p, hp, ?_⟩
    rw [hpcount, sessions, sessions, modifyClient_clients,
      Heap.countP_modify_eq (by intros; rfl)]

theorem Valid.unrefClient (h : s.Valid extra) (hc : s.clients.get? client = some c) (hcr : cr.Ok)
    (hheld : ∀ x, cr.members.count x + extra' x + (if x = client then 1 else 0)
      = s.registered x + extra x)
    (hin : c.loggedIn = .loggedIn → 0 < cr.members.count client + extra' client)
    : ({ s with clientRegistry := cr }.unrefClient client).Valid extra' := by
  unfold Store.unrefClient
  dsimp only
  rw [hc]
  dsimp only
  split
  . next hlast => exact h.freeClient hc hcr hheld hin hlast
  . exact h.dropClient hc hcr hheld hin

end

theorem Valid.unregister (h : s.Valid extra) {client : ClientPtr} {c : Client} {i : Nat}
    (hi : s.clientRegistry.slotOf? client = some i) (hc : s.clients.get? client = some c)
    (hout : c.loggedIn = .loggedOut) : (s.unregister client i).Valid extra := by
  have hlen : s.clientRegistry.length ≤ s.clientRegistry.clients.length := by
    have := h.registry.room
    rw [h.registry.clients_length]
    omega
  have hmembers := ClientRegistry.members_release_shift hi hlen
  have hmem : client ∈ s.clientRegistry.members := by
    refine Classical.byContradiction fun hnot => ?_
    rw [ClientRegistry.slotOf?_eq_none.mpr hnot] at hi
    simp at hi
  apply h.unrefClient hc (h.registry.release_shift hi)
  . intro x
    rw [hmembers, List.count_erase]
    by_cases heq : x = client
    . subst heq
      have := List.count_pos_iff.mpr hmem
      simp only [registered, BEq.rfl, ↓reduceIte]
      omega
    . have : (client == x) = false := by simpa using Ne.symm heq
      simp [registered, heq, this]
  . intro hin
    rw [hout] at hin
    simp at hin

theorem Valid.refClient (h : s.Valid extra) {client : ClientPtr} {c : Client}
    (hc : s.clients.get? client = some c)
    (hextra : ∀ x, extra' x = extra x + if x = client then 1 else 0)
    : (s.modifyClient client Client.addRef).Valid extra' := by
  have hlisted : ∀ x inv, (s.modifyClient client Client.addRef).listed x inv = s.listed x inv := by
    intro x inv
    unfold listed
    rw [modifyClient_clients, Heap.get?_modify]
    cases hx : s.clients.get? x with
    | none => simp
    | some cx =>
      by_cases heq : x = client
      . simp [heq]
        rfl
      . simp [heq]
  constructor
  case registry => exact h.registry
  case held_live =>
    intro x hx
    have hlive : ∃ cx, s.clients.get? x = some cx := by
      by_cases heq : x = client
      . exact ⟨c, heq ▸ hc⟩
      . apply h.held_live
        rw [hextra, if_neg heq] at hx
        exact hx
    obtain ⟨cx, hcx⟩ := hlive
    exact ⟨_, Heap.get?_modify_eq_some.mpr ⟨cx, hcx, rfl⟩⟩
  case client =>
    intro x cx' hcx'
    obtain ⟨cx, hcx, rfl⟩ := Heap.get?_modify_eq_some.mp hcx'
    have hok := h.client x cx hcx
    have hcount := hok.refCount
    have hregistered : (s.modifyClient client Client.addRef).registered x = s.registered x := rfl
    have hinvolved : (s.modifyClient client Client.addRef).involved x = s.involved x := rfl
    have hheld : cx.loggedIn = .loggedIn → 0 < s.registered x + extra' x := by
      intro hin
      have := hok.held hin
      rw [hextra]
      omega
    split
    . next heq =>
      refine ⟨hok.ids.congr rfl rfl rfl rfl, hok.nodup, hok.mine, ?_, hheld, hok.player, hok.known⟩
      rw [Client.addRef_refCount, hregistered, hinvolved, hextra, if_pos heq]
      omega
    . next hne =>
      refine ⟨hok.ids, hok.nodup, hok.mine, ?_, hheld, hok.player, hok.known⟩
      rw [hregistered, hinvolved, hextra, if_neg hne]
      exact hcount
  case invitation =>
    intro inv i hi
    have hok := h.invitation inv i hi
    refine InvitationOk.congr hok ⟨rfl, rfl⟩ ⟨rfl, rfl⟩ ?_ ?_ ⟨rfl, hok.state_ne_open⟩
      (fun game g _ hg => ⟨g, hg, rfl⟩) fun inv' j hj => .inr ⟨j, hj, rfl⟩
    . rw [hlisted, hlisted, hok.refCount]
    . intro x cx _ hcx
      refine ⟨_, Heap.get?_modify_eq_some.mpr ⟨cx, hcx, rfl⟩, ?_⟩
      split <;> exact id
  case owned => exact h.owned
  case players_nodup => exact h.players_nodup
  case player =>
    intro player hplayer
    obtain ⟨p, hp, hcount⟩ := h.player player hplayer
    exact ⟨p, hp, by rw [hcount, sessions, sessions, modifyClient_clients,
      Heap.countP_modify_eq (by intros; rfl)]⟩

/-! ## Logging in and out -/

theorem Valid.modifySession (h : s.Valid extra) {client : ClientPtr} {c : Client}
    {f : Client → Client} (hc : s.clients.get? client = some c)
    (hids : (f c).availableIds = c.availableIds ∧ (f c).idUsage = c.idUsage
      ∧ (f c).currentIdSize = c.currentIdSize ∧ (f c).inviteHead = c.inviteHead)
    (hcount : (f c).refCount = c.refCount)
    (hheld : (f c).loggedIn = .loggedIn → 0 < s.registered client + extra client)
    (hplayer : (f c).player ≠ none) (hknown : ∀ player, (f c).player = some player →
      player ∈ s.playerRegistry.players)
    {players : Heap Player}
    (hplayers : ∀ player ∈ s.playerRegistry.players, ∃ p, players.get? player = some p
      ∧ p.refCount = (1 + (s.modifyClient client f).sessions player : Nat))
    : { s.modifyClient client f with players := players }.Valid extra := by
  constructor
  case registry => exact h.registry
  case held_live =>
    intro x hx
    obtain ⟨cx, hcx⟩ := h.held_live x hx
    exact ⟨_, Heap.get?_modify_eq_some.mpr ⟨cx, hcx, rfl⟩⟩
  case client =>
    intro x cx' hcx'
    obtain ⟨cx, hcx, rfl⟩ := Heap.get?_modify_eq_some.mp hcx'
    have hok := h.client x cx hcx
    split
    . next heq =>
      subst heq
      rw [hc, Option.some.injEq] at hcx
      subst hcx
      have hlist : (f c).invitations = c.invitations := by simp [Client.invitations, hids.2.2.2]
      refine ⟨hok.ids.congr hids.1 hids.2.1 hids.2.2.1 hids.2.2.2, ?_, ?_, ?_, hheld,
        fun _ => hplayer, hknown⟩
      . rw [hlist]
        exact hok.nodup
      . rw [hlist]
        exact hok.mine
      . rw [hcount]
        exact hok.refCount
    . exact ⟨hok.ids, hok.nodup, hok.mine, hok.refCount, hok.held, hok.player, hok.known⟩
  case invitation =>
    intro inv i hi
    have hok := h.invitation inv i hi
    refine InvitationOk.congr hok ⟨rfl, rfl⟩ ⟨rfl, rfl⟩ ?_ ?_ ⟨rfl, hok.state_ne_open⟩
      (fun game g _ hg => ⟨g, hg, rfl⟩) fun inv' j hj => .inr ⟨j, hj, rfl⟩
    . have hlisted : ∀ x, Store.listed { s.modifyClient client f with players := players } x inv
          = s.listed x inv := by
        intro x
        unfold listed
        rw [modifyClient_clients, Heap.get?_modify]
        by_cases heq : x = client
        . subst heq
          simp [hc, Client.invitations, hids.2.2.2]
        . simp [heq]
      rw [hlisted, hlisted, hok.refCount]
    . intro x cx _ hcx
      refine ⟨_, Heap.get?_modify_eq_some.mpr ⟨cx, hcx, rfl⟩, ?_⟩
      split
      . next heq =>
        subst heq
        rw [hc, Option.some.injEq] at hcx
        subst hcx
        exact fun _ => hplayer
      . exact id
  case owned => exact h.owned
  case players_nodup => exact h.players_nodup
  case player => exact hplayers

theorem Valid.login (h : s.Valid extra) {client : ClientPtr} {c : Client} {player : PlayerPtr}
    (hc : s.clients.get? client = some c) (hout : c.loggedIn = .loggedOut)
    (hheld : 0 < s.registered client + extra client) (hplayer : player ∈ s.playerRegistry.players)
    : (s.login client player).Valid extra := by
  refine h.modifySession hc ⟨rfl, rfl, rfl, rfl⟩ rfl (fun _ => hheld) (by simp) ?_ ?_
  . intro player' heq
    simp only [Option.some.injEq] at heq
    exact heq ▸ hplayer
  . intro player' hplayer'
    obtain ⟨p, hp, hcount⟩ := h.player player' hplayer'
    refine ⟨_, Heap.get?_modify_eq_some.mpr ⟨p, hp, rfl⟩, ?_⟩
    have hsessions := Heap.countP_modify (f := fun c => { c with player := some player, loggedIn := .loggedIn })
      (P := fun c => c.loggedIn = .loggedIn ∧ c.player = some player') hc
    simp only [hout, reduceCtorEq, false_and, decide_false, Bool.false_eq_true, ↓reduceIte,
      Nat.add_zero, Option.some.injEq, true_and, decide_eq_true_eq] at hsessions
    unfold sessions
    rw [modifyClient_clients, hsessions]
    unfold sessions at hcount
    split
    . next heq =>
      subst heq
      rw [if_pos rfl, Player.addRef_refCount]
      omega
    . next hne =>
      rw [if_neg (Ne.symm hne)]
      omega

theorem Valid.leave (h : s.Valid extra) {client : ClientPtr} {c : Client} {player : PlayerPtr}
    (hc : s.clients.get? client = some c) (hin : c.loggedIn = .loggedIn)
    (hplayer : c.player = some player) : (s.leave client player).Valid extra := by
  refine h.modifySession hc ⟨rfl, rfl, rfl, rfl⟩ rfl (by simp) (by simp [hplayer])
    (h.client client c hc).known ?_
  intro player' hplayer'
  obtain ⟨p, hp, hcount⟩ := h.player player' hplayer'
  refine ⟨_, Heap.get?_modify_eq_some.mpr ⟨p, hp, rfl⟩, ?_⟩
  have hsessions := Heap.countP_modify (f := fun c => { c with loggedIn := .loggedOut })
    (P := fun c => c.loggedIn = .loggedIn ∧ c.player = some player') hc
  simp only [hin, hplayer, reduceCtorEq, false_and, decide_false, Bool.false_eq_true, ↓reduceIte,
    Nat.add_zero, Option.some.injEq, true_and, decide_eq_true_eq] at hsessions
  unfold sessions
  unfold sessions at hcount
  rw [modifyClient_clients]
  split
  . next heq =>
    subst heq
    rw [if_pos rfl] at hsessions
    rw [Player.dropRef_refCount]
    omega
  . next hne =>
    rw [if_neg (Ne.symm hne)] at hsessions
    omega

/-! ## Players -/

theorem Valid.modifyPlayer (h : s.Valid extra) {player : PlayerPtr} {f : Player → Player}
    (hcount : ∀ p, (f p).refCount = p.refCount) : (s.modifyPlayer player f).Valid extra := by
  refine ⟨h.registry, h.held_live, ?_, ?_, h.owned, h.players_nodup, ?_⟩
  . intro x c hc
    exact ClientOk.congr (h.client x c hc) rfl rfl (fun _ hp => hp)
      fun inv i hi _ => ⟨i, hi, rfl, rfl⟩
  . intro inv i hi
    have hok := h.invitation inv i hi
    exact ⟨hok.distinct, hok.roles, hok.source, hok.target, hok.refCount, hok.game, hok.own⟩
  . intro player' hplayer'
    obtain ⟨p, hp, href⟩ := h.player player' hplayer'
    refine ⟨_, Heap.get?_modify_eq_some.mpr ⟨p, hp, rfl⟩, ?_⟩
    split
    . rw [hcount]
      exact href
    . exact href

theorem Valid.post (h : s.Valid extra) (expected : Int → Rat) (result : PostedResult)
    : (s.post expected result).Valid extra := by
  unfold Store.post
  split
  . exact h
  . split
    . apply Valid.modifyPlayer
      . apply h.modifyPlayer
        intro p
        rfl
      . intro p
        rfl
    . exact h

theorem Valid.sessions_next (h : s.Valid extra) : s.sessions s.players.next = 0 := by
  unfold sessions
  apply Heap.countP_eq_zero
  intro client c hc
  simp only [decide_eq_false_iff_not, not_and]
  intro _ heq
  obtain ⟨p, hp, -⟩ := h.player _ ((h.client client c hc).known _ heq)
  simp at hp

theorem Valid.pushPlayer (h : s.Valid extra) (p : Player)
    : { s with players := s.players.push p }.Valid extra := by
  refine ⟨h.registry, h.held_live, ?_, ?_, h.owned, h.players_nodup, ?_⟩
  . intro x c hc
    exact ClientOk.congr (h.client x c hc) rfl rfl (fun _ hp => hp)
      fun inv i hi _ => ⟨i, hi, rfl, rfl⟩
  . intro inv i hi
    have hok := h.invitation inv i hi
    exact ⟨hok.distinct, hok.roles, hok.source, hok.target, hok.refCount, hok.game, hok.own⟩
  . intro player hplayer
    obtain ⟨p, hp, href⟩ := h.player player hplayer
    exact ⟨p, Heap.get?_push_of_get? hp, href⟩

theorem Valid.addPlayer (h : s.Valid extra) (name : CString) : (s.addPlayer name).Valid extra := by
  refine ⟨h.registry, h.held_live, ?_, ?_, h.owned, ?_, ?_⟩
  . intro x c hc
    refine ClientOk.congr (h.client x c hc) rfl rfl ?_ fun inv i hi _ => ⟨i, hi, rfl, rfl⟩
    intro player hplayer
    exact List.mem_append_left _ hplayer
  . intro inv i hi
    have hok := h.invitation inv i hi
    exact ⟨hok.distinct, hok.roles, hok.source, hok.target, hok.refCount, hok.game, hok.own⟩
  . refine List.nodup_append.mpr ⟨h.players_nodup, List.nodup_singleton _, ?_⟩
    intro a ha b hb heq
    rw [List.mem_singleton] at hb
    subst hb heq
    obtain ⟨p, hp, -⟩ := h.player _ ha
    simp at hp
  . intro player hplayer
    cases List.mem_append.mp hplayer with
    | inl hold =>
      obtain ⟨p, hp, href⟩ := h.player player hold
      exact ⟨p, Heap.get?_push_of_get? hp, href⟩
    | inr hnew =>
      rw [List.mem_singleton] at hnew
      subst hnew
      refine ⟨_, Heap.get?_push_next, ?_⟩
      have : (s.addPlayer name).sessions s.players.next = s.sessions s.players.next := rfl
      rw [this, h.sessions_next]
      rfl

end Store

end Jeux
