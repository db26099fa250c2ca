import Jeux.Lemmas.SessionsValid

/-!
The changes of the store seen from outside: what they leave of clients, invitations and games, and
that the store stays settled.
-/

namespace Jeux

namespace Store

variable {s s' : Store} {extra : ClientPtr → Nat}

theorem drop_players (s : Store) (client : ClientPtr) (inv : InvitationPtr)
    : (s.drop client inv).players = s.players := by
  unfold drop
  split
  . split <;> rfl
  . rfl

theorem dissolve_players (s : Store) (client opponent : ClientPtr) (inv : InvitationPtr)
    : (s.dissolve client opponent inv).players = s.players := by
  rw [dissolve, drop_players, drop_players]

/-! ## An invitation leaves both lists -/

section Dissolve

variable {client opponent : ClientPtr} {c co : Client} {inv : InvitationPtr} {i : Invitation}

theorem drop_shared (hi : s.invitations.get? inv = some i) (hshared : i.refCount ≠ 1)
    : s.drop client inv = s.unlink client inv := by
  simp only [drop, hi, hshared, ↓reduceIte]

theorem dissolve_eq (hi : s.invitations.get? inv = some i) (href : i.refCount = 2)
    : s.dissolve client opponent inv
        =
      ((s.unlink client inv).unlink opponent inv).release inv i := by
  have hi' : (s.unlink client inv).invitations.get? inv = some i.dropRef := by simp [hi]
  have hlast : i.dropRef.refCount = 1 := by simp [href]
  rw [dissolve, drop_shared hi (by omega), drop, hi']
  simp only [hlast, ↓reduceIte]
  rfl

theorem Valid.dissolve (h : s.Valid extra) (hi : s.invitations.get? inv = some i)
    (href : i.refCount = 2) (hne : opponent ≠ client) (hc : s.clients.get? client = some c)
    (hco : s.clients.get? opponent = some co) (hmem : inv ∈ c.invitations)
    (hmemo : inv ∈ co.invitations) : (s.dissolve client opponent inv).Valid extra := by
  have hco' : (s.drop client inv).clients.get? opponent = some co := by
    rw [drop_shared hi (by omega), unlink_clients, Heap.get?_modify_ne hne, hco]
  exact (h.drop hc hmem).drop hco' hmemo

theorem get?_dissolve_clients (hi : s.invitations.get? inv = some i) (href : i.refCount = 2)
    (hne : opponent ≠ client)
    (hends : (i.source = client ∧ i.target = opponent) ∨ (i.source = opponent ∧ i.target = client))
    (x : ClientPtr)
    : (s.dissolve client opponent inv).clients.get? x
        =
      (s.clients.get? x).map fun c =>
        if x = client ∨ x = opponent then (c.unlink inv).dropRef else c := by
  rw [dissolve_eq hi href]
  unfold release
  simp only [unlink_clients, Heap.get?_modify]
  rcases hends with ⟨hs, ht⟩ | ⟨hs, ht⟩
  all_goals
    rw [hs, ht]
    by_cases hx : x = client
    . subst hx
      cases s.clients.get? x <;> simp [Ne.symm hne]
    . by_cases hxo : x = opponent
      . subst hxo
        cases s.clients.get? x <;> simp [hx]
      . simp [hx, hxo]

theorem get?_dissolve_invitations (hi : s.invitations.get? inv = some i) (href : i.refCount = 2)
    (u : InvitationPtr)
    : (s.dissolve client opponent inv).invitations.get? u
        =
      if u = inv then none else s.invitations.get? u := by
  rw [dissolve_eq hi href]
  unfold release
  rw [Heap.get?_free]
  split
  . rfl
  . next hne => simp [hne]

theorem listed_dissolve (hi : s.invitations.get? inv = some i) (href : i.refCount = 2)
    (hne : opponent ≠ client)
    (hends : (i.source = client ∧ i.target = opponent) ∨ (i.source = opponent ∧ i.target = client))
    {u : InvitationPtr} (hu : u ≠ inv) (x : ClientPtr)
    : (s.dissolve client opponent inv).listed x u = s.listed x u := by
  unfold listed
  rw [get?_dissolve_clients hi href hne hends]
  cases s.clients.get? x with
  | none => rfl
  | some c =>
    dsimp only [Option.map_some]
    split
    . change List.count u (c.unlink inv).invitations = _
      rw [Client.unlink_invitations, List.count_erase_of_ne hu]
    . rfl

end Dissolve

/-! ## The lists stay linked -/

theorem Linked.mono (h : s.Linked)
    (hkeep : ∀ inv i', s'.invitations.get? inv = some i' → ∃ i, s.invitations.get? inv = some i
      ∧ i'.source = i.source ∧ i'.target = i.target
      ∧ s'.listed i.source inv = s.listed i.source inv
      ∧ s'.listed i.target inv = s.listed i.target inv
      ∧ (i.state = .closedState → i.game = none → i'.state = .closedState ∧ i'.game = none))
    : s'.Linked where
  both := by
    intro inv i' hi'
    obtain ⟨i, hi, hsource, htarget, hls, hlt, hclosed⟩ := hkeep inv i' hi'
    rw [hsource, htarget, hls, hlt]
    cases h.both inv i hi with
    | inl hc => exact .inl (hclosed hc.1 hc.2)
    | inr hboth => exact .inr hboth
  positive := by
    intro inv i' hi'
    obtain ⟨i, hi, hsource, htarget, hls, hlt, -⟩ := hkeep inv i' hi'
    rw [hsource, htarget, hls, hlt]
    exact h.positive inv i hi

theorem Linked.congr (h : s.Linked) (hlisted : ∀ client inv, s'.listed client inv = s.listed client inv)
    (hinvitations : s'.invitations = s.invitations) : s'.Linked := by
  apply h.mono
  rw [hinvitations]
  intro u i hi
  exact ⟨i, hi, rfl, rfl, hlisted _ _, hlisted _ _, fun hs hg => ⟨hs, hg⟩⟩

theorem Linked.modifyInvitation (h : s.Linked) {inv : InvitationPtr} {f : Invitation → Invitation}
    (hends : ∀ i, (f i).source = i.source ∧ (f i).target = i.target)
    (hclosed : ∀ i, s.invitations.get? inv = some i → i.state = .closedState → i.game = none →
      (f i).state = .closedState ∧ (f i).game = none)
    : (s.modifyInvitation inv f).Linked := by
  apply h.mono
  intro u i' hi'
  obtain ⟨i, hi, rfl⟩ := Heap.get?_modify_eq_some.mp hi'
  refine ⟨i, hi, ?_, ?_, rfl, rfl, ?_⟩
  . split
    . exact (hends i).1
    . rfl
  . split
    . exact (hends i).2
    . rfl
  . intro hstate hgame
    split
    . next heq =>
      subst heq
      exact hclosed i hi hstate hgame
    . exact ⟨hstate, hgame⟩

theorem Linked.close (h : s.Linked) (inv : InvitationPtr) : (s.close inv).Linked := by
  apply h.modifyInvitation
  . intro i
    exact ⟨rfl, rfl⟩
  . intro i _ _ hgame
    exact ⟨rfl, hgame⟩

theorem Linked.modifyGame (h : s.Linked) (game : GamePtr) (f : Game → Game)
    : (s.modifyGame game f).Linked := h.congr (fun _ _ => rfl) rfl

theorem Linked.resign (h : s.Linked) (inv : InvitationPtr) (game : GamePtr) (role : GameRole)
    : (s.resign inv game role).Linked := (h.modifyGame game _).close inv

theorem Linked.play (h : s.Linked) (game : GamePtr) (move : GameMove)
    : (s.play game move).Linked := h.modifyGame game _

theorem Linked.post (h : s.Linked) (expected : Int → Rat) (result : PostedResult)
    : (s.post expected result).Linked := by
  apply h.congr
  . intro client inv
    rw [listed, listed, post_clients]
  . exact post_invitations expected result

theorem Linked.acceptFailed (h : s.Linked) {inv : InvitationPtr} {i : Invitation}
    (hi : s.invitations.get? inv = some i) (hopen : i.state = .openState)
    : (s.acceptFailed inv).Linked := by
  apply h.modifyInvitation
  . intro i
    exact ⟨rfl, rfl⟩
  . intro j hj hstate
    obtain rfl := Option.some.inj (hi.symm.trans hj)
    simp [hopen] at hstate

theorem Linked.accept (h : s.Linked) {inv : InvitationPtr} {i : Invitation}
    (hi : s.invitations.get? inv = some i) (hopen : i.state = .openState)
    : (s.accept inv).Linked := by
  have haccepted : (s.modifyInvitation inv fun i =>
      { i with state := .acceptedState, game := some s.games.next }).Linked := by
    apply h.modifyInvitation
    . intro i
      exact ⟨rfl, rfl⟩
    . intro j hj hstate
      obtain rfl := Option.some.inj (hi.symm.trans hj)
      simp [hopen] at hstate
  exact haccepted.congr (fun _ _ => rfl) rfl

theorem Linked.dissolve (h : s.Linked) {client opponent : ClientPtr} {inv : InvitationPtr}
    {i : Invitation} (hi : s.invitations.get? inv = some i) (href : i.refCount = 2)
    (hne : opponent ≠ client)
    (hends : (i.source = client ∧ i.target = opponent) ∨ (i.source = opponent ∧ i.target = client))
    : (s.dissolve client opponent inv).Linked := by
  apply h.mono
  intro u j hj
  rw [get?_dissolve_invitations hi href] at hj
  split at hj
  . simp at hj
  . next hu =>
    exact ⟨j, hj, rfl, rfl, listed_dissolve hi href hne hends hu _,
      listed_dissolve hi href hne hends hu _, fun hs hg => ⟨hs, hg⟩⟩

/--
A closed invitation without a game may stay behind in one of the two lists.
-/
theorem Linked.drop (h : s.Linked) {client : ClientPtr} {inv : InvitationPtr} {i : Invitation}
    (hi : s.invitations.get? inv = some i) (href : i.refCount = 2) (hclosed : i.state = .closedState)
    (hgame : i.game = none) (hcount : i.refCount = (s.listed i.source inv + s.listed i.target inv : Nat))
    (hdistinct : i.source ≠ i.target) : (s.drop client inv).Linked := by
  rw [drop_shared hi (by omega)]
  have hother : ∀ u, u ≠ inv → ∀ x, (s.unlink client inv).listed x u = s.listed x u := by
    intro u hne x
    simp [listed_unlink, hne]
  constructor
  . intro u j' hj'
    obtain ⟨j, hj, rfl⟩ := Heap.get?_modify_eq_some.mp hj'
    split
    . next heq =>
      subst heq
      obtain rfl := Option.some.inj (hi.symm.trans hj)
      exact .inl ⟨hclosed, hgame⟩
    . next hne =>
      rw [hother u hne, hother u hne]
      exact h.both u j hj
  . intro u j' hj'
    obtain ⟨j, hj, rfl⟩ := Heap.get?_modify_eq_some.mp hj'
    split
    . next heq =>
      subst heq
      obtain rfl := Option.some.inj (hi.symm.trans hj)
      simp only [Invitation.dropRef_source, Invitation.dropRef_target, listed_unlink, and_true]
      have hnot : ¬ (i.source = client ∧ i.target = client) := by
        intro hboth
        exact hdistinct (hboth.1.trans hboth.2.symm)
      by_cases hs : i.source = client
      . have ht : ¬ i.target = client := fun ht => hnot ⟨hs, ht⟩
        rw [if_pos hs, if_neg ht]
        omega
      . rw [if_neg hs]
        split <;> omega
    . next hne =>
      rw [hother u hne, hother u hne]
      exact h.positive u j hj

theorem get?_invite_invitations {source target : ClientPtr} {sourceRole targetRole : GameRole}
    {u : InvitationPtr} {j : Invitation}
    (hj : (s.invite source target sourceRole targetRole).invitations.get? u = some j)
    : (u = s.invitations.next ∧ j = { newInvitation source target sourceRole targetRole with
        refCount := 2 }) ∨ (u ≠ s.invitations.next ∧ s.invitations.get? u = some j) := by
  change (s.invitations.push _).get? u = some j at hj
  rw [Heap.get?_push] at hj
  split at hj
  . next heq => exact .inl ⟨heq, (Option.some.inj hj).symm⟩
  . next hneq => exact .inr ⟨hneq, hj⟩

theorem Linked.invite (h : s.Linked) (hv : s.Valid extra) {source target : ClientPtr}
    {cs ct : Client} {sourceRole targetRole : GameRole} (hne : source ≠ target)
    (hs : s.clients.get? source = some cs) (ht : s.clients.get? target = some ct)
    : (s.invite source target sourceRole targetRole).Linked := by
  have hnew : ∀ x cx, s.clients.get? x = some cx → (source = x ∨ target = x) →
      (s.invite source target sourceRole targetRole).listed x s.invitations.next = 1 := by
    intro x cx hcx hor
    rw [listed_invite hne hcx, listed_of_get? hcx,
      List.count_eq_zero_of_not_mem (hv.next_not_listed hcx)]
    simp [hor]
  have hold : ∀ u j, s.invitations.get? u = some j → u ≠ s.invitations.next →
      (s.invite source target sourceRole targetRole).listed j.source u = s.listed j.source u
        ∧ (s.invite source target sourceRole targetRole).listed j.target u
          = s.listed j.target u := by
    intro u j hj hneq
    obtain ⟨c₁, hc₁, -⟩ := (hv.invitation u j hj).source
    obtain ⟨c₂, hc₂, -⟩ := (hv.invitation u j hj).target
    rw [listed_invite hne hc₁, listed_invite hne hc₂]
    simp [hneq]
  constructor
  . intro u j hj
    rcases get?_invite_invitations hj with ⟨rfl, rfl⟩ | ⟨hneq, hj'⟩
    . exact .inr ⟨hnew source cs hs (.inl rfl), hnew target ct ht (.inr rfl)⟩
    . obtain ⟨h₁, h₂⟩ := hold u j hj' hneq
      rw [h₁, h₂]
      exact h.both u j hj'
  . intro u j hj
    rcases get?_invite_invitations hj with ⟨rfl, rfl⟩ | ⟨hneq, hj'⟩
    . have : (s.invite source target sourceRole targetRole).listed source s.invitations.next = 1 :=
        hnew source cs hs (.inl rfl)
      simp only [newInvitation]
      omega
    . obtain ⟨h₁, h₂⟩ := hold u j hj' hneq
      rw [h₁, h₂]
      exact h.positive u j hj'

theorem listed_modifyClient (client : ClientPtr) {f : Client → Client}
    (hlist : ∀ c, (f c).invitations = c.invitations) (x : ClientPtr) (inv : InvitationPtr)
    : (s.modifyClient client f).listed x inv = s.listed x inv := by
  unfold listed
  rw [modifyClient_clients]
  by_cases heq : x = client
  . subst heq
    cases hx : s.clients.get? x <;> simp [hx, hlist]
  . simp [heq]

theorem Linked.modifyClient (h : s.Linked) (client : ClientPtr) {f : Client → Client}
    (hlist : ∀ c, (f c).invitations = c.invitations) : (s.modifyClient client f).Linked :=
  h.congr (listed_modifyClient client hlist) rfl

theorem Linked.login (h : s.Linked) (client : ClientPtr) (player : PlayerPtr)
    : (s.login client player).Linked := by
  apply (h.modifyClient client
    (f := fun c => { c with player := some player, loggedIn := .loggedIn }) ?_).congr
  . intro x inv
    rfl
  . rfl
  . intro c
    rfl

theorem Linked.leave (h : s.Linked) (client : ClientPtr) (player : PlayerPtr)
    : (s.leave client player).Linked := by
  apply (h.modifyClient client (f := fun c => { c with loggedIn := .loggedOut }) ?_).congr
  . intro x inv
    rfl
  . rfl
  . intro c
    rfl

theorem listed_connect {fd : Int} {x : ClientPtr} {c : Client} (inv : InvitationPtr)
    (hc : s.clients.get? x = some c) : (s.connect fd).listed x inv = s.listed x inv := by
  have hc' : (s.connect fd).clients.get? x = some c := Heap.get?_push_of_get? hc
  rw [listed_of_get? hc, listed_of_get? hc']

theorem Linked.connect (h : s.Linked) (hv : s.Valid extra) (fd : Int)
    : (s.connect fd).Linked := by
  apply h.mono
  intro u i hi
  obtain ⟨cs, hcs, -⟩ := (hv.invitation u i hi).source
  obtain ⟨ct, hct, -⟩ := (hv.invitation u i hi).target
  exact ⟨i, hi, rfl, rfl, listed_connect u hcs, listed_connect u hct, fun hs hg => ⟨hs, hg⟩⟩

theorem Valid.not_involved_of_last (hv : s.Valid extra) {client : ClientPtr} {c : Client}
    (hc : s.clients.get? client = some c) (href : c.refCount = 1)
    (hheld : 0 < s.registered client + extra client) {inv : InvitationPtr} {i : Invitation}
    (hi : s.invitations.get? inv = some i) : i.source ≠ client ∧ i.target ≠ client := by
  have hcount := (hv.client client c hc).refCount
  apply not_involved _ hi
  omega

theorem listed_free_client {client : ClientPtr} {f : Client → Client} {x : ClientPtr}
    (hne : x ≠ client) (inv : InvitationPtr)
    : Store.listed { s with clients := (s.clients.modify client f).free client } x inv
        =
      s.listed x inv := by
  unfold listed
  simp [hne]

theorem Linked.unrefClient (h : s.Linked) (hv : s.Valid extra) {client : ClientPtr}
    (hheld : 0 < s.registered client + extra client) : (s.unrefClient client).Linked := by
  unfold Store.unrefClient
  split
  . next c hc =>
    split
    . next href =>
      apply h.mono
      intro u i hi
      obtain ⟨hs, ht⟩ := hv.not_involved_of_last hc href hheld hi
      exact ⟨i, hi, rfl, rfl, listed_free_client hs u, listed_free_client ht u,
        fun hs hg => ⟨hs, hg⟩⟩
    . exact h.modifyClient client fun c => rfl
  . exact h

theorem unrefClient_invitations (s : Store) (client : ClientPtr)
    : (s.unrefClient client).invitations = s.invitations := by
  unfold unrefClient
  split
  . split <;> rfl
  . rfl

theorem unrefClient_games (s : Store) (client : ClientPtr)
    : (s.unrefClient client).games = s.games := by
  unfold unrefClient
  split
  . split <;> rfl
  . rfl

theorem unregister_clients (client : ClientPtr) (i : Nat)
    : (s.unregister client i).clients = (s.unrefClient client).clients := by
  unfold Store.unregister Store.unrefClient
  dsimp only
  split
  . split <;> rfl
  . rfl

theorem unregister_invitations (client : ClientPtr) (i : Nat)
    : (s.unregister client i).invitations = (s.unrefClient client).invitations := by
  unfold Store.unregister Store.unrefClient
  dsimp only
  split
  . split <;> rfl
  . rfl

theorem Linked.unregister (h : s.Linked) (hv : s.Valid extra) {client : ClientPtr} {i : Nat}
    (hheld : 0 < s.registered client + extra client) : (s.unregister client i).Linked := by
  apply (h.unrefClient hv hheld).congr
  . intro x inv
    rw [listed, listed, unregister_clients]
  . exact unregister_invitations client i

/-! ## The store stays settled -/

theorem Linked.settled (hl : s'.Linked) (h : s.Settled)
    (honline : ∀ inv i', s'.invitations.get? inv = some i' → i'.Active → ∃ i,
      s.invitations.get? inv = some i ∧ i.Active ∧ i'.source = i.source ∧ i'.target = i.target
      ∧ ∀ client c', (i.source = client ∨ i.target = client) →
        s'.clients.get? client = some c' →
          ∃ c, s.clients.get? client = some c ∧ (c.loggedIn = .loggedIn → c'.loggedIn = .loggedIn))
    : s'.Settled where
  both := hl.both
  positive := hl.positive
  online := by
    intro inv i' hi' hactive client c' hor hc'
    obtain ⟨i, hi, hactive', hsource, htarget, hlogged⟩ := honline inv i' hi' hactive
    rw [hsource, htarget] at hor
    obtain ⟨c, hc, hin⟩ := hlogged client c' hor hc'
    exact hin (h.online inv i hi hactive' client c hor hc)

theorem Settled.congr (h : s.Settled) (hclients : s'.clients = s.clients)
    (hinvitations : s'.invitations = s.invitations) : s'.Settled := by
  have hlinked : s'.Linked := by
    apply h.linked.congr _ hinvitations
    intro client inv
    rw [listed, listed, hclients]
  apply hlinked.settled h
  rw [hclients, hinvitations]
  intro u i hi hactive
  exact ⟨i, hi, hactive, rfl, rfl, fun client c' _ hc' => ⟨c', hc', id⟩⟩

theorem Settled.modifyInvitation (h : s.Settled) {inv : InvitationPtr}
    {f : Invitation → Invitation} (hl : (s.modifyInvitation inv f).Linked)
    (hends : ∀ i, (f i).source = i.source ∧ (f i).target = i.target)
    (hactive : ∀ i, s.invitations.get? inv = some i → (f i).Active → i.Active)
    : (s.modifyInvitation inv f).Settled := by
  apply hl.settled h
  intro u i' hi' hactive'
  obtain ⟨i, hi, rfl⟩ := Heap.get?_modify_eq_some.mp hi'
  split at hactive'
  . next heq =>
    subst heq
    rw [if_pos rfl]
    exact ⟨i, hi, hactive i hi hactive', (hends i).1, (hends i).2,
      fun client c' _ hc' => ⟨c', hc', id⟩⟩
  . next hne =>
    rw [if_neg hne]
    exact ⟨i, hi, hactive', rfl, rfl, fun client c' _ hc' => ⟨c', hc', id⟩⟩

theorem Settled.close (h : s.Settled) (inv : InvitationPtr) : (s.close inv).Settled := by
  apply h.modifyInvitation (h.linked.close inv)
  . intro i
    exact ⟨rfl, rfl⟩
  . intro i _ hactive
    simp [Invitation.Active] at hactive

theorem Settled.modifyGame (h : s.Settled) (game : GamePtr) (f : Game → Game)
    : (s.modifyGame game f).Settled := h.congr rfl rfl

theorem Settled.resign (h : s.Settled) (inv : InvitationPtr) (game : GamePtr) (role : GameRole)
    : (s.resign inv game role).Settled :=
  (h.modifyGame game _).close inv

theorem Settled.play (h : s.Settled) (game : GamePtr) (move : GameMove)
    : (s.play game move).Settled := h.modifyGame game _

theorem Settled.post (h : s.Settled) (expected : Int → Rat) (result : PostedResult)
    : (s.post expected result).Settled :=
  h.congr (post_clients expected result) (post_invitations expected result)

theorem Settled.acceptFailed (h : s.Settled) {inv : InvitationPtr} {i : Invitation}
    (hi : s.invitations.get? inv = some i) (hopen : i.state = .openState)
    : (s.acceptFailed inv).Settled := by
  apply h.modifyInvitation (h.linked.acceptFailed hi hopen)
  . intro i
    exact ⟨rfl, rfl⟩
  . intro j _ hactive
    simp [Invitation.Active] at hactive

theorem Settled.accept (h : s.Settled) {inv : InvitationPtr} {i : Invitation}
    (hi : s.invitations.get? inv = some i) (hopen : i.state = .openState)
    : (s.accept inv).Settled := by
  apply (h.linked.accept hi hopen).settled h
  intro u i' hi' hactive
  obtain ⟨j, hj, rfl⟩ := Heap.get?_modify_eq_some.mp hi'
  split at hactive
  . next heq =>
    subst heq
    rw [if_pos rfl]
    obtain rfl := Option.some.inj (hi.symm.trans hj)
    exact ⟨i, hi, .inl hopen, rfl, rfl, fun client c' _ hc' => ⟨c', hc', id⟩⟩
  . next hne =>
    rw [if_neg hne]
    exact ⟨j, hj, hactive, rfl, rfl, fun client c' _ hc' => ⟨c', hc', id⟩⟩

theorem Settled.dissolve (h : s.Settled) {client opponent : ClientPtr} {inv : InvitationPtr}
    {i : Invitation} (hi : s.invitations.get? inv = some i) (href : i.refCount = 2)
    (hne : opponent ≠ client)
    (hends : (i.source = client ∧ i.target = opponent) ∨ (i.source = opponent ∧ i.target = client))
    : (s.dissolve client opponent inv).Settled := by
  apply (h.linked.dissolve hi href hne hends).settled h
  intro u j hj hactive
  rw [get?_dissolve_invitations hi href] at hj
  split at hj
  . simp at hj
  . next hu =>
    refine ⟨j, hj, hactive, rfl, rfl, ?_⟩
    intro x c' _ hc'
    rw [get?_dissolve_clients hi href hne hends, Option.map_eq_some_iff] at hc'
    obtain ⟨c, hc, rfl⟩ := hc'
    refine ⟨c, hc, ?_⟩
    split
    . simp
    . exact id

theorem Settled.drop (h : s.Settled) {client : ClientPtr} {inv : InvitationPtr} {i : Invitation}
    (hi : s.invitations.get? inv = some i) (href : i.refCount = 2) (hclosed : i.state = .closedState)
    (hgame : i.game = none) (hcount : i.refCount = (s.listed i.source inv + s.listed i.target inv : Nat))
    (hdistinct : i.source ≠ i.target) : (s.drop client inv).Settled := by
  apply (h.linked.drop hi href hclosed hgame hcount hdistinct).settled h
  rw [drop_shared hi (by omega)]
  intro u j' hj' hactive
  obtain ⟨j, hj, rfl⟩ := Heap.get?_modify_eq_some.mp hj'
  split at hactive
  . next heq =>
    subst heq
    obtain rfl := Option.some.inj (hi.symm.trans hj)
    simp [Invitation.Active, hclosed] at hactive
  . next hne =>
    rw [if_neg hne]
    refine ⟨j, hj, hactive, rfl, rfl, ?_⟩
    intro x c' _ hc'
    obtain ⟨c, hc, rfl⟩ := Heap.get?_modify_eq_some.mp hc'
    refine ⟨c, hc, ?_⟩
    split
    . rw [Client.unlink_loggedIn]
      exact id
    . exact id

theorem Settled.invite (h : s.Settled) (hv : s.Valid extra) {source target : ClientPtr}
    {cs ct : Client} {sourceRole targetRole : GameRole} (hne : source ≠ target)
    (hs : s.clients.get? source = some cs) (hsin : cs.loggedIn = .loggedIn)
    (ht : s.clients.get? target = some ct) (htin : ct.loggedIn = .loggedIn)
    : (s.invite source target sourceRole targetRole).Settled := by
  have hlinked : (s.invite source target sourceRole targetRole).Linked := h.linked.invite hv hne hs ht
  refine ⟨hlinked.both, hlinked.positive, ?_⟩
  intro u j hj hactive x c' hor hc'
  obtain ⟨c, hc, rfl⟩ := invite_clients_eq_some hne hc'
  have hin : c.loggedIn = .loggedIn := by
    rcases get?_invite_invitations hj with ⟨rfl, rfl⟩ | ⟨hneq, hj'⟩
    . rcases hor with rfl | rfl
      . change s.clients.get? source = some c at hc
        rw [hs, Option.some.injEq] at hc
        exact hc ▸ hsin
      . change s.clients.get? target = some c at hc
        rw [ht, Option.some.injEq] at hc
        exact hc ▸ htin
    . exact h.online u j hj' hactive x c hor hc
  split
  . rwa [Client.addRef_loggedIn, Client.link_loggedIn]
  . exact hin

/-! ## Sessions -/

theorem Settled.modifyClient (h : s.Settled) (client : ClientPtr) {f : Client → Client}
    (hlist : ∀ c, (f c).invitations = c.invitations)
    (hin : ∀ c, s.clients.get? client = some c → c.loggedIn = .loggedIn →
      (f c).loggedIn = .loggedIn ∨ ∀ inv i, s.invitations.get? inv = some i → i.Active →
        i.source ≠ client ∧ i.target ≠ client)
    : (s.modifyClient client f).Settled := by
  apply (h.linked.modifyClient client hlist).settled h
  intro u i hi hactive
  refine ⟨i, hi, hactive, rfl, rfl, ?_⟩
  intro x c' hor hc'
  obtain ⟨c, hc, rfl⟩ := Heap.get?_modify_eq_some.mp hc'
  refine ⟨c, hc, ?_⟩
  split
  . next heq =>
    subst heq
    intro hin'
    cases hin c hc hin' with
    | inl hstay => exact hstay
    | inr hidle =>
      obtain ⟨hs, ht⟩ := hidle u i hi hactive
      exact absurd hor (by simp [hs, ht])
  . exact id

theorem Settled.login (h : s.Settled) (client : ClientPtr) (player : PlayerPtr)
    : (s.login client player).Settled := by
  have := h.modifyClient client
    (f := fun c => { c with player := some player, loggedIn := .loggedIn }) (fun c => rfl)
    (fun c _ _ => .inl rfl)
  exact this.congr rfl rfl

theorem Settled.leave (h : s.Settled) {client : ClientPtr} (player : PlayerPtr)
    (hidle : ∀ inv i, s.invitations.get? inv = some i → i.Active →
      i.source ≠ client ∧ i.target ≠ client)
    : (s.leave client player).Settled := by
  have := h.modifyClient client (f := fun c => { c with loggedIn := .loggedOut })
    (fun c => rfl) (fun c _ _ => .inr hidle)
  exact this.congr rfl rfl

theorem Settled.connect (h : s.Settled) (hv : s.Valid extra) (fd : Int)
    : (s.connect fd).Settled := by
  apply (h.linked.connect hv fd).settled h
  intro u i hi hactive
  refine ⟨i, hi, hactive, rfl, rfl, ?_⟩
  intro x c' hor hc'
  obtain ⟨c, hc, -⟩ := (hv.invitation u i hi).live hor
  have hc'' : (s.connect fd).clients.get? x = some c := Heap.get?_push_of_get? hc
  rw [hc', Option.some.injEq] at hc''
  exact ⟨c, hc, hc'' ▸ id⟩

theorem Settled.unrefClient (h : s.Settled) (hv : s.Valid extra) {client : ClientPtr}
    (hheld : 0 < s.registered client + extra client) : (s.unrefClient client).Settled := by
  apply (h.linked.unrefClient hv hheld).settled h
  unfold Store.unrefClient
  split
  . next c hc =>
    split
    . next href =>
      intro u i hi hactive
      refine ⟨i, hi, hactive, rfl, rfl, ?_⟩
      intro x c' hor hc'
      -- the client that goes takes part in nothing
      have hne : x ≠ client := by
        rintro rfl
        obtain ⟨hs, ht⟩ := hv.not_involved_of_last hc href hheld hi
        exact absurd hor (by simp [hs, ht])
      simp only [Heap.get?_free_ne hne, Heap.get?_modify_ne hne] at hc'
      exact ⟨c', hc', id⟩
    . intro u i hi hactive
      refine ⟨i, hi, hactive, rfl, rfl, ?_⟩
      intro x c' hor hc'
      obtain ⟨c₀, hc₀, rfl⟩ := Heap.get?_modify_eq_some.mp hc'
      refine ⟨c₀, hc₀, ?_⟩
      split
      . exact id
      . exact id
  . intro u i hi hactive
    exact ⟨i, hi, hactive, rfl, rfl, fun x c' _ hc' => ⟨c', hc', id⟩⟩

theorem Settled.unregister (h : s.Settled) (hv : s.Valid extra) {client : ClientPtr} {i : Nat}
    (hmem : client ∈ s.clientRegistry.members) : (s.unregister client i).Settled := by
  have hheld : 0 < s.registered client + extra client := by
    have := List.count_pos_iff.mpr hmem
    unfold registered
    omega
  exact (h.unrefClient hv hheld).congr (unregister_clients client i) (unregister_invitations client i)

/-! ## Every client is referred to -/

def Counted (s : Store) : Prop := ∀ x c, s.clients.get? x = some c → 0 < c.refCount

theorem Counted.congr (h : s.Counted) (hclients : s'.clients = s.clients) : s'.Counted := by
  unfold Counted
  rw [hclients]
  exact h

theorem Counted.modifyClient (h : s.Counted) (client : ClientPtr) {f : Client → Client}
    (hf : ∀ c, s.clients.get? client = some c → 0 < c.refCount → 0 < (f c).refCount)
    : (s.modifyClient client f).Counted := by
  intro x c' hc'
  obtain ⟨c, hc, rfl⟩ := Heap.get?_modify_eq_some.mp hc'
  have hpos := h x c hc
  split
  . next heq =>
    subst heq
    exact hf c hc hpos
  . exact hpos

theorem Counted.drop (h : s.Counted) {client : ClientPtr} {inv : InvitationPtr} {i : Invitation}
    (hi : s.invitations.get? inv = some i) (href : i.refCount = 2) : (s.drop client inv).Counted := by
  rw [drop_shared hi (by omega)]
  apply (h.modifyClient client (f := (·.unlink inv)) ?_).congr
  . rfl
  . intro c _ hpos
    rwa [Client.unlink_refCount]

theorem Counted.dissolve (h : s.Counted) {client opponent : ClientPtr} {c co : Client}
    {inv : InvitationPtr} {i : Invitation} (hi : s.invitations.get? inv = some i)
    (href : i.refCount = 2) (hne : opponent ≠ client)
    (hends : (i.source = client ∧ i.target = opponent) ∨ (i.source = opponent ∧ i.target = client))
    (hc : s.clients.get? client = some c) (hkeep : c.refCount ≠ 1)
    (hco : s.clients.get? opponent = some co) (hkeepo : co.refCount ≠ 1)
    : (s.dissolve client opponent inv).Counted := by
  intro x c' hc'
  rw [get?_dissolve_clients hi href hne hends, Option.map_eq_some_iff] at hc'
  obtain ⟨cx, hcx, rfl⟩ := hc'
  have hpos := h x cx hcx
  split
  . next heq =>
    have hmore : cx.refCount ≠ 1 := by
      cases heq with
      | inl hx =>
        subst hx
        obtain rfl := Option.some.inj (hc.symm.trans hcx)
        exact hkeep
      | inr hx =>
        subst hx
        obtain rfl := Option.some.inj (hco.symm.trans hcx)
        exact hkeepo
    simp only [Client.dropRef_refCount, Client.unlink_refCount]
    omega
  . exact hpos

theorem Counted.invite (h : s.Counted) {source target : ClientPtr} (hne : source ≠ target)
    (sourceRole targetRole : GameRole)
    : (s.invite source target sourceRole targetRole).Counted := by
  intro x c' hc'
  obtain ⟨c, hc, rfl⟩ := invite_clients_eq_some hne hc'
  have hpos : 0 < c.refCount := h x c hc
  split
  . simp only [Client.addRef_refCount, Client.link_refCount]
    omega
  . exact hpos

theorem Counted.connect (h : s.Counted) (fd : Int) : (s.connect fd).Counted := by
  intro x c hc
  change (s.clients.push (newClient fd)).get? x = some c at hc
  rw [Heap.get?_push] at hc
  split at hc
  . obtain rfl := Option.some.inj hc
    exact Int.one_pos
  . exact h x c hc

theorem Counted.unrefClient (h : s.Counted) (client : ClientPtr) : (s.unrefClient client).Counted := by
  unfold Store.unrefClient
  split
  . next c hc =>
    split
    . intro x cx hcx
      by_cases heq : x = client
      . subst heq
        simp at hcx
      . simp only [Heap.get?_free_ne heq, Heap.get?_modify_ne heq] at hcx
        exact h x cx hcx
    . next hmore =>
      apply h.modifyClient
      intro c₀ hc₀ hpos
      obtain rfl := Option.some.inj (hc.symm.trans hc₀)
      simp only [Client.dropRef_refCount]
      omega
  . exact h

end Store

end Jeux
