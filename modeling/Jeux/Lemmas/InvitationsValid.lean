import Jeux.Game.Rules
import Jeux.Lemmas.Valid

/-!
Each change that an operation makes to the store keeps it valid.
-/

namespace Jeux

namespace Store

variable {s s' : Store} {extra : ClientPtr → Nat}

theorem involved_modifyInvitation {inv : InvitationPtr} {f : Invitation → Invitation}
    (hf : ∀ i, (f i).source = i.source ∧ (f i).target = i.target) (client : ClientPtr)
    : (s.modifyInvitation inv f).involved client = s.involved client := by
  unfold involved
  apply Heap.countP_modify_eq
  intro i hi
  simp [hf]

theorem ClientOk.congr {client : ClientPtr} {c : Client} (h : s.ClientOk extra client c)
    (hregistered : s'.registered client = s.registered client)
    (hinvolved : s'.involved client = s.involved client)
    (hplayers : ∀ player ∈ s.playerRegistry.players, player ∈ s'.playerRegistry.players)
    (hends : ∀ inv i, s.invitations.get? inv = some i → (i.source = client ∨ i.target = client) →
      ∃ i', s'.invitations.get? inv = some i' ∧ i'.source = i.source ∧ i'.target = i.target)
    : s'.ClientOk extra client c where
  ids := h.ids
  nodup := h.nodup
  mine := by
    intro inv hinv
    obtain ⟨i, hi, hor⟩ := h.mine inv hinv
    obtain ⟨i', hi', hsource, htarget⟩ := hends inv i hi hor
    exact ⟨i', hi', by rwa [hsource, htarget]⟩
  refCount := by rw [hregistered, hinvolved, h.refCount]
  held := by rw [hregistered]; exact h.held
  player := h.player
  known := by
    intro player hplayer
    exact hplayers player (h.known player hplayer)

theorem InvitationOk.congr {inv : InvitationPtr} {i i' : Invitation} (h : s.InvitationOk inv i)
    (hends : i'.source = i.source ∧ i'.target = i.target)
    (hroles : i'.sourceRole = i.sourceRole ∧ i'.targetRole = i.targetRole)
    (hcount : i'.refCount = (s'.listed i.source inv + s'.listed i.target inv : Nat))
    (hlive : ∀ client c, (i.source = client ∨ i.target = client) →
      s.clients.get? client = some c → ∃ c', s'.clients.get? client = some c' ∧
        (c.player ≠ none → c'.player ≠ none))
    (hgame : i'.game = i.game ∧ (i.game ≠ none → i'.state ≠ .openState))
    (hgames : ∀ game g, i.game = some game → s.games.get? game = some g →
      ∃ g', s'.games.get? game = some g' ∧ g'.refCount = g.refCount)
    (hback : ∀ inv' j', s'.invitations.get? inv' = some j' →
      j'.game = none ∨ ∃ j, s.invitations.get? inv' = some j ∧ j'.game = j.game)
    : s'.InvitationOk inv i' where
  distinct := by rw [hends.1, hends.2]; exact h.distinct
  roles := by rw [hroles.1, hroles.2]; exact h.roles
  source := by
    obtain ⟨c, hc, hplayer⟩ := h.source
    obtain ⟨c', hc', hplayer'⟩ := hlive i.source c (.inl rfl) hc
    rw [hends.1]
    exact ⟨c', hc', hplayer' hplayer⟩
  target := by
    obtain ⟨c, hc, hplayer⟩ := h.target
    obtain ⟨c', hc', hplayer'⟩ := hlive i.target c (.inr rfl) hc
    rw [hends.2]
    exact ⟨c', hc', hplayer' hplayer⟩
  refCount := by rw [hends.1, hends.2, hcount]
  game := by
    intro game hown
    rw [hgame.1] at hown
    obtain ⟨-, g, hg, href⟩ := h.game game hown
    obtain ⟨g', hg', href'⟩ := hgames game g hown hg
    exact ⟨hgame.2 (by simp [hown]), g', hg', by rw [href', href]⟩
  own := by
    intro game inv' j' hown hj' hother
    rw [hgame.1] at hown
    cases hback inv' j' hj' with
    | inl hnone => simp [hnone] at hother
    | inr hsame =>
      obtain ⟨j, hj, hsame⟩ := hsame
      exact h.own game inv' j hown hj (by rw [← hsame, hother])

theorem Valid.modifyInvitation (h : s.Valid extra) {inv : InvitationPtr}
    {f : Invitation → Invitation}
    (hends : ∀ i, (f i).source = i.source ∧ (f i).target = i.target)
    (hroles : ∀ i, (f i).sourceRole = i.sourceRole ∧ (f i).targetRole = i.targetRole)
    (hcount : ∀ i, (f i).refCount = i.refCount)
    (hgame : ∀ i, s.invitations.get? inv = some i →
      (f i).game = i.game ∧ (i.game ≠ none → (f i).state ≠ .openState))
    : (s.modifyInvitation inv f).Valid extra where
  registry := h.registry
  held_live := h.held_live
  client := by
    intro client c hc
    refine ClientOk.congr (h.client client c hc) rfl (involved_modifyInvitation hends client)
      (fun _ hp => hp) ?_
    intro inv' i hi _
    refine ⟨_, Heap.get?_modify_eq_some.mpr ⟨i, hi, rfl⟩, ?_⟩
    split
    . exact hends i
    . exact ⟨rfl, rfl⟩
  invitation := by
    intro inv' i' hi'
    obtain ⟨i, hi, rfl⟩ := Heap.get?_modify_eq_some.mp hi'
    have hok := h.invitation inv' i hi
    refine InvitationOk.congr hok ?_ ?_ ?_ (fun client c _ hc => ⟨c, hc, id⟩) ?_
      (fun game g _ hg => ⟨g, hg, rfl⟩) ?_
    . split
      . exact hends i
      . exact ⟨rfl, rfl⟩
    . split
      . exact hroles i
      . exact ⟨rfl, rfl⟩
    . split
      . rw [hcount]
        exact hok.refCount
      . exact hok.refCount
    . split
      . next heq =>
        subst heq
        exact hgame i hi
      . exact ⟨rfl, hok.state_ne_open⟩
    . intro inv'' j' hj'
      obtain ⟨j, hj, rfl⟩ := Heap.get?_modify_eq_some.mp hj'
      refine .inr ⟨j, hj, ?_⟩
      split
      . next heq =>
        subst heq
        exact (hgame j hj).1
      . rfl
  owned := by
    intro game g hg
    obtain ⟨inv', i, hi, hown⟩ := h.owned game g hg
    refine ⟨inv', _, Heap.get?_modify_eq_some.mpr ⟨i, hi, rfl⟩, ?_⟩
    split
    . next heq =>
      subst heq
      rw [(hgame i hi).1, hown]
    . exact hown
  players_nodup := h.players_nodup
  player := h.player

theorem Valid.modifyGame (h : s.Valid extra) {game : GamePtr} {f : Game → Game}
    (hcount : ∀ g, (f g).refCount = g.refCount) : (s.modifyGame game f).Valid extra where
  registry := h.registry
  held_live := h.held_live
  client := by
    intro client c hc
    exact ClientOk.congr (h.client client c hc) rfl rfl (fun _ hp => hp)
      fun inv i hi _ => ⟨i, hi, rfl, rfl⟩
  invitation := by
    intro inv i hi
    have hok := h.invitation inv i hi
    refine InvitationOk.congr hok ⟨rfl, rfl⟩ ⟨rfl, rfl⟩ hok.refCount (fun client c _ hc => ⟨c, hc, id⟩)
      ⟨rfl, hok.state_ne_open⟩ ?_ fun inv' j hj => .inr ⟨j, hj, rfl⟩
    . intro game' g _ hg
      refine ⟨_, Heap.get?_modify_eq_some.mpr ⟨g, hg, rfl⟩, ?_⟩
      split
      . exact hcount g
      . rfl
  owned := by
    intro game' g hg
    obtain ⟨g, hg, -⟩ := Heap.get?_modify_eq_some.mp hg
    exact h.owned game' g hg
  players_nodup := h.players_nodup
  player := h.player

/-! ## Taking an invitation out of a list -/

theorem listed_unlink (client x : ClientPtr) (inv u : InvitationPtr)
    : (s.unlink client inv).listed x u
        =
      s.listed x u - if x = client ∧ u = inv then 1 else 0 := by
  unfold listed
  rw [unlink_clients]
  by_cases heq : x = client
  . subst heq
    rw [Heap.get?_modify_self]
    cases s.clients.get? x with
    | none => simp
    | some c =>
      simp only [Option.map_some, Client.unlink_invitations, List.count_erase, beq_iff_eq, true_and,
        eq_comm (a := u)]
  . simp [heq]

theorem sessions_unlink (client : ClientPtr) (inv : InvitationPtr) (player : PlayerPtr)
    : (s.unlink client inv).sessions player = s.sessions player := by
  unfold sessions
  apply Heap.countP_modify_eq
  intro c hc
  simp

theorem Valid.unlink (h : s.Valid extra) {client : ClientPtr} {c : Client} {inv : InvitationPtr}
    (hc : s.clients.get? client = some c) (hinv : inv ∈ c.invitations)
    : (s.unlink client inv).Valid extra where
  registry := h.registry
  held_live := by
    intro x hx
    obtain ⟨cx, hcx⟩ := h.held_live x hx
    exact ⟨_, Heap.get?_modify_eq_some.mpr ⟨cx, hcx, rfl⟩⟩
  client := by
    intro x cx' hx
    obtain ⟨cx, hcx, rfl⟩ := Heap.get?_modify_eq_some.mp hx
    have hok : (s.unlink client inv).ClientOk extra x cx := by
      refine ClientOk.congr (h.client x cx hcx) rfl
        (involved_modifyInvitation (by intro i; exact ⟨rfl, rfl⟩) x) (fun _ hp => hp) ?_
      intro u i hi _
      refine ⟨_, Heap.get?_modify_eq_some.mpr ⟨i, hi, rfl⟩, ?_⟩
      split <;> exact ⟨rfl, rfl⟩
    split
    . constructor
      . exact hok.ids.unlink inv
      . rw [Client.unlink_invitations]
        exact hok.nodup.erase inv
      . intro u hu
        rw [Client.unlink_invitations] at hu
        exact hok.mine u (List.mem_of_mem_erase hu)
      . simpa using hok.refCount
      . simpa using hok.held
      . simpa using hok.player
      . simpa using hok.known
    . exact hok
  invitation := by
    intro u i' hi'
    obtain ⟨i, hi, rfl⟩ := Heap.get?_modify_eq_some.mp hi'
    have hok := h.invitation u i hi
    refine InvitationOk.congr hok ?_ ?_ ?_ ?_ ?_ (fun game g _ hg => ⟨g, hg, rfl⟩) ?_
    . split <;> exact ⟨rfl, rfl⟩
    . split <;> exact ⟨rfl, rfl⟩
    . rw [listed_unlink, listed_unlink]
      have hcount := hok.refCount
      split
      . next heq =>
        subst heq
        obtain ⟨j, hj, hor⟩ := (h.client client c hc).mine u hinv
        rw [show s.invitations.get? u = some i from hi, Option.some.injEq] at hj
        subst hj
        have hone := h.listed_eq_one hc hinv
        have hdistinct := hok.distinct
        rw [Invitation.dropRef_refCount, hcount]
        cases hor with
        | inl hsource =>
          subst hsource
          simp only [hone, hdistinct.symm, and_true, ↓reduceIte]
          omega
        | inr htarget =>
          subst htarget
          simp only [hone, hdistinct, and_true, ↓reduceIte]
          omega
      . next hne =>
        rw [hcount]
        simp [hne]
    . intro x cx _ hcx
      refine ⟨_, Heap.get?_modify_eq_some.mpr ⟨cx, hcx, rfl⟩, ?_⟩
      split
      . rw [Client.unlink_player]
        exact id
      . exact id
    . split <;> exact ⟨rfl, hok.state_ne_open⟩
    . intro u' j' hj'
      obtain ⟨j, hj, rfl⟩ := Heap.get?_modify_eq_some.mp hj'
      refine .inr ⟨j, hj, ?_⟩
      split <;> rfl
  owned := by
    intro game g hg
    obtain ⟨u, i, hi, hown⟩ := h.owned game g hg
    refine ⟨u, _, Heap.get?_modify_eq_some.mpr ⟨i, hi, rfl⟩, ?_⟩
    split <;> exact hown
  players_nodup := h.players_nodup
  player := by
    intro player hplayer
    obtain ⟨p, hp, hcount⟩ := h.player player hplayer
    exact ⟨p, hp, by rw [sessions_unlink, hcount]⟩

/-! ## The end of an invitation -/

theorem release_clients_eq_some {inv : InvitationPtr} {i : Invitation} {client : ClientPtr}
    {c : Client} (hdistinct : i.source ≠ i.target)
    (hc : (s.release inv i).clients.get? client = some c)
    : ∃ c', s.clients.get? client = some c'
        ∧ c = if i.source = client ∨ i.target = client then c'.dropRef else c' := by
  obtain ⟨c₁, hc₁, rfl⟩ := Heap.get?_modify_eq_some.mp hc
  obtain ⟨c₀, hc₀, rfl⟩ := Heap.get?_modify_eq_some.mp hc₁
  refine ⟨c₀, hc₀, ?_⟩
  by_cases hs : i.source = client
  . subst hs
    simp [hdistinct]
  . by_cases ht : i.target = client
    . subst ht
      simp [Ne.symm hs]
    . simp [hs, ht, Ne.symm hs, Ne.symm ht]

theorem exists_release_client (inv : InvitationPtr) (i : Invitation) {client : ClientPtr}
    {c : Client} (hc : s.clients.get? client = some c)
    : ∃ c', (s.release inv i).clients.get? client = some c'
        ∧ c'.player = c.player ∧ c'.invitations = c.invitations := by
  refine ⟨_, Heap.get?_modify_eq_some.mpr
    ⟨_, Heap.get?_modify_eq_some.mpr ⟨c, hc, rfl⟩, rfl⟩, ?_, ?_⟩
  . split <;> split <;> rfl
  . split <;> split <;> rfl

theorem listed_release (inv u : InvitationPtr) (i : Invitation) (client : ClientPtr)
    : (s.release inv i).listed client u = s.listed client u := by
  cases hc : s.clients.get? client with
  | none => simp [listed, release, hc, Heap.get?_modify]
  | some c =>
    obtain ⟨c', hc', -, hlist⟩ := exists_release_client inv i hc
    rw [listed_of_get? hc, listed_of_get? hc', hlist]

theorem involved_release {inv : InvitationPtr} {i : Invitation}
    (hi : s.invitations.get? inv = some i) (client : ClientPtr)
    : (s.release inv i).involved client + (if i.source = client ∨ i.target = client then 1 else 0)
        =
      s.involved client := by
  have := Heap.countP_free (P := fun i => i.source = client ∨ i.target = client) hi
  simpa [involved, release] using this

theorem sessions_release (inv : InvitationPtr) (i : Invitation) (player : PlayerPtr)
    : (s.release inv i).sessions player = s.sessions player := by
  unfold sessions release
  dsimp only
  rw [Heap.countP_modify_eq (by intros; rfl), Heap.countP_modify_eq (by intros; rfl)]

theorem Valid.release (h : s.Valid extra) {inv : InvitationPtr} {i : Invitation}
    (hi : s.invitations.get? inv = some i) (href : i.refCount = 0)
    : (s.release inv i).Valid extra := by
  have hoki := h.invitation inv i hi
  have hunlisted : ∀ x cx, s.clients.get? x = some cx → inv ∉ cx.invitations := by
    intro x cx hcx hmem
    have hcount := hoki.refCount
    have hone := h.listed_eq_one hcx hmem
    obtain ⟨j, hj, hor⟩ := (h.client x cx hcx).mine inv hmem
    rw [hi, Option.some.injEq] at hj
    subst hj
    cases hor with
    | inl hs =>
      subst hs
      omega
    | inr ht =>
      subst ht
      omega
  have hgames : ∀ u j game g, u ≠ inv → s.invitations.get? u = some j → j.game = some game →
      s.games.get? game = some g → (s.release inv i).games.get? game = some g := by
    intro u j game g hne hj hown hg
    unfold Store.release
    dsimp only
    split
    . next game' hgame' =>
      have hdiff : game ≠ game' := by
        intro heq
        subst heq
        exact hne (hoki.own game u j hgame' hj hown)
      simp [hdiff, hg]
    . exact hg
  constructor
  case registry => exact h.registry
  case held_live =>
    intro x hx
    obtain ⟨cx, hcx⟩ := h.held_live x hx
    obtain ⟨c', hc', -⟩ := exists_release_client inv i hcx
    exact ⟨c', hc'⟩
  case client =>
    intro x cx hx
    obtain ⟨c₀, hc₀, rfl⟩ := release_clients_eq_some hoki.distinct hx
    have hok := h.client x c₀ hc₀
    have hinvolved := involved_release hi x
    have hregistered : (s.release inv i).registered x = s.registered x := rfl
    have hmine : ∀ u ∈ c₀.invitations, ∃ j, (s.release inv i).invitations.get? u = some j
        ∧ (j.source = x ∨ j.target = x) := by
      intro u hu
      obtain ⟨j, hj, hor⟩ := hok.mine u hu
      have hne : u ≠ inv := by
        intro heq
        subst heq
        exact hunlisted x c₀ hc₀ hu
      exact ⟨j, by simp [Store.release, hne, hj], hor⟩
    have hcount := hok.refCount
    split
    . next hor =>
      rw [if_pos hor] at hinvolved
      refine ⟨hok.ids.congr rfl rfl rfl rfl, hok.nodup, hmine, ?_, hok.held, hok.player, hok.known⟩
      rw [Client.dropRef_refCount, hregistered]
      omega
    . next hor =>
      rw [if_neg hor] at hinvolved
      refine ⟨hok.ids, hok.nodup, hmine, ?_, hok.held, hok.player, hok.known⟩
      rw [hregistered]
      omega
  case invitation =>
    intro u j hu
    have hne : u ≠ inv := by
      intro heq
      subst heq
      simp [Store.release] at hu
    have hj : s.invitations.get? u = some j := by simpa [Store.release, hne] using hu
    have hok := h.invitation u j hj
    refine InvitationOk.congr hok ⟨rfl, rfl⟩ ⟨rfl, rfl⟩ ?_ ?_ ⟨rfl, hok.state_ne_open⟩ ?_ ?_
    . rw [listed_release, listed_release]
      exact hok.refCount
    . intro x cx _ hcx
      obtain ⟨c', hc', hplayer, -⟩ := exists_release_client inv i hcx
      exact ⟨c', hc', by rw [hplayer]; exact id⟩
    . intro game g hown hg
      exact ⟨g, hgames u j game g hne hj hown hg, rfl⟩
    . intro u' j' hj'
      have hne' : u' ≠ inv := by
        intro heq
        subst heq
        simp [Store.release] at hj'
      exact .inr ⟨j', by simpa [Store.release, hne'] using hj', rfl⟩
  case owned =>
    intro game g hg
    have hlive : s.games.get? game = some g ∧ i.game ≠ some game := by
      unfold Store.release at hg
      dsimp only at hg
      split at hg
      . next game' hgame' =>
        by_cases heq : game = game'
        . subst heq
          simp at hg
        . simp only [Heap.get?_free, heq, ↓reduceIte, ne_eq, not_false_eq_true,
            Heap.get?_modify_ne] at hg
          refine ⟨hg, ?_⟩
          rw [hgame', ne_eq, Option.some.injEq]
          exact fun h => heq h.symm
      . next hnone => exact ⟨hg, by simp [hnone]⟩
    obtain ⟨u, j, hj, hown⟩ := h.owned game g hlive.1
    have hne : u ≠ inv := by
      intro heq
      subst heq
      rw [hi, Option.some.injEq] at hj
      subst hj
      exact hlive.2 hown
    exact ⟨u, j, by simp [Store.release, hne, hj], hown⟩
  case players_nodup => exact h.players_nodup
  case player =>
    intro player hplayer
    obtain ⟨p, hp, hcount⟩ := h.player player hplayer
    exact ⟨p, hp, by rw [sessions_release, hcount]⟩

theorem Valid.drop (h : s.Valid extra) {client : ClientPtr} {c : Client} {inv : InvitationPtr}
    (hc : s.clients.get? client = some c) (hinv : inv ∈ c.invitations)
    : (s.drop client inv).Valid extra := by
  unfold Store.drop
  split
  . next i hi =>
    split
    . next href =>
      have hi' : (s.unlink client inv).invitations.get? inv = some i.dropRef := by simp [hi]
      have := (h.unlink hc hinv).release hi' (by simp [href])
      exact this
    . exact h.unlink hc hinv
  . exact h

/-! ## Changes to invitations and games -/

theorem Valid.close (h : s.Valid extra) (inv : InvitationPtr) : (s.close inv).Valid extra := by
  apply h.modifyInvitation
  . intro i
    exact ⟨rfl, rfl⟩
  . intro i
    exact ⟨rfl, rfl⟩
  . intro i
    rfl
  . intro i _
    exact ⟨rfl, by simp⟩

theorem gameResign_refCount (g : Game) (role : GameRole)
    : (gameResign g role).2.refCount = g.refCount := by
  unfold gameResign
  split <;> rfl

theorem Valid.resign (h : s.Valid extra) (inv : InvitationPtr) (game : GamePtr) (role : GameRole)
    : (s.resign inv game role).Valid extra := by
  apply Valid.close
  apply h.modifyGame
  intro g
  exact gameResign_refCount g role

theorem Valid.play (h : s.Valid extra) (game : GamePtr) (move : GameMove)
    : (s.play game move).Valid extra := by
  apply h.modifyGame
  intro g
  exact gameApplyMove_refCount g move

theorem Valid.acceptFailed (h : s.Valid extra) {inv : InvitationPtr} {i : Invitation}
    (hi : s.invitations.get? inv = some i) (hnone : i.game = none)
    : (s.acceptFailed inv).Valid extra := by
  apply h.modifyInvitation
  . intro j
    exact ⟨rfl, rfl⟩
  . intro j
    exact ⟨rfl, rfl⟩
  . intro j
    rfl
  . intro j hj
    rw [hi, Option.some.injEq] at hj
    subst hj
    exact ⟨hnone.symm, by simp⟩

theorem involved_accept (inv : InvitationPtr) (client : ClientPtr)
    : (s.accept inv).involved client = s.involved client := by
  unfold involved Store.accept
  apply Heap.countP_modify_eq
  intro i hi
  rfl

theorem Valid.accept (h : s.Valid extra) {inv : InvitationPtr} {i : Invitation}
    (hi : s.invitations.get? inv = some i) (hnone : i.game = none)
    : (s.accept inv).Valid extra where
  registry := h.registry
  held_live := h.held_live
  client := by
    intro client c hc
    refine ClientOk.congr (h.client client c hc) rfl (involved_accept inv client) (fun _ hp => hp) ?_
    intro u j hj _
    refine ⟨_, Heap.get?_modify_eq_some.mpr ⟨j, hj, rfl⟩, ?_⟩
    split <;> exact ⟨rfl, rfl⟩
  invitation := by
    intro u j' hj'
    obtain ⟨j, hj, rfl⟩ := Heap.get?_modify_eq_some.mp hj'
    have hok := h.invitation u j hj
    have hold : ∀ u' j game, s.invitations.get? u' = some j → j.game = some game →
        game ≠ s.games.next := by
      intro u' j game hj hown
      obtain ⟨-, g, hg, -⟩ := (h.invitation u' j hj).game game hown
      exact Heap.ne_next_of_get? hg
    split
    . next heq =>
      subst heq
      rw [hi, Option.some.injEq] at hj
      subst hj
      refine ⟨hok.distinct, hok.roles, hok.source, hok.target, hok.refCount, ?_, ?_⟩
      . intro game hown
        simp only [Option.some.injEq] at hown
        subst hown
        exact ⟨by simp, gameCreate, by simp [Store.accept], rfl⟩
      . intro game u' j' hown hother hother'
        simp only [Option.some.injEq] at hown
        subst hown
        obtain ⟨j, hj, rfl⟩ := Heap.get?_modify_eq_some.mp hother
        split at hother'
        . next heq => exact heq
        . exact absurd rfl (hold u' j _ hj hother')
    . next hne =>
      refine ⟨hok.distinct, hok.roles, hok.source, hok.target, hok.refCount, ?_, ?_⟩
      . intro game hown
        obtain ⟨hstate, g, hg, href⟩ := hok.game game hown
        exact ⟨hstate, g, Heap.get?_push_of_get? hg, href⟩
      . intro game u' j' hown hother hother'
        obtain ⟨j'', hj'', rfl⟩ := Heap.get?_modify_eq_some.mp hother
        split at hother'
        . simp only [Option.some.injEq] at hother'
          exact absurd hother'.symm (hold u j game hj hown)
        . exact hok.own game u' j'' hown hj'' hother'
  owned := by
    intro game g hg
    simp only [Store.accept, Heap.get?_push] at hg
    split at hg
    . next heq => exact ⟨inv, _, Heap.get?_modify_eq_some.mpr ⟨i, hi, rfl⟩, by simp [heq]⟩
    . obtain ⟨u, j, hj, hown⟩ := h.owned game g hg
      have hne : u ≠ inv := by
        intro heq
        subst heq
        rw [hi, Option.some.injEq] at hj
        subst hj
        simp [hnone] at hown
      exact ⟨u, _, Heap.get?_modify_eq_some.mpr ⟨j, hj, rfl⟩, by simp [hne, hown]⟩
  players_nodup := h.players_nodup
  player := h.player

theorem invite_clients_eq_some {source target client : ClientPtr} {sourceRole targetRole : GameRole}
    {c : Client} (hne : source ≠ target)
    (hc : (s.invite source target sourceRole targetRole).clients.get? client = some c)
    : ∃ c', s.clients.get? client = some c'
        ∧ c = if source = client ∨ target = client then (c'.link s.invitations.next).addRef else c' := by
  obtain ⟨c₁, hc₁, rfl⟩ := Heap.get?_modify_eq_some.mp hc
  obtain ⟨c₀, hc₀, rfl⟩ := Heap.get?_modify_eq_some.mp hc₁
  refine ⟨c₀, hc₀, ?_⟩
  by_cases hs : source = client
  . subst hs
    simp [hne]
  . by_cases ht : target = client
    . subst ht
      simp [Ne.symm hs]
    . simp [hs, ht, Ne.symm hs, Ne.symm ht]

theorem exists_invite_client (source target : ClientPtr) (sourceRole targetRole : GameRole)
    {client : ClientPtr} {c : Client} (hc : s.clients.get? client = some c)
    : ∃ c', (s.invite source target sourceRole targetRole).clients.get? client = some c'
        ∧ c'.player = c.player := by
  refine ⟨_, Heap.get?_modify_eq_some.mpr ⟨_, Heap.get?_modify_eq_some.mpr ⟨c, hc, rfl⟩, rfl⟩, ?_⟩
  split <;> split <;> simp

theorem Valid.next_not_listed (h : s.Valid extra) {client : ClientPtr} {c : Client}
    (hc : s.clients.get? client = some c) : s.invitations.next ∉ c.invitations := by
  intro hmem
  obtain ⟨i, hi, -⟩ := (h.client client c hc).mine _ hmem
  simp at hi

theorem listed_invite {source target client : ClientPtr} {sourceRole targetRole : GameRole}
    {c : Client} (hne : source ≠ target) (hc : s.clients.get? client = some c) (u : InvitationPtr)
    : (s.invite source target sourceRole targetRole).listed client u
        =
      s.listed client u
        + if (source = client ∨ target = client) ∧ u = s.invitations.next then 1 else 0 := by
  obtain ⟨c', hc', -⟩ :=
    exists_invite_client source target sourceRole targetRole hc
  obtain ⟨c₀, hc₀, heq⟩ := invite_clients_eq_some hne hc'
  rw [hc, Option.some.injEq] at hc₀
  subst hc₀
  rw [listed_of_get? hc, listed_of_get? hc']
  subst heq
  split
  . next hor =>
    have : ((c.link s.invitations.next).addRef).invitations = s.invitations.next :: c.invitations :=
      rfl
    rw [this, List.count_cons]
    simp [hor, eq_comm (a := u)]
  . next hor => simp [hor]

theorem sessions_invite (source target : ClientPtr) (sourceRole targetRole : GameRole)
    (player : PlayerPtr)
    : (s.invite source target sourceRole targetRole).sessions player = s.sessions player := by
  unfold sessions invite
  dsimp only
  rw [Heap.countP_modify_eq (by intros; simp), Heap.countP_modify_eq (by intros; simp)]

theorem Valid.invite (h : s.Valid extra) {source target : ClientPtr} {cs ct : Client}
    {sourceRole targetRole : GameRole} (hne : source ≠ target)
    (hroles : (sourceRole = .firstPlayerRole ∧ targetRole = .secondPlayerRole)
      ∨ (sourceRole = .secondPlayerRole ∧ targetRole = .firstPlayerRole))
    (hs : s.clients.get? source = some cs) (hsplayer : cs.player ≠ none)
    (ht : s.clients.get? target = some ct) (htplayer : ct.player ≠ none)
    : (s.invite source target sourceRole targetRole).Valid extra where
  registry := h.registry
  held_live := by
    intro x hx
    obtain ⟨cx, hcx⟩ := h.held_live x hx
    obtain ⟨c', hc', -⟩ := exists_invite_client source target sourceRole targetRole hcx
    exact ⟨c', hc'⟩
  client := by
    intro x cx hx
    obtain ⟨c₀, hc₀, rfl⟩ := invite_clients_eq_some hne hx
    have hok := h.client x c₀ hc₀
    have hmine : ∀ u ∈ c₀.invitations,
        ∃ j, (s.invite source target sourceRole targetRole).invitations.get? u = some j
          ∧ (j.source = x ∨ j.target = x) := by
      intro u hu
      obtain ⟨j, hj, hor⟩ := hok.mine u hu
      exact ⟨j, Heap.get?_push_of_get? hj, hor⟩
    have hinvolved : (s.invite source target sourceRole targetRole).involved x
        = s.involved x + if source = x ∨ target = x then 1 else 0 := by
      simp [involved, Store.invite, newInvitation]
    have hregistered : (s.invite source target sourceRole targetRole).registered x
        = s.registered x := rfl
    have hcount := hok.refCount
    split
    . next hor =>
      rw [if_pos hor] at hinvolved
      constructor
      . exact (hok.ids.link s.invitations.next).congr rfl rfl rfl rfl
      . exact List.nodup_cons.mpr ⟨h.next_not_listed hc₀, hok.nodup⟩
      . intro u hu
        cases List.mem_cons.mp hu with
        | inl heq =>
          subst heq
          exact ⟨_, Heap.get?_push_next, hor⟩
        | inr hmem => exact hmine u hmem
      . rw [Client.addRef_refCount, Client.link_refCount, hregistered]
        omega
      . rw [Client.addRef_loggedIn, Client.link_loggedIn]
        exact hok.held
      . rw [Client.addRef_loggedIn, Client.link_loggedIn, Client.addRef_player, Client.link_player]
        exact hok.player
      . rw [Client.addRef_player, Client.link_player]
        exact hok.known
    . next hor =>
      rw [if_neg hor] at hinvolved
      refine ⟨hok.ids, hok.nodup, hmine, ?_, hok.held, hok.player, hok.known⟩
      rw [hregistered]
      omega
  invitation := by
    intro u j hu
    have hu' : (s.invitations.push { newInvitation source target sourceRole targetRole with
      refCount := 2 }).get? u = some j := hu
    rw [Heap.get?_push] at hu'
    split at hu'
    . next heq =>
      subst heq
      simp only [Option.some.injEq] at hu'
      subst hu'
      constructor
      . exact hne
      . exact hroles
      . obtain ⟨c', hc', hplayer⟩ := exists_invite_client source target sourceRole targetRole hs
        exact ⟨c', hc', by rw [hplayer]; exact hsplayer⟩
      . obtain ⟨c', hc', hplayer⟩ := exists_invite_client source target sourceRole targetRole ht
        exact ⟨c', hc', by rw [hplayer]; exact htplayer⟩
      . dsimp only [newInvitation]
        rw [listed_invite hne hs, listed_invite hne ht, listed_of_get? hs, listed_of_get? ht,
          List.count_eq_zero_of_not_mem (h.next_not_listed hs),
          List.count_eq_zero_of_not_mem (h.next_not_listed ht)]
        simp
      . intro game hown
        simp [newInvitation] at hown
      . intro game u' j' hown
        simp [newInvitation] at hown
    . next hnext =>
      have hok := h.invitation u j hu'
      obtain ⟨c₁, hc₁, -⟩ := hok.source
      obtain ⟨c₂, hc₂, -⟩ := hok.target
      refine InvitationOk.congr hok ⟨rfl, rfl⟩ ⟨rfl, rfl⟩ ?_ ?_ ⟨rfl, hok.state_ne_open⟩
        (fun game g _ hg => ⟨g, hg, rfl⟩) ?_
      . rw [listed_invite hne hc₁, listed_invite hne hc₂, hok.refCount]
        simp [hnext]
      . intro x cx _ hcx
        obtain ⟨c', hc', hplayer⟩ := exists_invite_client source target sourceRole targetRole hcx
        exact ⟨c', hc', by rw [hplayer]; exact id⟩
      . intro u' j' hj'
        have hj'' : (s.invitations.push { newInvitation source target sourceRole targetRole with
          refCount := 2 }).get? u' = some j' := hj'
        rw [Heap.get?_push] at hj''
        split at hj''
        . simp only [Option.some.injEq] at hj''
          subst hj''
          exact .inl rfl
        . exact .inr ⟨j', hj'', rfl⟩
  owned := by
    intro game g hg
    obtain ⟨u, j, hj, hown⟩ := h.owned game g hg
    exact ⟨u, j, Heap.get?_push_of_get? hj, hown⟩
  players_nodup := h.players_nodup
  player := by
    intro player hplayer
    obtain ⟨p, hp, hcount⟩ := h.player player hplayer
    exact ⟨p, hp, by rw [sessions_invite, hcount]⟩

end Store

end Jeux
