import Jeux.Lemmas.Shared
import Jeux.Util.Parallel

/-!
The same done to two stores. What is new may have another address in the second store than in the
first, so invitations and games are renamed.
-/

namespace Jeux

structure Renaming where
  invitation : InvitationPtr → InvitationPtr
  game : GamePtr → GamePtr
  invitation_involutive : Function.Involutive invitation
  game_involutive : Function.Involutive game

namespace Client

variable {c : Client} {inv : InvitationPtr} {ρ : InvitationPtr → InvitationPtr}

@[simps]
def rename (ρ : InvitationPtr → InvitationPtr) (c : Client) : Client :=
  { c with
    inviteHead := c.inviteHead.map fun node => { node with invitation := ρ node.invitation } }

theorem rename_eq_self (hρ : ∀ u ∈ c.invitations, ρ u = u) : c.rename ρ = c := by
  have hmap : (c.inviteHead.map fun node => { node with invitation := ρ node.invitation })
      = c.inviteHead := by
    rw [List.map_congr_left (g := id), List.map_id]
    intro node hmem
    rw [hρ _ (List.mem_map_of_mem hmem)]
    rfl
  rw [rename, hmap]

theorem nodeFor?_rename (hρ : Function.Injective ρ) (hinv : ρ inv = inv)
    : (c.rename ρ).nodeFor? inv
        =
      (c.nodeFor? inv).map fun node => { node with invitation := ρ node.invitation } := by
  have hp : ∀ u, (ρ u = inv) = (u = inv) := by
    intro u
    rw [← hρ.eq_iff (a := u), hinv]
  simp only [nodeFor?, rename_inviteHead, List.find?_map, Function.comp_def, hp]

theorem eraseNode_rename (hρ : Function.Injective ρ) (hinv : ρ inv = inv)
    : (c.rename ρ).eraseNode inv = (c.eraseNode inv).rename ρ := by
  have hp : ∀ u, (ρ u = inv) = (u = inv) := by
    intro u
    rw [← hρ.eq_iff (a := u), hinv]
  simp only [eraseNode, rename, List.eraseP_map, Function.comp_def, hp]

theorem unlink_rename (hρ : Function.Injective ρ) (hinv : ρ inv = inv)
    : (c.unlink inv).rename ρ = (c.rename ρ).unlink inv := by
  unfold unlink
  rw [nodeFor?_rename hρ hinv, eraseNode_rename hρ hinv]
  cases c.nodeFor? inv with
  | none => rfl
  | some node => rfl

theorem grown_rename : (c.rename ρ).grown = c.grown.rename ρ := by
  unfold grown
  simp only [rename_idUsage, rename_currentIdSize]
  split <;> rfl

theorem takeId_rename : (c.rename ρ).takeId = (c.takeId.1, c.takeId.2.rename ρ) := by
  unfold takeId
  simp only [rename_availableIds]
  split <;> rfl

theorem link_rename : (c.link inv).rename ρ = (c.rename ρ).link (ρ inv) := by
  simp only [link, nextId, grown_rename, takeId_rename]
  rfl

end Client

namespace Invitation

@[simps]
def rename (κ : GamePtr → GamePtr) (i : Invitation) : Invitation := { i with game := i.game.map κ }

theorem rename_eq_self {i : Invitation} {κ : GamePtr → GamePtr} (hκ : ∀ game ∈ i.game, κ game = game)
    : i.rename κ = i := by
  unfold rename
  cases hgame : i.game with
  | none =>
    rw [Option.map_none, ← hgame]
  | some game =>
    rw [Option.map_some, hκ game hgame, ← hgame]

end Invitation

structure Footprint where
  clients : ClientPtr → Prop
  invitations : InvitationPtr → Prop
  games : GamePtr → Prop

structure Footprint.Covers (F : Footprint) (ρ : Renaming) (inv : InvitationPtr) (i : Invitation)
    : Prop where
  source : F.clients i.source
  target : F.clients i.target
  invitation : F.invitations inv
  same : ρ.invitation inv = inv
  game : ∀ game ∈ i.game, F.games game ∧ ρ.game game = game

theorem Footprint.Covers.close {F : Footprint} {ρ : Renaming} {inv : InvitationPtr} {i : Invitation}
    (h : F.Covers ρ inv i) : F.Covers ρ inv { i with state := .closedState } :=
  ⟨h.source, h.target, h.invitation, h.same, h.game⟩

namespace Store

structure SameRegistries (s s' : Store) : Prop where
  clientRegistry : s'.clientRegistry = s.clientRegistry
  playerRegistry : s'.playerRegistry = s.playerRegistry
  loginSem : s'.loginSem = s.loginSem

theorem SameRegistries.refl (s : Store) : s.SameRegistries s := ⟨rfl, rfl, rfl⟩

theorem SameRegistries.trans {s s' s'' : Store} (h : s.SameRegistries s')
    (h' : s'.SameRegistries s'') : s.SameRegistries s'' where
  clientRegistry := h'.clientRegistry.trans h.clientRegistry
  playerRegistry := h'.playerRegistry.trans h.playerRegistry
  loginSem := h'.loginSem.trans h.loginSem

theorem sameRegistries_post (s : Store) (expected : Int → Rat) (result : PostedResult)
    : s.SameRegistries (s.post expected result) := by
  unfold post
  split
  . exact .refl s
  . split
    . exact ⟨rfl, rfl, rfl⟩
    . exact .refl s

/--
The same has happened to the clients, invitations and games of `s` and of `t`. Players are left out:
their ratings follow from the results that are posted.
-/
structure Parallel (F : Footprint) (ρ : Renaming) (s t s' t' : Store) : Prop where
  clients : Heap.Parallel F.clients id (Client.rename ρ.invitation) s.clients t.clients s'.clients
    t'.clients
  invitations : Heap.Parallel F.invitations ρ.invitation (Invitation.rename ρ.game) s.invitations
    t.invitations s'.invitations t'.invitations
  games : Heap.Parallel F.games ρ.game id s.games t.games s'.games t'.games
  left : s.SameRegistries s'
  right : t.SameRegistries t'

section Parallel

variable {F : Footprint} {ρ : Renaming} {s t s' t' : Store} {client opponent : ClientPtr}
  {inv : InvitationPtr} {i : Invitation} {game : GamePtr}

theorem Parallel.modifyClient (h : Parallel F ρ s t s' t') (hclient : F.clients client)
    {f g : Client → Client} (hf : ∀ c, (f c).rename ρ.invitation = g (c.rename ρ.invitation))
    : Parallel F ρ s t (s'.modifyClient client f) (t'.modifyClient client g) :=
  { h with
    clients := h.clients.modify Function.injective_id hclient fun c _ => hf c
    left := h.left.trans ⟨rfl, rfl, rfl⟩
    right := h.right.trans ⟨rfl, rfl, rfl⟩ }

theorem Parallel.modifyInvitation (h : Parallel F ρ s t s' t') (hinv : F.invitations inv)
    (hfix : ρ.invitation inv = inv) {f g : Invitation → Invitation}
    (hf : ∀ i, (f i).rename ρ.game = g (i.rename ρ.game))
    : Parallel F ρ s t (s'.modifyInvitation inv f) (t'.modifyInvitation inv g) where
  clients := h.clients
  invitations := by
    have hmodify := h.invitations.modify ρ.invitation_involutive.injective hinv fun i _ => hf i
    rw [hfix] at hmodify
    exact hmodify
  games := h.games
  left := h.left.trans ⟨rfl, rfl, rfl⟩
  right := h.right.trans ⟨rfl, rfl, rfl⟩

theorem Parallel.modifyGame (h : Parallel F ρ s t s' t') (hgame : F.games game)
    (hfix : ρ.game game = game) (f : Game → Game)
    : Parallel F ρ s t (s'.modifyGame game f) (t'.modifyGame game f) where
  clients := h.clients
  invitations := h.invitations
  games := by
    have hmodify := h.games.modify ρ.game_involutive.injective hgame (a := f) fun _ _ => rfl
    rw [hfix] at hmodify
    exact hmodify
  left := h.left.trans ⟨rfl, rfl, rfl⟩
  right := h.right.trans ⟨rfl, rfl, rfl⟩

theorem Parallel.close (h : Parallel F ρ s t s' t') (hinv : F.invitations inv)
    (hfix : ρ.invitation inv = inv) : Parallel F ρ s t (s'.close inv) (t'.close inv) :=
  h.modifyInvitation hinv hfix fun _ => rfl

theorem Parallel.acceptFailed (h : Parallel F ρ s t s' t') (hinv : F.invitations inv)
    (hfix : ρ.invitation inv = inv)
    : Parallel F ρ s t (s'.acceptFailed inv) (t'.acceptFailed inv) :=
  h.modifyInvitation hinv hfix fun _ => rfl

theorem Parallel.play (h : Parallel F ρ s t s' t') (hgame : F.games game)
    (hfix : ρ.game game = game) (move : GameMove)
    : Parallel F ρ s t (s'.play game move) (t'.play game move) :=
  h.modifyGame hgame hfix _

theorem Parallel.resign (h : Parallel F ρ s t s' t') (hinv : F.invitations inv)
    (hfix : ρ.invitation inv = inv) (hgame : F.games game) (hfixg : ρ.game game = game)
    (role : GameRole) : Parallel F ρ s t (s'.resign inv game role) (t'.resign inv game role) :=
  (h.modifyGame hgame hfixg _).close hinv hfix

theorem Parallel.unlink (h : Parallel F ρ s t s' t') (hclient : F.clients client)
    (hinv : F.invitations inv) (hfix : ρ.invitation inv = inv)
    : Parallel F ρ s t (s'.unlink client inv) (t'.unlink client inv) :=
  (h.modifyClient hclient fun _ => Client.unlink_rename ρ.invitation_involutive.injective
    hfix).modifyInvitation hinv hfix fun _ => rfl

theorem Parallel.release (h : Parallel F ρ s t s' t') (hcov : F.Covers ρ inv i)
    : Parallel F ρ s t (s'.release inv i) (t'.release inv i) where
  clients := by
    have hsource := h.clients.modify Function.injective_id hcov.source (a := Client.dropRef)
      (b := Client.dropRef) fun _ _ => rfl
    exact hsource.modify Function.injective_id hcov.target (a := Client.dropRef)
      (b := Client.dropRef) fun _ _ => rfl
  invitations := by
    have hfree := h.invitations.free ρ.invitation_involutive.injective hcov.invitation
    rw [hcov.same] at hfree
    exact hfree
  games := by
    unfold Store.release
    cases hown : i.game with
    | none => exact h.games
    | some game =>
      obtain ⟨hin, hsame⟩ := hcov.game game hown
      have hfree := (h.games.modify ρ.game_involutive.injective hin (a := Game.dropRef)
        (b := Game.dropRef) fun _ _ => rfl).free ρ.game_involutive.injective hin
      rw [hsame] at hfree
      exact hfree
  left := h.left.trans ⟨rfl, rfl, rfl⟩
  right := h.right.trans ⟨rfl, rfl, rfl⟩

theorem Parallel.get?_right (h : Parallel F ρ s t s' t') (hcov : F.Covers ρ inv i)
    (hi : s'.invitations.get? inv = some i) : t'.invitations.get? inv = some i := by
  have hinside := h.invitations.inside inv hcov.invitation
  rw [hcov.same, hi, Option.map_some,
    Invitation.rename_eq_self fun game hown => (hcov.game game hown).2] at hinside
  exact hinside

theorem Parallel.drop (h : Parallel F ρ s t s' t') (hclient : F.clients client)
    (hcov : F.Covers ρ inv i) (hi : s'.invitations.get? inv = some i) (hshared : i.refCount ≠ 1)
    : Parallel F ρ s t (s'.drop client inv) (t'.drop client inv) := by
  rw [drop_shared hi hshared, drop_shared (h.get?_right hcov hi) hshared]
  exact h.unlink hclient hcov.invitation hcov.same

theorem Parallel.dissolve (h : Parallel F ρ s t s' t') (hclient : F.clients client)
    (hopponent : F.clients opponent) (hcov : F.Covers ρ inv i)
    (hi : s'.invitations.get? inv = some i) (href : i.refCount = 2)
    : Parallel F ρ s t (s'.dissolve client opponent inv) (t'.dissolve client opponent inv) := by
  rw [dissolve_eq hi href, dissolve_eq (h.get?_right hcov hi) href]
  exact ((h.unlink hclient hcov.invitation hcov.same).unlink hopponent hcov.invitation
    hcov.same).release hcov

theorem Parallel.post (h : Parallel F ρ s t s' t') (expected : Int → Rat) (result : PostedResult)
    : Parallel F ρ s t (s'.post expected result) (t'.post expected result) where
  clients := by
    rw [post_clients, post_clients]
    exact h.clients
  invitations := by
    rw [post_invitations, post_invitations]
    exact h.invitations
  games := by
    rw [post_games, post_games]
    exact h.games
  left := h.left.trans (sameRegistries_post ..)
  right := h.right.trans (sameRegistries_post ..)

theorem Parallel.accept (h : Parallel F ρ s t s' t') (hinv : F.invitations inv)
    (hfix : ρ.invitation inv = inv) (hnew : F.games s'.games.next)
    (hnext : ρ.game s'.games.next = t'.games.next)
    : Parallel F ρ s t (s'.accept inv) (t'.accept inv) where
  clients := h.clients
  invitations := by
    have hmodify := h.invitations.modify ρ.invitation_involutive.injective hinv
      (a := fun i => { i with state := .acceptedState, game := some s'.games.next })
      (b := fun i => { i with state := .acceptedState, game := some t'.games.next })
      fun i _ => by simp [Invitation.rename, hnext]
    rw [hfix] at hmodify
    exact hmodify
  games := h.games.push ρ.game_involutive.injective hnew hnext gameCreate
  left := h.left.trans ⟨rfl, rfl, rfl⟩
  right := h.right.trans ⟨rfl, rfl, rfl⟩

theorem Parallel.invite (h : Parallel F ρ s t s' t') {source target : ClientPtr}
    (hsource : F.clients source) (htarget : F.clients target)
    (hnew : F.invitations s'.invitations.next)
    (hnext : ρ.invitation s'.invitations.next = t'.invitations.next)
    (sourceRole targetRole : GameRole)
    : Parallel F ρ s t (s'.invite source target sourceRole targetRole)
        (t'.invite source target sourceRole targetRole) where
  clients := by
    have hlink : ∀ c : Client, ((c.link s'.invitations.next).addRef).rename ρ.invitation
        = ((c.rename ρ.invitation).link t'.invitations.next).addRef := by
      intro c
      rw [← hnext, ← Client.link_rename]
      rfl
    exact (h.clients.modify Function.injective_id hsource fun c _ => hlink c).modify
      Function.injective_id htarget fun c _ => hlink c
  invitations := h.invitations.push ρ.invitation_involutive.injective hnew hnext
    { newInvitation source target sourceRole targetRole with refCount := 2 }
  games := h.games
  left := h.left.trans ⟨rfl, rfl, rfl⟩
  right := h.right.trans ⟨rfl, rfl, rfl⟩

end Parallel

end Store

end Jeux
