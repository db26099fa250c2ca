import Jeux.Lemmas.Shared

/-!
What an operation leaves alone: every invitation but the one it is for, with its nodes and its game,
and everything that has been freed.
-/

namespace Jeux

namespace Client

def nodesFor (c : Client) (inv : InvitationPtr) : List InvitationNode :=
  c.inviteHead.filter (·.invitation = inv)

variable {c : Client} {inv u : InvitationPtr}

theorem nodesFor_unlink (hne : u ≠ inv) : (c.unlink inv).nodesFor u = c.nodesFor u := by
  unfold nodesFor
  rw [unlink_inviteHead]
  induction c.inviteHead with
  | nil => rfl
  | cons node rest ih =>
    rw [List.eraseP_cons]
    by_cases heq : node.invitation = inv
    . have : node.invitation ≠ u := by
        rw [heq]
        exact hne.symm
      simp [heq, hne.symm]
    . simp only [heq, decide_false, cond_false, List.filter_cons, ih]

theorem nodesFor_link (hne : u ≠ inv) : (c.link inv).nodesFor u = c.nodesFor u := by
  simp [nodesFor, link, hne.symm]

theorem length_nodesFor : (c.nodesFor inv).length = c.invitations.count inv := by
  unfold nodesFor invitations
  rw [← List.countP_eq_length_filter, List.count, List.countP_map]
  congr 1

theorem mem_nodesFor {node : InvitationNode}
    : node ∈ c.nodesFor inv ↔ node ∈ c.inviteHead ∧ node.invitation = inv := by
  simp [nodesFor]

end Client

namespace Store

variable {s s' s'' : Store} {extra : ClientPtr → Nat} {client opponent : ClientPtr}
  {inv u : InvitationPtr} {i : Invitation}

def nodesOf (s : Store) (client : ClientPtr) (inv : InvitationPtr) : List InvitationNode :=
  ((s.clients.get? client).map (·.nodesFor inv)).getD []

theorem nodesOf_of_get? {c : Client} (hc : s.clients.get? client = some c)
    : s.nodesOf client inv = c.nodesFor inv := by
  simp [nodesOf, hc]

theorem listed_eq_length (s : Store) (client : ClientPtr) (inv : InvitationPtr)
    : s.listed client inv = (s.nodesOf client inv).length := by
  unfold listed nodesOf
  cases s.clients.get? client with
  | none => rfl
  | some c => exact Client.length_nodesFor.symm

structure SameAt (s s' : Store) (u : InvitationPtr) : Prop where
  invitation : s'.invitations.get? u = s.invitations.get? u
  nodes : ∀ x, s'.nodesOf x u = s.nodesOf x u
  game : ∀ i game, s.invitations.get? u = some i → i.game = some game →
    s'.games.get? game = s.games.get? game

theorem SameAt.refl (s : Store) (u : InvitationPtr) : s.SameAt s u :=
  ⟨rfl, fun _ => rfl, fun _ _ _ _ => rfl⟩

theorem SameAt.trans (h : s.SameAt s' u) (h' : s'.SameAt s'' u) : s.SameAt s'' u where
  invitation := h'.invitation.trans h.invitation
  nodes := fun x => (h'.nodes x).trans (h.nodes x)
  game := by
    intro i game hi hown
    exact (h'.game i game (h.invitation.trans hi) hown).trans (h.game i game hi hown)

theorem SameAt.listed (h : s.SameAt s' u) (x : ClientPtr) : s'.listed x u = s.listed x u := by
  rw [listed_eq_length, listed_eq_length, h.nodes x]

theorem sameAt_modifyInvitation (s : Store) (f : Invitation → Invitation) (hu : u ≠ inv)
    : s.SameAt (s.modifyInvitation inv f) u where
  invitation := by
    rw [modifyInvitation_invitations, Heap.get?_modify_ne hu]
  nodes := fun _ => rfl
  game := fun _ _ _ _ => rfl

theorem sameAt_modifyGame (s : Store) (f : Game → Game) {game : GamePtr}
    (hgame : ∀ i, s.invitations.get? u = some i → i.game ≠ some game)
    : s.SameAt (s.modifyGame game f) u where
  invitation := rfl
  nodes := fun _ => rfl
  game := by
    intro i game' hi hown
    rw [modifyGame_games, Heap.get?_modify_ne]
    rintro rfl
    exact hgame i hi hown

theorem sameAt_accept (hu : u ≠ inv) (hv : s.Valid extra) : s.SameAt (s.accept inv) u where
  invitation := Heap.get?_modify_ne hu
  nodes := fun _ => rfl
  game := by
    intro i game hi hown
    obtain ⟨-, g, hg, -⟩ := (hv.invitation u i hi).game game hown
    rw [hg]
    exact Heap.get?_push_of_get? hg

theorem sameAt_post (s : Store) (expected : Int → Rat) (result : PostedResult) (u : InvitationPtr)
    : s.SameAt (s.post expected result) u where
  invitation := by rw [post_invitations]
  nodes := fun x => by rw [nodesOf, nodesOf, post_clients]
  game := fun _ _ _ _ => by rw [post_games]

theorem sameAt_unlink (s : Store) (client : ClientPtr) (hu : u ≠ inv)
    : s.SameAt (s.unlink client inv) u where
  invitation := by
    rw [unlink_invitations, Heap.get?_modify_ne hu]
  nodes := by
    intro x
    unfold nodesOf
    rw [unlink_clients, Heap.map_get?_modify (fun _ => Client.nodesFor_unlink hu)]
  game := fun _ _ _ _ => rfl

theorem sameAt_release (s : Store) (hu : u ≠ inv)
    (hown : ∀ game j, i.game = some game → s.invitations.get? u = some j → j.game ≠ some game)
    : s.SameAt (s.release inv i) u where
  invitation := Heap.get?_free_ne hu
  nodes := by
    intro x
    unfold nodesOf release
    dsimp only
    rw [Heap.map_get?_modify, Heap.map_get?_modify]
    . intro c
      rfl
    . intro c
      rfl
  game := by
    intro j game hj hgame
    unfold release
    dsimp only
    cases hi : i.game with
    | none => rfl
    | some game' =>
      dsimp only
      have hne : game ≠ game' := by
        rintro rfl
        exact hown game j hi hj hgame
      rw [Heap.get?_free_ne hne, Heap.get?_modify_ne hne]

theorem sameAt_drop (hv : s.Valid extra) (client : ClientPtr) (hu : u ≠ inv)
    : s.SameAt (s.drop client inv) u := by
  unfold drop
  split
  . next i hi =>
    split
    . refine (sameAt_unlink s client hu).trans (sameAt_release _ hu ?_)
      intro game j hown hj hgame
      rw [unlink_invitations, Heap.get?_modify_ne hu] at hj
      exact hu ((hv.invitation inv i hi).own game u j hown hj hgame)
    . exact sameAt_unlink s client hu
  . exact .refl s u

theorem Shared.sameAt (h : s.Shared client opponent inv i) (hv : s.Valid extra) (hu : u ≠ inv)
    : s.SameAt (s.dissolve client opponent inv) u := by
  obtain ⟨c, hc, hmem⟩ := h.mine
  exact (sameAt_drop hv client hu).trans (sameAt_drop (hv.drop hc hmem) opponent hu)

theorem sameAt_invite (s : Store) (source target : ClientPtr) (sourceRole targetRole : GameRole)
    (hu : u ≠ s.invitations.next) : s.SameAt (s.invite source target sourceRole targetRole) u where
  invitation := by
    unfold invite
    dsimp only
    rw [Heap.get?_push, if_neg hu]
  nodes := by
    intro x
    unfold nodesOf invite
    dsimp only
    have hlink : ∀ c : Client, ((c.link s.invitations.next).addRef).nodesFor u = c.nodesFor u :=
      fun c => Client.nodesFor_link hu
    rw [Heap.map_get?_modify hlink, Heap.map_get?_modify hlink]
  game := fun _ _ _ _ => rfl

theorem Valid.game_ne (hv : s.Valid extra) {game : GamePtr} (hi : s.invitations.get? inv = some i)
    (hown : i.game = some game) (hu : u ≠ inv)
    : ∀ j, s.invitations.get? u = some j → j.game ≠ some game :=
  fun j hj hgame => hu ((hv.invitation inv i hi).own game u j hown hj hgame)

theorem sameAt_resign (hv : s.Valid extra) {game : GamePtr} (hi : s.invitations.get? inv = some i)
    (hown : i.game = some game) (role : GameRole) (hu : u ≠ inv)
    : s.SameAt (s.resign inv game role) u :=
  (sameAt_modifyGame s _ (hv.game_ne hi hown hu)).trans (sameAt_modifyInvitation _ _ hu)

/-! ## What has been freed -/

structure Extends (s s' : Store) : Prop where
  invitations : s.invitations.Extends s'.invitations
  games : s.games.Extends s'.games

theorem Extends.refl (s : Store) : s.Extends s := ⟨.refl _, .refl _⟩

theorem Extends.trans (h : s.Extends s') (h' : s'.Extends s'') : s.Extends s'' :=
  ⟨h.invitations.trans h'.invitations, h.games.trans h'.games⟩

theorem Extends.of_eq (hinvitations : s'.invitations = s.invitations)
    (hgames : s'.games = s.games) : s.Extends s' :=
  ⟨hinvitations ▸ .refl _, hgames ▸ .refl _⟩

theorem extends_modifyInvitation (s : Store) (inv : InvitationPtr) (f : Invitation → Invitation)
    : s.Extends (s.modifyInvitation inv f) := ⟨Heap.extends_modify .., .refl _⟩

theorem extends_modifyGame (s : Store) (game : GamePtr) (f : Game → Game)
    : s.Extends (s.modifyGame game f) := ⟨.refl _, Heap.extends_modify ..⟩

theorem extends_accept (s : Store) (inv : InvitationPtr) : s.Extends (s.accept inv) :=
  ⟨Heap.extends_modify .., Heap.extends_push ..⟩

theorem extends_resign (s : Store) (inv : InvitationPtr) (game : GamePtr) (role : GameRole)
    : s.Extends (s.resign inv game role) :=
  (extends_modifyGame s game _).trans (extends_modifyInvitation _ inv _)

theorem extends_post (s : Store) (expected : Int → Rat) (result : PostedResult)
    : s.Extends (s.post expected result) :=
  .of_eq (post_invitations expected result) (post_games expected result)

theorem extends_release (s : Store) (inv : InvitationPtr) (i : Invitation)
    : s.Extends (s.release inv i) where
  invitations := Heap.extends_free ..
  games := by
    unfold release
    dsimp only
    split
    . exact (Heap.extends_modify ..).trans (Heap.extends_free ..)
    . exact .refl _

theorem extends_unlink (s : Store) (client : ClientPtr) (inv : InvitationPtr)
    : s.Extends (s.unlink client inv) := ⟨Heap.extends_modify .., .refl _⟩

theorem extends_drop (s : Store) (client : ClientPtr) (inv : InvitationPtr)
    : s.Extends (s.drop client inv) := by
  unfold drop
  split
  . split
    . exact (extends_unlink s client inv).trans (extends_release ..)
    . exact extends_unlink s client inv
  . exact .refl s

theorem extends_dissolve (s : Store) (client opponent : ClientPtr) (inv : InvitationPtr)
    : s.Extends (s.dissolve client opponent inv) :=
  (extends_drop s client inv).trans (extends_drop _ opponent inv)

theorem extends_invite (s : Store) (source target : ClientPtr) (sourceRole targetRole : GameRole)
    : s.Extends (s.invite source target sourceRole targetRole) := ⟨Heap.extends_push .., .refl _⟩

/-! ## What is left to be seen of an invitation and a game -/

/--
The state of an invitation, the last one if it is gone.
-/
def stateAt (s : Store) (inv : InvitationPtr) : Option InvitationState :=
  (s.invitations.last? inv).map (·.state)

/--
The winner recorded in a game, the last one if it is gone.
-/
def winnerAt (s : Store) (game : GamePtr) : Option GameRole := (s.games.last? game).map (·.winner)

/--
The board of a game, the last one if it is gone.
-/
def boardAt (s : Store) (game : GamePtr) : Option (Vector GameRole 9) :=
  (s.games.last? game).map (·.rows)

theorem stateAt_of_get? (hi : s.invitations.get? inv = some i) : s.stateAt inv = some i.state := by
  simp [stateAt, Heap.last?_of_get? hi]

theorem SameAt.stateAt {st : InvitationState} (h : s.SameAt s' u) (hextends : s.Extends s')
    (hst : s.stateAt u = some st) : s'.stateAt u = some st := by
  cases hi : s.invitations.get? u with
  | some i =>
    have hi' := h.invitation
    rw [hi] at hi'
    rw [stateAt_of_get? hi', ← stateAt_of_get? hi, hst]
  | none =>
    obtain ⟨v, hlast, -⟩ := Option.map_eq_some_iff.mp hst
    have hfreed := (hextends.invitations.freed u (Heap.lt_next_of_last? hlast) hi).2
    rw [Store.stateAt, hfreed]
    exact hst

theorem stateAt_congr (h : s'.invitations = s.invitations) (u : InvitationPtr)
    : s'.stateAt u = s.stateAt u := by
  rw [stateAt, stateAt, h]

theorem stateAt_modifyInvitation (hi : s.invitations.get? inv = some i)
    (f : Invitation → Invitation) : (s.modifyInvitation inv f).stateAt inv = some (f i).state := by
  simp [stateAt, Heap.last?_modify_self hi]

theorem stateAt_close (hi : s.invitations.get? inv = some i)
    : (s.close inv).stateAt inv = some .closedState := stateAt_modifyInvitation hi _

theorem stateAt_accept (hi : s.invitations.get? inv = some i)
    : (s.accept inv).stateAt inv = some .acceptedState := by
  simp [stateAt, accept, Heap.last?_modify_self hi]

@[simp]
theorem stateAt_post (expected : Int → Rat) (result : PostedResult) (u : InvitationPtr)
    : (s.post expected result).stateAt u = s.stateAt u :=
  stateAt_congr (post_invitations expected result) u

@[simp]
theorem stateAt_drop (client : ClientPtr) (inv u : InvitationPtr)
    : (s.drop client inv).stateAt u = s.stateAt u := by
  have hunlink : (s.unlink client inv).stateAt u = s.stateAt u :=
    Heap.map_last?_modify (fun _ => rfl)
  unfold drop
  split
  . split
    . rw [← hunlink]
      exact congrArg _ Heap.last?_free
    . exact hunlink
  . rfl

@[simp]
theorem stateAt_dissolve (client opponent : ClientPtr) (inv u : InvitationPtr)
    : (s.dissolve client opponent inv).stateAt u = s.stateAt u := by
  simp [dissolve]

@[simp]
theorem winnerAt_post (expected : Int → Rat) (result : PostedResult) (game : GamePtr)
    : (s.post expected result).winnerAt game = s.winnerAt game := by
  rw [winnerAt, winnerAt, post_games]

theorem map_last?_drop_games {α : Type} {f : Game → α} (hf : ∀ g, f g.dropRef = f g)
    (client : ClientPtr) (inv : InvitationPtr) (game : GamePtr)
    : ((s.drop client inv).games.last? game).map f = (s.games.last? game).map f := by
  unfold drop
  split
  . split
    . unfold release
      dsimp only
      split
      . rw [Heap.last?_free, Heap.map_last?_modify hf]
        rfl
      . rfl
    . rfl
  . rfl

@[simp]
theorem winnerAt_drop (client : ClientPtr) (inv : InvitationPtr) (game : GamePtr)
    : (s.drop client inv).winnerAt game = s.winnerAt game :=
  map_last?_drop_games (fun _ => rfl) client inv game

@[simp]
theorem boardAt_drop (client : ClientPtr) (inv : InvitationPtr) (game : GamePtr)
    : (s.drop client inv).boardAt game = s.boardAt game :=
  map_last?_drop_games (fun _ => rfl) client inv game

@[simp]
theorem boardAt_post (expected : Int → Rat) (result : PostedResult) (game : GamePtr)
    : (s.post expected result).boardAt game = s.boardAt game := by
  rw [boardAt, boardAt, post_games]

@[simp]
theorem boardAt_dissolve (client opponent : ClientPtr) (inv : InvitationPtr) (game : GamePtr)
    : (s.dissolve client opponent inv).boardAt game = s.boardAt game := by
  simp [dissolve]

theorem boardAt_of_get? {game : GamePtr} {g : Game} (hg : s.games.get? game = some g)
    : s.boardAt game = some g.rows := by
  simp [boardAt, Heap.last?_of_get? hg]

@[simp]
theorem winnerAt_dissolve (client opponent : ClientPtr) (inv : InvitationPtr) (game : GamePtr)
    : (s.dissolve client opponent inv).winnerAt game = s.winnerAt game := by
  simp [dissolve]

theorem winnerAt_of_get? {game : GamePtr} {g : Game} (hg : s.games.get? game = some g)
    : s.winnerAt game = some g.winner := by
  simp [winnerAt, Heap.last?_of_get? hg]

end Store

section Effect

variable {env : Env} {w w' : World} {client : ClientPtr} {op : Operation} {r : Int}
  {extra : ClientPtr → Nat} {u : InvitationPtr}

def Operation.subject? (s : Store) (client : ClientPtr) : Operation → Option InvitationPtr
  | .make _ _ _ => some s.invitations.next
  | .revoke id => s.invitationOf client id
  | .decline id => s.invitationOf client id
  | .accept id => s.invitationOf client id
  | .resign id => s.invitationOf client id
  | .move id _ => s.invitationOf client id

theorem Effect.extends (h : Effect env w client op r w') : w.store.Extends w'.store := by
  cases h with
  | refused => exact .refl _
  | made => exact Store.extends_invite ..
  | revokeUnsent => exact Store.extends_modifyInvitation ..
  | revoked => exact (Store.extends_modifyInvitation ..).trans (Store.extends_dissolve ..)
  | revokedByTarget => exact (Store.extends_modifyInvitation ..).trans (Store.extends_drop ..)
  | declined => exact (Store.extends_modifyInvitation ..).trans (Store.extends_dissolve ..)
  | declinedBySource => exact (Store.extends_modifyInvitation ..).trans (Store.extends_drop ..)
  | acceptNoRoom => exact Store.extends_modifyInvitation ..
  | accepted => exact Store.extends_accept ..
  | resignUnsent => exact Store.extends_resign ..
  | resigned =>
    exact ((Store.extends_resign ..).trans (Store.extends_post ..)).trans
      (Store.extends_dissolve ..)
  | moveUnsent => exact Store.extends_modifyGame ..
  | moved => exact Store.extends_modifyGame ..
  | endUnsent => exact Store.extends_modifyGame ..
  | endUnsentSelf => exact Store.extends_modifyGame ..
  | finished =>
    exact ((Store.extends_modifyGame ..).trans (Store.extends_post ..)).trans
      (Store.extends_dissolve ..)

theorem Effect.sameAt (h : Effect env w client op r w') (hv : w.store.Valid extra)
    (hl : w.store.Linked) (hne : op.subject? w.store client ≠ some u)
    : w.store.SameAt w'.store u := by
  have hother : ∀ {id : Int} {inv : InvitationPtr}, w.store.invitationOf client id = some inv →
      w.store.invitationOf client id ≠ some u → u ≠ inv := by
    intro id inv hnamed hne heq
    exact hne (heq ▸ hnamed)
  cases h with
  | refused => exact .refl _ _
  | made =>
    refine Store.sameAt_invite _ _ _ _ _ ?_
    rintro rfl
    exact hne rfl
  | revokeUnsent hopen => exact Store.sameAt_modifyInvitation _ _ (hother hopen.named hne)
  | revoked hopen hsource =>
    have hu := hother hopen.named hne
    have hshared := hopen.shared hv hl
    rw [opponentOf_source hsource] at hshared
    exact (Store.sameAt_modifyInvitation _ _ hu).trans (hshared.close.sameAt (hv.close _) hu)
  | revokedByTarget hopen =>
    have hu := hother hopen.named hne
    exact (Store.sameAt_modifyInvitation _ _ hu).trans (Store.sameAt_drop (hv.close _) _ hu)
  | declined hopen htarget =>
    have hu := hother hopen.named hne
    have hshared := hopen.shared hv hl
    rw [(hv.invitation _ _ hopen.invitation).opponentOf_target htarget] at hshared
    exact (Store.sameAt_modifyInvitation _ _ hu).trans (hshared.close.sameAt (hv.close _) hu)
  | declinedBySource hopen =>
    have hu := hother hopen.named hne
    exact (Store.sameAt_modifyInvitation _ _ hu).trans (Store.sameAt_drop (hv.close _) _ hu)
  | acceptNoRoom hopen => exact Store.sameAt_modifyInvitation _ _ (hother hopen.named hne)
  | accepted hopen => exact Store.sameAt_accept (hother hopen.named hne) hv
  | resignUnsent hplay =>
    exact Store.sameAt_resign hv hplay.invitation hplay.owned _ (hother hplay.named hne)
  | resigned hplay =>
    have hu := hother hplay.named hne
    exact ((Store.sameAt_resign hv hplay.invitation hplay.owned _ hu).trans
      (Store.sameAt_post _ _ _ _)).trans
      ((((hplay.shared hv hl).resign _ _).post _ _).sameAt ((hv.resign _ _ _).post _ _) hu)
  | moveUnsent hmove =>
    exact Store.sameAt_modifyGame _ _
      (hv.game_ne hmove.invitation hmove.owned (hother hmove.named hne))
  | moved hmove =>
    exact Store.sameAt_modifyGame _ _
      (hv.game_ne hmove.invitation hmove.owned (hother hmove.named hne))
  | endUnsent hmove =>
    exact Store.sameAt_modifyGame _ _
      (hv.game_ne hmove.invitation hmove.owned (hother hmove.named hne))
  | endUnsentSelf hmove =>
    exact Store.sameAt_modifyGame _ _
      (hv.game_ne hmove.invitation hmove.owned (hother hmove.named hne))
  | finished hmove =>
    have hu := hother hmove.named hne
    exact ((Store.sameAt_modifyGame _ _ (hv.game_ne hmove.invitation hmove.owned hu)).trans
      (Store.sameAt_post _ _ _ _)).trans
      ((((hmove.shared hv hl).play _ _).post _ _).sameAt ((hv.play _ _).post _ _) hu)

end Effect

end Jeux
