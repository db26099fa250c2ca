import Jeux.Lemmas.Ids
import Jeux.Lemmas.Registry

/-!
The changes that the operations of the server make to the store. Each operation is shown elsewhere
to be one of these, or a few of them one after the other.
-/

namespace Jeux

namespace Invitation

def opponentOf (i : Invitation) (client : ClientPtr) : ClientPtr :=
  if i.source = client then i.target else i.source

def roleOf (i : Invitation) (client : ClientPtr) : GameRole :=
  if i.source = client then i.sourceRole else i.targetRole

end Invitation

namespace Store

variable {s : Store}

def invitationOf (s : Store) (client : ClientPtr) (id : Int) : Option InvitationPtr :=
  (s.clients.get? client).bind fun c => (c.nodeWithId? id).map (·.invitation)

def idOf (s : Store) (client : ClientPtr) (inv : InvitationPtr) : Int :=
  match (s.clients.get? client).bind (·.nodeFor? inv) with
  | some node => node.id
  | none => -1

def invite (s : Store) (source target : ClientPtr) (sourceRole targetRole : GameRole) : Store :=
  let inv := s.invitations.next
  { s with
    clients := (s.clients.modify source fun c => (c.link inv).addRef).modify target fun c =>
      (c.link inv).addRef
    invitations := s.invitations.push
      { newInvitation source target sourceRole targetRole with refCount := 2 } }

@[simps! clients players invitations games clientRegistry playerRegistry loginSem]
def close (s : Store) (inv : InvitationPtr) : Store :=
  s.modifyInvitation inv fun i => { i with state := .closedState }

/--
`inv_close` with a role: the game is resigned and the invitation closed.
-/
@[simps! clients players invitations games clientRegistry playerRegistry loginSem]
def resign (s : Store) (inv : InvitationPtr) (game : GamePtr) (role : GameRole) : Store :=
  (s.modifyGame game fun g => (gameResign g role).2).close inv

def accept (s : Store) (inv : InvitationPtr) : Store :=
  { s with
    invitations := s.invitations.modify inv fun i =>
      { i with state := .acceptedState, game := some s.games.next }
    games := s.games.push gameCreate }

@[simps! clients players invitations games clientRegistry playerRegistry loginSem]
def acceptFailed (s : Store) (inv : InvitationPtr) : Store :=
  s.modifyInvitation inv fun i => { i with state := .acceptedState, game := none }

@[simps! clients players invitations games clientRegistry playerRegistry loginSem]
def play (s : Store) (game : GamePtr) (move : GameMove) : Store :=
  s.modifyGame game fun g => (gameApplyMove g move).2

@[simps! clients players invitations games clientRegistry playerRegistry loginSem]
def unlink (s : Store) (client : ClientPtr) (inv : InvitationPtr) : Store :=
  (s.modifyClient client (·.unlink inv)).modifyInvitation inv Invitation.dropRef

def drop (s : Store) (client : ClientPtr) (inv : InvitationPtr) : Store :=
  match s.invitations.get? inv with
  | some i => if i.refCount = 1 then (s.unlink client inv).release inv i else s.unlink client inv
  | none => s

def dissolve (s : Store) (client opponent : ClientPtr) (inv : InvitationPtr) : Store :=
  (s.drop client inv).drop opponent inv

def connect (s : Store) (fd : Int) : Store :=
  { s with
    clients := s.clients.push (newClient fd)
    clientRegistry := s.clientRegistry.enrol (some s.clients.next)
    loginSem := 1 }

def connectFailed (s : Store) : Store :=
  { s with
    clientRegistry := s.clientRegistry.enrol none
    loginSem := 1 }

def unrefClient (s : Store) (client : ClientPtr) : Store :=
  match s.clients.get? client with
  | some c =>
    if c.refCount = 1 then
      { s with clients := (s.clients.modify client Client.dropRef).free client }
    else
      s.modifyClient client Client.dropRef
  | none => s

/--
`creg_unregister` of a client that is logged out and was found in slot `i`.
-/
def unregister (s : Store) (client : ClientPtr) (i : Nat) : Store :=
  { s with clientRegistry := (s.clientRegistry.shift i).release }.unrefClient client

/--
A successful `client_login`, with the reference to the player that the client keeps.
-/
@[simps! clients players invitations games clientRegistry playerRegistry loginSem]
def login (s : Store) (client : ClientPtr) (player : PlayerPtr) : Store :=
  (s.modifyClient client fun c => { c with player := some player, loggedIn := .loggedIn }).modifyPlayer
    player Player.addRef

@[simps! clients players invitations games clientRegistry playerRegistry loginSem]
def leave (s : Store) (client : ClientPtr) (player : PlayerPtr) : Store :=
  (s.modifyClient client fun c => { c with loggedIn := .loggedOut }).modifyPlayer player
    Player.dropRef

def addPlayer (s : Store) (name : CString) : Store :=
  { s with
    players := s.players.push { name, refCount := 1, rating := playerInitialRating }
    playerRegistry :=
      { players := s.playerRegistry.players ++ [s.players.next]
        length := s.playerRegistry.length + 1 } }

def post (s : Store) (expected : Int → Rat) (result : PostedResult) : Store :=
  if result.player1 = result.player2 then s
  else
    match s.players.get? result.player1, s.players.get? result.player2 with
    | some p1, some p2 =>
      let ratings := postedRatings expected p1.rating p2.rating result.result
      (s.modifyPlayer result.player1 fun p => { p with rating := ratings.1 }).modifyPlayer
        result.player2 fun p => { p with rating := ratings.2 }
    | _, _ => s

@[simp]
theorem post_clients (expected : Int → Rat) (result : PostedResult)
    : (s.post expected result).clients = s.clients := by
  unfold post
  split
  . rfl
  . split <;> rfl

@[simp]
theorem post_invitations (expected : Int → Rat) (result : PostedResult)
    : (s.post expected result).invitations = s.invitations := by
  unfold post
  split
  . rfl
  . split <;> rfl

@[simp]
theorem post_games (expected : Int → Rat) (result : PostedResult)
    : (s.post expected result).games = s.games := by
  unfold post
  split
  . rfl
  . split <;> rfl

@[simp]
theorem post_clientRegistry (expected : Int → Rat) (result : PostedResult)
    : (s.post expected result).clientRegistry = s.clientRegistry := by
  unfold post
  split
  . rfl
  . split <;> rfl

end Store

end Jeux
