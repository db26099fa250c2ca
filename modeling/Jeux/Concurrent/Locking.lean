import Jeux.Impl.State
import Jeux.Util.Locks

/-!
The service threads as far as locks are concerned: every `sem_wait` and `sem_post` on `semaphores[]`,
every lock and unlock of the registry, of a client, an invitation or a player is a step, and
`client_create` initialises the semaphores whenever a connection registers.

What decides about locks is modelled: reference counts, who is logged in as whom, lists of invitations
and their ids. The rest (does an allocation or a write succeed, is an invitation in the state an
operation needs, is a move legal, is a game over) is open: each answer is possible at any time.
The mutexes of games and of the player registry are left out. No other of these locks is ever taken
under the first, and under the second only that of a player nobody else knows yet.
-/

namespace Jeux

inductive Semaphore where
  | login
  | logout
  | invite
  | inviteOp
  | updateElo
  deriving DecidableEq, Repr

inductive ServerLock where
  | semaphore (s : Semaphore)
  | registry
  | client (client : ClientPtr)
  | invitation (inv : InvitationPtr)
  | player (player : PlayerPtr)
  deriving DecidableEq, Repr

namespace Locking

/--
What of a `CLIENT` decides about locks. For the record: the thread that serves it, as long as the
registry has not dropped its reference.
-/
structure Peer where
  refCount : Int
  player : Option PlayerPtr
  loggedIn : ClientState
  currentIdSize : Nat
  inviteHead : List InvitationNode
  server : Option Nat
  deriving DecidableEq, Repr

structure Offer where
  refCount : Int
  source : ClientPtr
  target : ClientPtr
  sourceRole : GameRole
  targetRole : GameRole
  deriving DecidableEq, Repr

/--
The clients, those of them that are in the registry, and the invitations. A client stays in the heap
when its last reference is dropped.
-/
structure Data where
  clients : Heap Peer
  registered : List ClientPtr
  invitations : Heap Offer
  deriving DecidableEq, Repr

def initialData : Data where
  clients := .empty
  registered := []
  invitations := .empty

inductive Operation where
  | revoke
  | decline
  | accept
  | move
  | resign
  deriving DecidableEq, Repr

/--
What a client asks for. A request is `refused` when it is answered with NACK at once; a LOGIN names
the player that `preg_register` returns.
-/
inductive Request where
  | refused
  | login (player : PlayerPtr)
  | users
  | invite
  | operation (op : Operation) (id : Int)
  deriving DecidableEq, Repr

inductive Answer where
  | ok
  | fails
  | request (request : Request)
  | leaves
  | client (client : ClientPtr)
  | role (role : GameRole)
  | id (id : Int)
  | operation (op : Operation) (id : Int)
  deriving DecidableEq, Repr

/--
The places in the code where something is changed that decides about locks, or decides.
-/
inductive Point where
  | cregRegister
  | clientCreate
  | service (client : ClientPtr)
  | processLogin (client : ClientPtr) (player : PlayerPtr)
  | clientLogin (client : ClientPtr) (player : PlayerPtr)
  | allPlayers (client : ClientPtr) (player : PlayerPtr)
  | nameChecked (client : ClientPtr) (player : PlayerPtr)
  | setPlayer (client : ClientPtr) (player : PlayerPtr)
  | setLoggedIn (client : ClientPtr)
  | processUsers (client : ClientPtr)
  | cregLookup (client : ClientPtr)
  | processInvite (client invitee : ClientPtr)
  | invCreate (source target : ClientPtr) (sourceRole targetRole : GameRole)
  | invCreated (source target : ClientPtr) (sourceRole targetRole : GameRole)
  | sourceAdded (source target : ClientPtr) (inv : InvitationPtr)
  | targetAdded (target : ClientPtr) (inv : InvitationPtr)
  | clientRef (client : ClientPtr)
  | clientUnref (client : ClientPtr) (registry : Bool)
  | clientFree (client : ClientPtr)
  | invRef (inv : InvitationPtr)
  | invUnref (inv : InvitationPtr)
  | getAvailableId (client : ClientPtr) (inv : InvitationPtr)
  | addNode (client : ClientPtr) (inv : InvitationPtr) (id : Int)
  | findNode (client : ClientPtr) (inv : InvitationPtr)
  | purgeId (client : ClientPtr) (id : Int)
  | getInvitation (op : Operation) (client : ClientPtr) (id : Int)
  | found (op : Operation) (client : ClientPtr) (inv : Option InvitationPtr)
  | moved (client opponent : ClientPtr) (inv : InvitationPtr)
  | ended (client opponent : ClientPtr) (inv : InvitationPtr)
  | results (client opponent : ClientPtr) (inv : InvitationPtr)
  | postResults (client opponent : ClientPtr) (first : Bool)
  | unlist (client opponent : ClientPtr) (inv : InvitationPtr)
  | removed (opponent : ClientPtr) (inv : InvitationPtr)
  | clientLogout (client : ClientPtr)
  | logoutLoop (client : ClientPtr)
  | loggedOut (client : ClientPtr)
  | cregUnregister (client : ClientPtr)
  deriving DecidableEq, Repr

abbrev Code := List (Instr ServerLock Point)

open Instr

abbrev wait (s : Semaphore) : Instr ServerLock Point := acquire (.semaphore s)

abbrev post (s : Semaphore) : Instr ServerLock Point := release (.semaphore s)

/--
`client_send_packet`, `client_send_ack`, `client_send_nack` and `client_get_invitation_id`: the lock
of a client for something that does not matter here.
-/
def withClient (client : ClientPtr) : Code := [acquire (.client client), release (.client client)]

def withPlayer (player : PlayerPtr) : Code := [acquire (.player player), release (.player player)]

def clientRef (client : ClientPtr) : Code :=
  [acquire (.client client), run (.clientRef client), release (.client client)]

def clientUnref (client : ClientPtr) (registry : Bool) : Code :=
  [acquire (.client client), run (.clientUnref client registry), release (.client client),
    run (.clientFree client)]

def invRef (inv : InvitationPtr) : Code :=
  [acquire (.invitation inv), run (.invRef inv), release (.invitation inv)]

def invUnref (inv : InvitationPtr) : Code := [acquire (.invitation inv), run (.invUnref inv)]

def clientAddInvitation (client : ClientPtr) (inv : InvitationPtr) : Code :=
  [wait .invite, acquire (.client client), run (.getAvailableId client inv)]

def addInvitation (client : ClientPtr) (inv : InvitationPtr) (id : Int) : Code :=
  invRef inv ++ [acquire (.client client), run (.addNode client inv id), release (.client client),
    post .invite]

def clientRemoveInvitation (client : ClientPtr) (inv : InvitationPtr) : Code :=
  [wait .invite, run (.findNode client inv)]

def clientMakeInvitation (source target : ClientPtr) (sourceRole targetRole : GameRole) : Code :=
  [wait .inviteOp, run (.invCreate source target sourceRole targetRole)]

def operation (op : Operation) (client : ClientPtr) (id : Int) : Code :=
  [wait .inviteOp, acquire (.client client), run (.getInvitation op client id)]

def postPlayerResults (client opponent : ClientPtr) (first : Bool) : Code :=
  [wait .updateElo, run (.postResults client opponent first)]

def playerPostResult (player1 player2 : PlayerPtr) : Code :=
  if player1 = player2 then
    []
  else
    [acquire (.player player1), acquire (.player player2), release (.player player1),
      release (.player player2)]

def clientLogout (client : ClientPtr) : Code := [run (.clientLogout client)]

def cregUnregister (client : ClientPtr) : Code :=
  [acquire .registry, run (.cregUnregister client)]

def process (client : ClientPtr) : Request → Code
  | .refused => withClient client
  | .login player => [run (.processLogin client player)]
  | .users => [acquire .registry, run (.processUsers client)]
  | .invite => [acquire .registry, run (.cregLookup client)]
  | .operation op id => operation op client id ++ withClient client

namespace Data

def modifyClient (d : Data) (client : ClientPtr) (f : Peer → Peer) : Data :=
  { d with clients := d.clients.modify client f }

/--
The players the clients in the registry point to, as `creg_all_players` collects them.
-/
def players (d : Data) : List PlayerPtr :=
  d.registered.filterMap fun client => (d.clients.get? client).bind Peer.player

def opponent? (d : Data) (client : ClientPtr) (inv : InvitationPtr) : Option (ClientPtr × Bool) :=
  match d.invitations.get? inv with
  | none => none
  | some offer =>
    if offer.source = client then
      some (offer.target, offer.sourceRole = .firstPlayerRole)
    else if offer.target = client then
      some (offer.source, offer.targetRole = .firstPlayerRole)
    else
      none

end Data

def newPeer (self : Nat) : Peer where
  refCount := 1
  player := none
  loggedIn := .loggedOut
  currentIdSize := 100
  inviteHead := []
  server := some self

def expand (self : Nat) (d : Data) : Point → Answer → Option (Data × Code)
  | .cregRegister, .ok => some (d, [acquire .registry, run .clientCreate])
  -- there is no room, or there has been a shutdown
  | .cregRegister, .fails => some (d, [])
  | .clientCreate, .ok =>
    let client := d.clients.next
    some ({ d with
        clients := d.clients.push (newPeer self)
        registered := d.registered ++ [client] },
      withClient client ++ [release .registry, run (.service client)])
  | .clientCreate, .fails => some (d, [release .registry])
  | .service client, .request request => some (d, process client request ++ [run (.service client)])
  | .service client, .leaves => some (d, clientLogout client ++ cregUnregister client)
  | .processLogin client player, a =>
    match d.clients.get? client with
    | none => none
    | some c =>
      if c.player ≠ none ∨ a ≠ .ok then
        some (d, withClient client)
      else
        some (d, withPlayer player ++ [wait .login, run (.clientLogin client player)])
  | .clientLogin client player, _ =>
    match d.clients.get? client with
    | none => none
    | some c =>
      if c.loggedIn ≠ .loggedOut then
        -- this return does not post the semaphore
        some (d, withClient client ++ withPlayer player ++ withClient client)
      else
        some (d, [acquire .registry, run (.allPlayers client player)])
  | .allPlayers client player, _ =>
    some (d, d.players.flatMap withPlayer ++ [release .registry]
      ++ d.players.flatMap withPlayer ++ [run (.nameChecked client player)])
  | .nameChecked client player, .fails =>
    some (d, [post .login] ++ withClient client ++ withPlayer player ++ withClient client)
  | .nameChecked client player, .ok =>
    some (d, [acquire (.client client), run (.setPlayer client player)] ++ withPlayer player
      ++ [release (.client client), run (.setLoggedIn client), post .login]
      ++ withPlayer player ++ withClient client)
  | .setPlayer client player, _ =>
    some (d.modifyClient client fun c => { c with player := some player }, [])
  | .setLoggedIn client, _ =>
    some (d.modifyClient client fun c => { c with loggedIn := .loggedIn }, [])
  | .processUsers client, _ =>
    some (d, d.players.flatMap withPlayer ++ [release .registry]
      ++ d.players.flatMap withPlayer ++ withClient client)
  | .cregLookup client, .fails => some (d, [release .registry] ++ withClient client)
  | .cregLookup client, .client invitee =>
    if invitee ∈ d.registered then
      some (d, clientRef invitee ++ [release .registry] ++ clientUnref invitee false
        ++ [run (.processInvite client invitee)])
    else
      none
  | .processInvite client invitee, .role role =>
    if client = invitee then
      some (d, withClient client)
    else
      match role with
      | .nullRole => some (d, withClient client)
      | .firstPlayerRole =>
        some (d, clientMakeInvitation client invitee .secondPlayerRole .firstPlayerRole
          ++ withClient client)
      | .secondPlayerRole =>
        some (d, clientMakeInvitation client invitee .firstPlayerRole .secondPlayerRole
          ++ withClient client)
  | .invCreate _ _ _ _, .fails => some (d, [post .inviteOp])
  | .invCreate source target sourceRole targetRole, .ok =>
    some (d, clientRef source ++ clientRef target
      ++ [run (.invCreated source target sourceRole targetRole)])
  -- its mutex is initialised last, so the first `inv_ref` of `inv_create` is not one anybody sees
  | .invCreated source target sourceRole targetRole, _ =>
    let inv := d.invitations.next
    some ({ d with
        invitations := d.invitations.push { refCount := 1, source, target, sourceRole, targetRole } },
      clientAddInvitation source inv ++ [run (.sourceAdded source target inv)])
  | .sourceAdded _ _ inv, .fails => some (d, invUnref inv ++ [post .inviteOp])
  | .sourceAdded _ target inv, .ok =>
    some (d, clientAddInvitation target inv ++ [run (.targetAdded target inv)])
  | .targetAdded _ _, .fails => some (d, [post .inviteOp])
  | .targetAdded target inv, .ok =>
    some (d, withClient target ++ invUnref inv ++ [post .inviteOp])
  | .clientRef client, _ =>
    match d.clients.get? client with
    | none => none
    | some _ => some (d.modifyClient client fun c => { c with refCount := c.refCount + 1 }, [])
  | .clientUnref client registry, _ =>
    match d.clients.get? client with
    | none => none
    | some _ =>
      some (d.modifyClient client fun c =>
        { c with refCount := c.refCount - 1, server := if registry then none else c.server }, [])
  | .clientFree client, _ =>
    match d.clients.get? client with
    | none => none
    | some c =>
      if c.refCount = 0 ∧ c.loggedIn = .loggedIn then
        some (d, clientLogout client)
      else
        some (d, [])
  | .invRef inv, _ =>
    some ({ d with
      invitations := d.invitations.modify inv fun i => { i with refCount := i.refCount + 1 } }, [])
  | .invUnref inv, _ =>
    match d.invitations.get? inv with
    | none => none
    | some i =>
      if i.refCount - 1 = 0 then
        some ({ d with invitations := d.invitations.free inv },
          [release (.invitation inv)] ++ clientUnref i.source false ++ clientUnref i.target false)
      else
        some ({ d with
            invitations := d.invitations.modify inv fun i => { i with refCount := i.refCount - 1 } },
          [release (.invitation inv)])
  -- the array of ids may have to grow first
  | .getAvailableId client inv, .id id =>
    match d.clients.get? client with
    | none => none
    | some c =>
      if id < c.currentIdSize then
        some (d, [release (.client client)] ++ addInvitation client inv id)
      else if id < c.currentIdSize * 2 then
        some (d.modifyClient client fun c => { c with currentIdSize := c.currentIdSize * 2 },
          [release (.client client)] ++ addInvitation client inv id)
      else
        none
  -- there is no room for it, and this return does not unlock the client
  | .getAvailableId client inv, .fails =>
    match d.clients.get? client with
    | none => none
    | some _ => some (d, addInvitation client inv (-1))
  | .addNode client inv id, _ =>
    some (d.modifyClient client fun c =>
      { c with inviteHead := { id := id, invitation := inv } :: c.inviteHead }, [])
  | .findNode client inv, _ =>
    match d.clients.get? client with
    | none => none
    | some c =>
      match c.inviteHead.find? (·.invitation = inv) with
      | none => some (d, [post .invite])
      | some node =>
        some (d.modifyClient client fun c =>
            { c with inviteHead := c.inviteHead.eraseP (·.invitation = inv) },
          invUnref inv ++ [acquire (.client client), run (.purgeId client node.id), post .invite])
  | .purgeId client id, _ =>
    match d.clients.get? client with
    | none => none
    | some c =>
      if id ≥ c.currentIdSize then
        -- this return does not unlock the client
        some (d, [])
      else
        some (d, [release (.client client)])
  | .getInvitation op client id, _ =>
    match d.clients.get? client with
    | none => none
    | some c =>
      let inv := (c.inviteHead.find? (·.id = id)).map (·.invitation)
      some (d, [release (.client client), run (.found op client inv)])
  | .found _ _ none, _ => some (d, [post .inviteOp])
  | .found _ _ (some _), .fails => some (d, [post .inviteOp])
  | .found op client (some inv), .ok =>
    match op, d.invitations.get? inv, d.opponent? client inv with
    | .revoke, some i, _ =>
      some (d, withClient i.target ++ withClient i.target ++ [run (.unlist client i.target inv)])
    | .decline, some i, _ =>
      some (d, withClient i.source ++ withClient i.source ++ clientRemoveInvitation client inv
        ++ clientRemoveInvitation i.source inv ++ [post .inviteOp])
    | .accept, some i, _ => some (d, withClient i.source ++ withClient i.source ++ [post .inviteOp])
    | .move, some _, some (opponent, _) =>
      some (d, withClient opponent ++ withClient opponent ++ [run (.moved client opponent inv)])
    | .resign, some _, some (opponent, _) =>
      some (d, withClient opponent ++ withClient opponent ++ [run (.results client opponent inv)])
    | _, _, _ => none
  -- nobody has been told, or the game goes on
  | .moved _ _ _, .fails => some (d, [post .inviteOp])
  | .moved client opponent inv, .ok =>
    some (d, withClient opponent ++ [run (.ended client opponent inv)])
  | .ended _ _ _, .fails => some (d, [post .inviteOp])
  | .ended client opponent inv, .ok =>
    some (d, withClient client ++ [run (.results client opponent inv)])
  | .results _ _ _, .fails => some (d, [post .inviteOp])
  | .results client opponent inv, .ok =>
    match d.opponent? client inv with
    | none => none
    | some (_, first) =>
      some (d, postPlayerResults client opponent first ++ [run (.unlist client opponent inv)])
  | .postResults client opponent first, _ =>
    match d.clients.get? client, d.clients.get? opponent with
    | some c, some o =>
      match c.player, o.player with
      | some player, some player' =>
        some (d, (if first then playerPostResult player player' else playerPostResult player' player)
          ++ [post .updateElo])
      | _, _ => some (d, [post .updateElo])
    | _, _ => none
  | .unlist _ _ _, .fails => some (d, [post .inviteOp])
  | .unlist client opponent inv, .ok =>
    some (d, clientRemoveInvitation client inv ++ [run (.removed opponent inv)])
  | .removed _ _, .fails => some (d, [post .inviteOp])
  | .removed opponent inv, .ok =>
    some (d, clientRemoveInvitation opponent inv ++ [post .inviteOp])
  | .clientLogout client, _ =>
    match d.clients.get? client with
    | none => none
    | some c =>
      if c.loggedIn ≠ .loggedIn then
        some (d, [])
      else
        some (d, [wait .logout, run (.logoutLoop client)])
  | .logoutLoop client, .operation op id =>
    some (d, operation op client id ++ [run (.logoutLoop client)])
  | .logoutLoop client, .ok =>
    match (d.clients.get? client).bind Peer.player with
    | none => none
    | some player => some (d, withPlayer player ++ [run (.loggedOut client), post .logout])
  | .loggedOut client, _ =>
    some (d.modifyClient client fun c => { c with loggedIn := .loggedOut }, [])
  | .cregUnregister client, _ =>
    if client ∈ d.registered then
      some ({ d with registered := d.registered.erase client },
        clientLogout client ++ clientUnref client true ++ [release .registry])
    else
      some (d, [release .registry])
  | _, _ => none

/--
The effect of `client_create` on `semaphores[]`: since `is_sem_init` is never set, every call
initialises them again.
-/
def initSemaphores (value : ServerLock → Nat) : ServerLock → Nat
  | .semaphore _ => 1
  | lock => value lock

def serverCode : LockCode ServerLock Data Point Answer where
  main := [run .cregRegister]
  run self m point answer :=
    (expand self m.data point answer).map fun next =>
      ({ value := if point = .clientCreate then initSemaphores m.value else m.value
         data := next.1 }, next.2)

def initialMemory : LockMemory ServerLock Data where
  value
    | .semaphore _ => 0
    | _ => 1
  data := initialData

end Locking

end Jeux
