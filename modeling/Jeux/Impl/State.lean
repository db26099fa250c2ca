import Mathlib.Tactic.Simps.Basic
import Jeux.Util.Heap
import Jeux.Impl.Game

/-!
The memory of the server and the monad its functions run in.

`World` is split in two. `Store` is the state the game service consists of: the heaps of clients,
players, invitations and games, the two registries and the login semaphore. `Trace` is what the
server has done to the outside so far: allocations made, packets sent, results posted. The other
semaphores and mutexes are taken and given back within one call, so they are not part of the state
of a server that executes calls one at a time.
-/

namespace Jeux

abbrev ClientPtr := Nat
abbrev PlayerPtr := Nat
abbrev InvitationPtr := Nat
abbrev GamePtr := Nat

structure Player where
  name : CString
  refCount : Int
  rating : Int
  deriving DecidableEq, Repr

inductive InvitationState where
  | openState
  | acceptedState
  | closedState
  deriving DecidableEq, Repr

structure Invitation where
  state : InvitationState
  refCount : Int
  source : ClientPtr
  target : ClientPtr
  game : Option GamePtr
  sourceRole : GameRole
  targetRole : GameRole
  deriving DecidableEq, Repr

/--
`INVITATION_NODE` of client.c, without the link: lists of nodes are lists.
-/
structure InvitationNode where
  id : Int
  invitation : InvitationPtr
  deriving DecidableEq, Repr

inductive ClientState where
  | loggedOut
  | loggedIn
  deriving DecidableEq, Repr

/--
`CLIENT` of client.c. Slot `i` of `availableIds` holds `i` while that id is free and `-1` while it
is taken.
-/
structure Client where
  fd : Int
  refCount : Int
  player : Option PlayerPtr
  loggedIn : ClientState
  availableIds : List Int
  idUsage : Int
  currentIdSize : Nat
  inviteHead : List InvitationNode
  deriving DecidableEq, Repr

def maxClients : Nat := 64

/--
`CLIENT_REGISTRY` of client_registry.c. The slots from `length` on keep whatever was in them.
-/
structure ClientRegistry where
  sem : Nat
  length : Nat
  no : Bool
  clients : List (Option ClientPtr)
  loginQueue : Nat
  deriving DecidableEq, Repr

structure PlayerRegistry where
  players : List PlayerPtr
  length : Nat
  deriving DecidableEq, Repr

structure Store where
  clients : Heap Client
  players : Heap Player
  invitations : Heap Invitation
  games : Heap Game
  clientRegistry : ClientRegistry
  playerRegistry : PlayerRegistry
  /-- The value of `semaphores[CLIENT_LOGIN_SEM]`. -/
  loginSem : Nat
  deriving DecidableEq, Repr

structure SentPacket where
  receiver : ClientPtr
  hdr : PacketHeader
  data : Option CString
  written : Bool
  deriving DecidableEq, Repr

structure PostedResult where
  player1 : PlayerPtr
  player2 : PlayerPtr
  result : GameRole
  deriving DecidableEq, Repr

structure Trace where
  allocs : Nat
  sent : List SentPacket
  posted : List PostedResult
  deriving DecidableEq, Repr

structure World where
  store : Store
  trace : Trace
  deriving DecidableEq, Repr

abbrev ServerM := ReaderT Env (StateT World (Except Fault))

namespace ServerM

variable {α β : Type}

def run (x : ServerM α) (env : Env) (w : World) : Except Fault (α × World) := x env w

def fault (f : Fault) : ServerM α := fun _ _ => .error f

def getStore : ServerM Store := fun _ w => .ok (w.store, w)

def modifyStore (f : Store → Store) : ServerM Unit := fun _ w => .ok ((), { w with store := f w.store })

def modifyTrace (f : Trace → Trace) : ServerM Unit := fun _ w => .ok ((), { w with trace := f w.trace })

def allocate : ServerM Bool := fun env w =>
  .ok (env.allocOk w.trace.allocs, { w with trace.allocs := w.trace.allocs + 1 })

def derefClient (client : ClientPtr) : ServerM Client := fun _ w =>
  match w.store.clients.get? client with
  | some c => .ok (c, w)
  | none => .error .useAfterFree

def derefPlayer (player : PlayerPtr) : ServerM Player := fun _ w =>
  match w.store.players.get? player with
  | some p => .ok (p, w)
  | none => .error .useAfterFree

def derefInvitation (inv : InvitationPtr) : ServerM Invitation := fun _ w =>
  match w.store.invitations.get? inv with
  | some i => .ok (i, w)
  | none => .error .useAfterFree

def derefGame (game : GamePtr) : ServerM Game := fun _ w =>
  match w.store.games.get? game with
  | some g => .ok (g, w)
  | none => .error .useAfterFree

def nonNull (ptr : Option α) : ServerM α :=
  match ptr with
  | some p => pure p
  | none => fault .nullDereference

end ServerM

/-! ## Reference counts -/

@[simps]
def Player.addRef (p : Player) : Player := { p with refCount := p.refCount + 1 }

@[simps]
def Player.dropRef (p : Player) : Player := { p with refCount := p.refCount - 1 }

@[simps]
def Client.addRef (c : Client) : Client := { c with refCount := c.refCount + 1 }

@[simps]
def Client.dropRef (c : Client) : Client := { c with refCount := c.refCount - 1 }

@[simps]
def Invitation.addRef (i : Invitation) : Invitation := { i with refCount := i.refCount + 1 }

@[simps]
def Invitation.dropRef (i : Invitation) : Invitation := { i with refCount := i.refCount - 1 }

@[simps]
def Game.dropRef (g : Game) : Game := { g with refCount := g.refCount - 1 }

namespace Store

@[simps]
def modifyClient (s : Store) (client : ClientPtr) (f : Client → Client) : Store :=
  { s with clients := s.clients.modify client f }

@[simps]
def modifyPlayer (s : Store) (player : PlayerPtr) (f : Player → Player) : Store :=
  { s with players := s.players.modify player f }

@[simps]
def modifyInvitation (s : Store) (inv : InvitationPtr) (f : Invitation → Invitation) : Store :=
  { s with invitations := s.invitations.modify inv f }

@[simps]
def modifyGame (s : Store) (game : GamePtr) (f : Game → Game) : Store :=
  { s with games := s.games.modify game f }

end Store

def initialStore : Store where
  clients := .empty
  players := .empty
  invitations := .empty
  games := .empty
  clientRegistry :=
    { sem := 0, length := 0, no := false, clients := List.replicate maxClients none,
      loginQueue := maxClients }
  playerRegistry := { players := [], length := 0 }
  loginSem := 0

def initialWorld : World where
  store := initialStore
  trace := { allocs := 0, sent := [], posted := [] }

end Jeux
