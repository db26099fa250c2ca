import Jeux.Impl.Operations

/-!
client_registry.c, and `client_login`, which consults it.
-/

namespace Jeux

open ServerM

namespace ClientRegistry

def insert (cr : ClientRegistry) (client : Option ClientPtr) : ClientRegistry :=
  { cr with clients := cr.clients.set cr.length client, length := cr.length + 1 }

def slots (cr : ClientRegistry) : List (Option ClientPtr) := cr.clients.take cr.length

def members (cr : ClientRegistry) : List ClientPtr := cr.slots.reduceOption

def shift (cr : ClientRegistry) (i : Nat) : ClientRegistry :=
  { cr with
    clients := (List.range' i (cr.length - 1 - i)).foldl
      (fun clients j => clients.set j (clients.getD (j + 1) none)) (cr.clients.set i none) }

def slotOf? (cr : ClientRegistry) (client : ClientPtr) : Option Nat :=
  cr.slots.findIdx? (· = some client)

/--
The end of the locked section of `creg_unregister`: one client fewer, one more may come, and when
none is left `sem` is posted.
-/
def release (cr : ClientRegistry) : ClientRegistry :=
  { cr with
    length := cr.length - 1
    loginQueue := cr.loginQueue + 1
    sem := if cr.length - 1 = 0 then cr.sem + 1 else cr.sem }

end ClientRegistry

def modifyRegistry (f : ClientRegistry → ClientRegistry) : ServerM Unit :=
  modifyStore fun s => { s with clientRegistry := f s.clientRegistry }

/--
`creg_register`. When the client cannot be created its slot stays NULL, and is never given back.
-/
def cregRegister (fd : Int) : ServerM (Option ClientPtr) := do
  let cr := (← getStore).clientRegistry
  if cr.length ≥ maxClients then
    return none
  else if cr.no then
    return none
  else if cr.loginQueue = 0 then
    fault .deadlock
  else
    modifyRegistry fun cr => { cr with loginQueue := cr.loginQueue - 1 }
    let client ← clientCreate fd
    modifyRegistry (·.insert client)
    return client

def cregUnregister (client : ClientPtr) : ServerM Int := do
  match (← getStore).clientRegistry.slotOf? client with
  | none => return -1
  | some i =>
    modifyRegistry (·.shift i)
    let _ ← clientLogout client
    clientUnref client
    modifyRegistry (·.release)
    return 0

def lookupLoop (user : CString) : List (Option ClientPtr) → ServerM (Option ClientPtr)
  | [] => return none
  | none :: rest => lookupLoop user rest
  | some client :: rest => do
    match ← clientGetPlayer client with
    | none => lookupLoop user rest
    | some player =>
      if (← playerGetName player) = user then
        clientRef client
        return some client
      else
        lookupLoop user rest

def cregLookup (user : CString) : ServerM (Option ClientPtr) := do
  lookupLoop user (← getStore).clientRegistry.slots

def allPlayersLoop : List (Option ClientPtr) → ServerM (List PlayerPtr)
  | [] => return []
  | none :: rest => allPlayersLoop rest
  | some client :: rest => do
    match ← clientGetPlayer client with
    | none => allPlayersLoop rest
    | some player =>
      playerRef player
      return player :: (← allPlayersLoop rest)

/--
`creg_all_players`. When there is no room for the array it returns NULL, which both callers
dereference.
-/
def cregAllPlayers : ServerM (List PlayerPtr) := do
  if ← allocate then
    allPlayersLoop (← getStore).clientRegistry.slots
  else
    fault .nullDereference

def loginLoop (name : CString) : List PlayerPtr → ServerM Bool
  | [] => return false
  | player :: rest => do
    let taken := (← playerGetName player) = name
    playerUnref player
    return taken || (← loginLoop name rest)

def loginSemWait : ServerM Unit := do
  if (← getStore).loginSem = 0 then
    fault .deadlock
  else
    modifyStore fun s => { s with loginSem := s.loginSem - 1 }

def loginSemPost : ServerM Unit := modifyStore fun s => { s with loginSem := s.loginSem + 1 }

/--
`client_login`. The first of its returns does not post the semaphore.
-/
def clientLogin (client : ClientPtr) (player : PlayerPtr) : ServerM Int := do
  loginSemWait
  if (← derefClient client).loggedIn ≠ .loggedOut then
    return -1
  else
    let players ← cregAllPlayers
    let name ← playerGetName player
    if ← loginLoop name players then
      loginSemPost
      return -1
    else
      modifyStore (·.modifyClient client fun c => { c with player := some player })
      playerRef player
      modifyStore (·.modifyClient client fun c => { c with loggedIn := .loggedIn })
      loginSemPost
      return 0

def shutdownLoop : List (Option ClientPtr) → ServerM (List Int)
  | [] => return []
  | none :: rest => shutdownLoop rest
  | some client :: rest => do
    let fd ← clientGetFd client
    return fd :: (← shutdownLoop rest)

def cregShutdownAll : ServerM (List Int) := do
  modifyRegistry fun cr => { cr with no := true }
  shutdownLoop (← getStore).clientRegistry.slots

end Jeux
