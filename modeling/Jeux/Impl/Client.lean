import Jeux.Impl.Player

/-!
The part of client.c that looks after one client: its references, its invitation ids and its
connection.
-/

namespace Jeux

open ServerM

namespace Client

def growIds (c : Client) : Client :=
  { c with
    currentIdSize := c.currentIdSize * 2
    availableIds := c.availableIds ++
      (List.range' c.currentIdSize c.currentIdSize).map Int.ofNat }

def takeId (c : Client) : Int × Client :=
  match c.availableIds.findIdx? (· ≠ -1) with
  | some i =>
    (c.availableIds.getD i (-1),
      { c with availableIds := c.availableIds.set i (-1), idUsage := c.idUsage + 1 })
  | none => (-1, c)

def putId (c : Client) (id : Int) : Client :=
  { c with availableIds := c.availableIds.set id.toNat id, idUsage := c.idUsage - 1 }

def eraseNode (c : Client) (inv : InvitationPtr) : Client :=
  { c with inviteHead := c.inviteHead.eraseP (·.invitation = inv) }

def nodeFor? (c : Client) (inv : InvitationPtr) : Option InvitationNode :=
  c.inviteHead.find? (·.invitation = inv)

def nodeWithId? (c : Client) (id : Int) : Option InvitationNode :=
  c.inviteHead.find? (·.id = id)

end Client

/--
The client `client_create` builds, with the reference that it takes for its caller.
-/
def newClient (fd : Int) : Client where
  fd := fd
  refCount := 1
  player := none
  loggedIn := .loggedOut
  availableIds := (List.range 100).map Int.ofNat
  idUsage := 0
  currentIdSize := 100
  inviteHead := []

/--
`client_create`. Since `is_sem_init` is never set, every call initialises the semaphores again.
-/
def clientCreate (fd : Int) : ServerM (Option ClientPtr) := do
  modifyStore fun s => { s with loginSem := 1 }
  if ← allocate then
    if ← allocate then
      let client := (← getStore).clients.next
      modifyStore fun s => { s with clients := s.clients.push (newClient fd) }
      return some client
    else
      return none
  else
    return none

def clientGetPlayer (client : ClientPtr) : ServerM (Option PlayerPtr) := do
  return (← derefClient client).player

def clientGetFd (client : ClientPtr) : ServerM Int := do
  return (← derefClient client).fd

def postPlayerResults (client opponent : ClientPtr) (clientRole winner : GameRole) : ServerM Int := do
  let (player1, player2) ←
    if clientRole = .firstPlayerRole then do
      let player1 ← clientGetPlayer client
      let player2 ← clientGetPlayer opponent
      pure (player1, player2)
    else do
      let player1 ← clientGetPlayer opponent
      let player2 ← clientGetPlayer client
      pure (player1, player2)
  match player1, player2 with
  | some player1, some player2 =>
    playerPostResult player1 player2 winner
    return 0
  | _, _ => return -1

/--
`get_available_id`. When the array cannot grow the function returns with the lock of the client
held, and its caller takes that lock again.
-/
def getAvailableId (client : ClientPtr) : ServerM Int := do
  let c ← derefClient client
  if c.idUsage ≥ c.currentIdSize then
    if ← allocate then
      modifyStore (·.modifyClient client fun c => c.growIds.takeId.2)
      return c.growIds.takeId.1
    else
      fault .deadlock
  else
    modifyStore (·.modifyClient client fun c => c.takeId.2)
    return c.takeId.1

/--
`purge_id`. On an id past the end the function returns with the lock of the client held, and
whoever needs the client next waits for ever.
-/
def purgeId (client : ClientPtr) (id : Int) : ServerM Unit := do
  let c ← derefClient client
  if id ≥ c.currentIdSize then
    fault .deadlock
  else if id < 0 then
    fault .outOfBounds
  else
    modifyStore (·.modifyClient client (·.putId id))

def clientGetInvitationId (client : ClientPtr) (inv : InvitationPtr) : ServerM Int := do
  let c ← derefClient client
  match c.nodeFor? inv with
  | some node => return node.id
  | none => return -1

def clientGetInvitation (client : ClientPtr) (id : Int) : ServerM (Option InvitationPtr) := do
  let c ← derefClient client
  return (c.nodeWithId? id).map (·.invitation)

def clientRef (client : ClientPtr) : ServerM Unit := do
  let _ ← derefClient client
  modifyStore (·.modifyClient client Client.addRef)

def logoutTail (client : ClientPtr) : ServerM Unit := do
  let c ← derefClient client
  playerUnref (← nonNull c.player)
  modifyStore (·.modifyClient client fun c => { c with loggedIn := .loggedOut })

/--
`client_unref`. A client that goes away while logged in is logged out first. Each node of its list
would stand for a reference to it, so the loop of that `client_logout` has nothing to do.
-/
def clientUnref (client : ClientPtr) : ServerM Unit := do
  let c ← derefClient client
  modifyStore (·.modifyClient client Client.dropRef)
  if c.refCount - 1 = 0 then
    if c.loggedIn = .loggedIn then
      if c.inviteHead = [] then
        logoutTail client
      else
        fault .useAfterFree
    modifyStore fun s => { s with clients := s.clients.free client }

/-! ## Sending -/

/--
The return code of `proto_send_packet`, given whether every `write` it made succeeded. A payload
that does not go with the size field is an error, but the header is out by then.
-/
def protoSendPacket (written : Bool) (hdr : PacketHeader) (data : Option CString) : Int :=
  if !written then -1
  else if hdr.size = 0 ∧ data = none then 0
  else if hdr.size ≠ 0 ∧ data = none then -1
  else if hdr.size = 0 ∧ data ≠ none then -1
  else 0

def newHeader (type : PacketType) (id : Int) (role : GameRole) (size : Nat)
    : ServerM PacketHeader := fun env w =>
  .ok (createHeader (env.clock w.trace.sent.length) type id role size, w)

def clientSendPacket (client : ClientPtr) (pkt : PacketHeader) (data : Option CString)
    : ServerM Int := do
  let _ ← derefClient client
  fun env w =>
    let written := env.sendOk w.trace.sent.length
    let packet := { receiver := client, hdr := pkt, data := data, written := written }
    .ok (protoSendPacket written pkt data,
      { w with trace.sent := w.trace.sent ++ [packet] })

def clientSendAck (client : ClientPtr) (data : Option CString) (datalen : Nat) : ServerM Int := do
  let pkt ← newHeader .ack 0 .nullRole datalen
  clientSendPacket client pkt data

def clientSendNack (client : ClientPtr) : ServerM Int := do
  let pkt ← newHeader .nack 0 .nullRole 0
  clientSendPacket client pkt none

end Jeux
