import Jeux.Impl.Registry

/-!
server.c: one handler for each type of request, and the service loop of a connection.
-/

namespace Jeux

open ServerM

def processLogin (payload : Option CString) (client : ClientPtr) : ServerM Int := do
  if (← clientGetPlayer client) ≠ none then
    let _ ← clientSendNack client
    return -1
  else
    match payload with
    | none =>
      let _ ← clientSendNack client
      return -1
    | some username =>
      if username.length = 0 then
        let _ ← clientSendNack client
        return -1
      else
        match ← pregRegister username with
        | none =>
          let _ ← clientSendNack client
          return -1
        | some newPlayer =>
          if (← clientLogin client newPlayer) = -1 then
            let _ ← clientSendNack client
          playerUnref newPlayer
          let _ ← clientSendAck client none 0
          return 1

def decimal (n : Int) : CString :=
  let digits := (Nat.toDigits 10 n.natAbs).map ascii
  if n < 0 then ascii '-' :: digits else digits

def usersLine (name : CString) (rating : Int) : CString :=
  name ++ [ascii '\t'] ++ decimal rating ++ [ascii '\n']

def usersLineRoom (name : CString) : Nat := name.length + 4 + 2 + 1

def usersLoop : List PlayerPtr → ServerM CString
  | [] => return []
  | player :: rest => do
    let name ← playerGetName player
    let line := usersLine name (← playerGetRating player)
    -- the line and its NUL
    if line.length + 1 > usersLineRoom name then
      fault .outOfBounds
    else
      playerUnref player
      return line ++ (← usersLoop rest)

def processUsers (payload : Option CString) (client : ClientPtr) : ServerM Int := do
  if payload ≠ none then
    let _ ← clientSendNack client
    return -1
  else
    let text ← usersLoop (← cregAllPlayers)
    let _ ← clientSendAck client (some text) text.length
    return 0

def processInvite (payload : Option CString) (client : ClientPtr) (hdr : PacketHeader)
    : ServerM Int := do
  match payload with
  | none =>
    let _ ← clientSendNack client
    return -1
  | some user =>
    match ← cregLookup user with
    | none =>
      let _ ← clientSendNack client
      return -1
    | some invitee =>
      clientUnref invitee
      inviteFound invitee
where
  inviteFound (invitee : ClientPtr) : ServerM Int := do
    if client = invitee then
      let _ ← clientSendNack client
      return -1
    else if hdr.role = GameRole.firstPlayerRole.toByte then
      inviteMade (← clientMakeInvitation client invitee .secondPlayerRole .firstPlayerRole)
    else if hdr.role = GameRole.secondPlayerRole.toByte then
      inviteMade (← clientMakeInvitation client invitee .firstPlayerRole .secondPlayerRole)
    else
      let _ ← clientSendNack client
      return -1
  inviteMade (invitationId : Int) : ServerM Int := do
    let pkt ← newHeader .ack invitationId .nullRole 0
    let _ ← clientSendPacket client pkt none
    return 0

/--
What `process_revoke`, `process_decline` and `process_resign` have in common: no payload allowed,
then an operation on the invitation named in the header, answered with ACK or NACK.
-/
def processById (payload : Option CString) (client : ClientPtr) (hdr : PacketHeader)
    (operation : ClientPtr → Int → ServerM Int) : ServerM Int := do
  if payload ≠ none then
    let _ ← clientSendNack client
    return -1
  else if (← operation client hdr.id.toNat) = -1 then
    let _ ← clientSendNack client
    return -1
  else
    let _ ← clientSendAck client none 0
    return 0

def processRevoke (payload : Option CString) (client : ClientPtr) (hdr : PacketHeader) :
    ServerM Int := processById payload client hdr clientRevokeInvitation

def processDecline (payload : Option CString) (client : ClientPtr) (hdr : PacketHeader) :
    ServerM Int := processById payload client hdr clientDeclineInvitation

def processResign (payload : Option CString) (client : ClientPtr) (hdr : PacketHeader) :
    ServerM Int := processById payload client hdr clientResignGame

def processAccept (payload : Option CString) (client : ClientPtr) (hdr : PacketHeader)
    : ServerM Int := do
  if payload ≠ none then
    let _ ← clientSendNack client
    return -1
  else
    match ← clientAcceptInvitation client hdr.id.toNat with
    | (acceptResult, gameState) =>
      if acceptResult = -1 then
        let _ ← clientSendNack client
        return -1
      else
        let _ ← clientSendAck client gameState (gameState.getD []).length
        return 0

def processMove (payload : Option CString) (client : ClientPtr) (hdr : PacketHeader)
    : ServerM Int := do
  match payload with
  | none =>
    let _ ← clientSendNack client
    return -1
  | some move =>
    if (← clientMakeMove client hdr.id.toNat move) = -1 then
      let _ ← clientSendNack client
      return -1
    else
      let _ ← clientSendAck client none 0
      return 0

def PacketType.ofByte? (b : Byte) : Option PacketType :=
  [.no, .login, .users, .invite, .revoke, .accept, .decline, .move, .resign, .ack, .nack, .invited,
    .revoked, .accepted, .declined, .moved, .resigned, .ended].find? (·.toByte = b)

def Packet.text (pkt : Packet) : Option CString := pkt.payload.map cstring

def requestHandler? (type : PacketType) (client : ClientPtr) (pkt : Packet)
    : Option (ServerM Int) :=
  match type with
  | .users => some (processUsers none client)
  | .invite => some (processInvite pkt.text client pkt.hdr)
  | .revoke => some (processRevoke none client pkt.hdr)
  | .accept => some (processAccept none client pkt.hdr)
  | .decline => some (processDecline none client pkt.hdr)
  | .move => some (processMove pkt.text client pkt.hdr)
  | .resign => some (processResign none client pkt.hdr)
  | _ => none

/--
One round of the loop of `jeux_client_service` on a packet received: the new value of
`process_login_packet`, and whether to go on.
-/
def servicePacket (client : ClientPtr) (processLoginPacket : Int) (pkt : Packet)
    : ServerM (Int × Bool) := do
  match PacketType.ofByte? pkt.hdr.type with
  | some .login =>
    return (← processLogin pkt.text client, true)
  | some .no =>
    let _ ← clientLogout client
    return (processLoginPacket, false)
  | some type =>
    match requestHandler? type client pkt with
    | some handler =>
      if processLoginPacket = 0 then
        let _ ← clientSendNack client
        return (processLoginPacket, true)
      else
        let _ ← handler
        return (processLoginPacket, true)
    | none => return (processLoginPacket, true)
  | none => return (processLoginPacket, true)

/--
The loop of `jeux_client_service`. Past the packets listed, `proto_recv_packet` fails.
-/
def serviceLoop (client : ClientPtr) (processLoginPacket : Int) : List Packet → ServerM Unit
  | [] => do
    let _ ← clientLogout client
  | pkt :: pkts => do
    let (processLoginPacket, cont) ← servicePacket client processLoginPacket pkt
    if cont then
      serviceLoop client processLoginPacket pkts
    else
      return ()

def jeuxClientService (connfd : Int) (pkts : List Packet) : ServerM Unit := do
  match ← cregRegister connfd with
  | none => return ()
  | some client =>
    serviceLoop client 0 pkts
    let _ ← cregUnregister client

end Jeux
