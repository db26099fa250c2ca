import Jeux.Lemmas.Numbers
import Jeux.Lemmas.Unregister
import Jeux.Service.Machine

/-!
The service threads of the server side by side. A thread takes one step at a time: it calls an
operation of client.c or a function of a registry, or it sends one packet. Between two steps of a
handler the other threads can take any number of theirs.
-/

namespace Jeux

open ServerM

inductive Response where
  | nack
  | ack (data : Option CString)
  deriving DecidableEq, Repr

/--
Where a service thread is: the next step of its handler. When there is no response left to be sent
it waits in `proto_recv_packet`.
-/
inductive Phase where
  | login (payload : Option CString)
  | logIn (player : PlayerPtr)
  | users
  | lookup (user : CString) (hdr : PacketHeader)
  | unref (invitee : ClientPtr) (hdr : PacketHeader)
  | invite (invitee : ClientPtr) (hdr : PacketHeader)
  | acknowledge (inv : Option InvitationPtr) (id : Int)
  | operation (op : Operation)
  | respond (responses : List Response)
  | logout
  | unregister
  deriving DecidableEq, Repr

structure Thread where
  gate : Int
  phase : Phase
  deriving DecidableEq, Repr

def Phase.request? (type : PacketType) (pkt : Packet) : Option Phase :=
  match type with
  | .users => some .users
  | .invite =>
    match pkt.text with
    | none => some (.respond [.nack])
    | some user => some (.lookup user pkt.hdr)
  | .revoke => some (.operation (.revoke pkt.hdr.id.toNat))
  | .accept => some (.operation (.accept pkt.hdr.id.toNat))
  | .decline => some (.operation (.decline pkt.hdr.id.toNat))
  | .move =>
    match pkt.text with
    | none => some (.respond [.nack])
    | some move => some (.operation (.move pkt.hdr.id.toNat move))
  | .resign => some (.operation (.resign pkt.hdr.id.toNat))
  | _ => none

def Phase.received (gate : Int) (pkt : Packet) : Phase :=
  match PacketType.ofByte? pkt.hdr.type with
  | some .login => .login pkt.text
  | some .no => .logout
  | some type =>
    match Phase.request? type pkt with
    | some phase => if gate = 0 then .respond [.nack] else phase
    | none => .respond []
  | none => .respond []

def Operation.perform (client : ClientPtr) : Operation → ServerM (Int × Option CString)
  | .accept id => clientAcceptInvitation client id
  | op => do return (← op.call client, none)

def Response.send (client : ClientPtr) : Response → ServerM Int
  | .nack => clientSendNack client
  | .ack data => clientSendAck client data (data.getD []).length

namespace Thread

def respond (t : Thread) (responses : List Response) : Thread :=
  { t with phase := .respond responses }

/--
One step of the service thread of a client. At the end of `jeux_client_service` the thread is gone.

The reference to the player that `preg_register` takes is given back at once and not after
`client_login`: the registry has one of its own.
-/
def step (client : ClientPtr) (t : Thread) : ServerM (Option Thread) :=
  match t.phase with
  | .login payload => do
    if (← clientGetPlayer client) ≠ none then
      return some ⟨-1, .respond [.nack]⟩
    else
      match payload with
      | none => return some ⟨-1, .respond [.nack]⟩
      | some username =>
        if username.length = 0 then
          return some ⟨-1, .respond [.nack]⟩
        else
          match ← pregRegister username with
          | none => return some ⟨-1, .respond [.nack]⟩
          | some newPlayer =>
            playerUnref newPlayer
            return some { t with phase := .logIn newPlayer }
  | .logIn player => do
    if (← clientLogin client player) = -1 then
      return some ⟨1, .respond [.nack, .ack none]⟩
    else
      return some ⟨1, .respond [.ack none]⟩
  | .users => do
    let text ← usersLoop (← cregAllPlayers)
    return some (t.respond [.ack (some text)])
  | .lookup user hdr => do
    match ← cregLookup user with
    | none => return some (t.respond [.nack])
    | some invitee => return some { t with phase := .unref invitee hdr }
  | .unref invitee hdr => do
    clientUnref invitee
    return some { t with phase := .invite invitee hdr }
  | .invite invitee hdr => do
    if client = invitee then
      return some (t.respond [.nack])
    else
      match inviteRoles? hdr with
      | none => return some (t.respond [.nack])
      | some (sourceRole, targetRole) =>
        let inv := (← getStore).invitations.next
        let id ← clientMakeInvitation client invitee sourceRole targetRole
        return some { t with phase := .acknowledge (if id = -1 then none else some inv) id }
  | .acknowledge _ id => do
    let pkt ← newHeader .ack id .nullRole 0
    let _ ← clientSendPacket client pkt none
    return some (t.respond [])
  | .operation op => do
    let (result, data) ← op.perform client
    if result = -1 then
      return some (t.respond [.nack])
    else
      return some (t.respond [.ack data])
  | .respond [] => return some t
  | .respond (response :: rest) => do
    let _ ← response.send client
    return some (t.respond rest)
  | .logout => do
    let _ ← clientLogout client
    return some { t with phase := .unregister }
  | .unregister => do
    let _ ← cregUnregister client
    return none

def steps (client : ClientPtr) : Nat → Option Thread → ServerM (Option Thread)
  | 0, t => return t
  | _, none => return none
  | n + 1, some t => do steps client n (← t.step client)

end Thread

/-! ## The threads and the packets -/

/--
A packet sent, with the invitation that it is about and the client that made it.
-/
structure Entry where
  packet : SentPacket
  about : Option (InvitationPtr × ClientPtr)
  deriving DecidableEq, Repr

def Store.withInviter (s : Store) (inv : InvitationPtr) : Option (InvitationPtr × ClientPtr) :=
  (s.invitations.get? inv).map fun i => (inv, i.source)

def entriesAbout (sent : List SentPacket) (about : Option (InvitationPtr × ClientPtr))
    : List Entry := sent.map fun packet => { packet := packet, about := about }

def Store.logoutNodes (s : Store) (client : ClientPtr) : List InvitationNode :=
  match s.clients.get? client with
  | some c => if c.loggedIn = .loggedIn then c.inviteHead else []
  | none => []

def logoutEntries (env : Env) (client : ClientPtr) : List InvitationNode → World → List Entry
  | [], _ => []
  | node :: rest, w =>
    match (logoutNode client node).run env w with
    | .ok (_, w') =>
      entriesAbout (w.sentSince w') (w.store.withInviter node.invitation)
        ++ logoutEntries env client rest w'
    | .error _ => []

def Phase.entries (env : Env) (client : ClientPtr) (w w' : World) : Phase → List Entry
  | .invite _ _ => entriesAbout (w.sentSince w') (some (w.store.invitations.next, client))
  | .acknowledge inv _ => entriesAbout (w.sentSince w') (inv.map fun inv => (inv, client))
  | .operation op =>
    entriesAbout (w.sentSince w') ((op.subject? w.store client).bind w.store.withInviter)
  | .logout => logoutEntries env client (w.store.logoutNodes client) w
  | _ => entriesAbout (w.sentSince w') none

/--
The server with its threads. The history of the packets sent is for the proofs only.
-/
structure Interleaved where
  world : World
  threads : ClientPtr → Option Thread
  history : List Entry

inductive HandlerEvent where
  | connect (fd : Int)
  | packet (client : ClientPtr) (pkt : Packet)
  | hangUp (client : ClientPtr)
  | go (client : ClientPtr)

namespace Interleaved

def goto (σ : Interleaved) (client : ClientPtr) (t : Thread) : Interleaved :=
  { σ with threads := Function.update σ.threads client (some t) }

def go (env : Env) (σ : Interleaved) (client : ClientPtr) (t : Thread) : Except Fault Interleaved :=
  match (t.step client).run env σ.world with
  | .ok (t', w) =>
    .ok {
      world := w
      threads := Function.update σ.threads client t'
      history := σ.history ++ t.phase.entries env client σ.world w }
  | .error f => .error f

/--
One event. A packet, or the end of the connection, is noticed by a thread that waits for a packet.
-/
def exec (env : Env) (σ : Interleaved) : HandlerEvent → Except Fault Interleaved
  | .connect fd =>
    match (cregRegister fd).run env σ.world with
    | .ok (some client, w) => .ok ({ σ with world := w }.goto client ⟨0, .respond []⟩)
    | .ok (none, w) => .ok { σ with world := w }
    | .error f => .error f
  | .packet client pkt =>
    match σ.threads client with
    | some ⟨gate, .respond []⟩ => .ok (σ.goto client ⟨gate, .received gate pkt⟩)
    | _ => .ok σ
  | .hangUp client =>
    match σ.threads client with
    | some ⟨gate, .respond []⟩ => .ok (σ.goto client ⟨gate, .logout⟩)
    | _ => .ok σ
  | .go client =>
    match σ.threads client with
    | some t => σ.go env client t
    | none => .ok σ

def machine (env : Env) : Machine Interleaved HandlerEvent where
  step σ e := (exec env σ e).toOption

def initial : Interleaved where
  world := initialWorld
  threads := fun _ => none
  history := []

end Interleaved

end Jeux
