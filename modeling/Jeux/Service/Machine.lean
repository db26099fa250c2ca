import Mathlib.Logic.Function.Basic
import Jeux.Util.Machine
import Jeux.Lemmas.Requests

/-!
The server as a machine. Its events are what can happen to it from outside: a connection is opened,
a packet arrives, a connection is lost. Each is handled to its end before the next, so the calls of
different threads do not overlap. An event of a fourth kind calls one operation of client.c
directly, with any arguments that fit, whatever their number in a packet would be.
-/

namespace Jeux

open ServerM

/--
The threads of the server. To each connection belongs the client registered for it, and the local
variable `process_login_packet` of `jeux_client_service`.
-/
structure Server where
  world : World
  connections : ClientPtr → Option Int

inductive Event where
  | connect (fd : Int)
  | packet (client : ClientPtr) (pkt : Packet)
  | hangUp (client : ClientPtr)
  | call (client : ClientPtr) (op : Operation)

def initialServer : Server where
  world := initialWorld
  connections := fun _ => none

def Store.isLoggedIn (s : Store) (client : ClientPtr) : Bool :=
  match s.clients.get? client with
  | some c => c.loggedIn = .loggedIn
  | none => false

/--
The arguments of an operation are such as the handlers of server.c pass.
-/
def Operation.Fits (s : Store) (client : ClientPtr) : Operation → Prop
  | .make target sourceRole targetRole => target ≠ client
      ∧ 0 < s.registered target ∧ s.isLoggedIn target
      ∧ ((sourceRole = .firstPlayerRole ∧ targetRole = .secondPlayerRole)
        ∨ (sourceRole = .secondPlayerRole ∧ targetRole = .firstPlayerRole))
  | _ => True

instance (s : Store) (client : ClientPtr) (op : Operation) : Decidable (op.Fits s client) := by
  unfold Operation.Fits
  split <;> infer_instance

/--
Everything the server asks of its surroundings succeeds.
-/
structure Env.Reliable (env : Env) : Prop where
  sends : ∀ n, env.sendOk n = true
  allocs : ∀ n, env.allocOk n = true

/--
A reliable environment with a stopped clock, in which every game is even.
-/
def calmEnv : Env where
  sendOk := fun _ => true
  allocOk := fun _ => true
  clock := fun _ => (0, 0)
  expected := fun _ => 1 / 2

def request (type : PacketType) (id : Byte) (role : GameRole) (bytes : List Byte)
    (hsize : bytes.length < 65536) : Packet where
  hdr :=
    { type := type.toByte, id := id, role := role.toByte, size := UInt16.ofNat bytes.length,
      timestampSec := 0, timestampNsec := 0 }
  payload := if bytes.length = 0 then none else some bytes
  payload_none := by
    rw [← UInt16.toNat_inj]
    simp only [UInt16.toNat_ofNat', UInt16.toNat_zero]
    split
    . next h => simp [h]
    . next h =>
      simp only [reduceCtorEq, false_iff]
      omega
  payload_length := by
    intro payload hpayload
    split at hpayload
    . simp at hpayload
    . simp only [Option.mem_def, Option.some.injEq] at hpayload
      subst hpayload
      simp only [UInt16.toNat_ofNat']
      omega

theorem fits_nil : ([] : List Byte).length < 65536 := by decide

theorem fits_A : ([65] : List Byte).length < 65536 := by decide

theorem fits_B : ([66] : List Byte).length < 65536 := by decide

theorem calmEnv_reliable : calmEnv.Reliable := ⟨fun _ => rfl, fun _ => rfl⟩

def faultyEnv : Env := { calmEnv with sendOk := fun n => n ≠ 4 }

def twoPlayers : List Event :=
  [.connect 4, .connect 5, .packet 0 (request .login 0 .nullRole [65] fits_A),
    .packet 1 (request .login 0 .nullRole [66] fits_B)]

def invitedEvents : List Event :=
  twoPlayers ++ [.packet 0 (request .invite 0 .firstPlayerRole [66] fits_B)]

def acceptedEvents : List Event :=
  invitedEvents ++ [.packet 1 (request .accept 0 .nullRole [] fits_nil)]

def moveEvent (client : ClientPtr) (square : Char) : Event :=
  .packet client (request .move 0 .nullRole [ascii square] (by simp))

def aboutToWinEvents : List Event :=
  acceptedEvents ++ [moveEvent 1 '1', moveEvent 0 '2', moveEvent 1 '5', moveEvent 0 '3']

namespace Server

def close (env : Env) (w : World) (connections : ClientPtr → Option Int) (client : ClientPtr)
    : Except Fault Server :=
  match (cregUnregister client).run env w with
  | .ok (_, w) => .ok { world := w, connections := Function.update connections client none }
  | .error f => .error f

def exec (env : Env) (σ : Server) : Event → Except Fault Server
  | .connect fd =>
    match (cregRegister fd).run env σ.world with
    | .ok (some client, w) =>
      .ok { world := w, connections := Function.update σ.connections client (some 0) }
    | .ok (none, w) => .ok { σ with world := w }
    | .error f => .error f
  | .packet client pkt =>
    match σ.connections client with
    | none => .ok σ
    | some gate =>
      match (servicePacket client gate pkt).run env σ.world with
      | .ok ((gate, true), w) =>
        .ok { world := w, connections := Function.update σ.connections client (some gate) }
      | .ok ((_, false), w) => close env w σ.connections client
      | .error f => .error f
  | .hangUp client =>
    match σ.connections client with
    | none => .ok σ
    | some _ =>
      match (clientLogout client).run env σ.world with
      | .ok (_, w) => close env w σ.connections client
      | .error f => .error f
  | .call client op =>
    if σ.connections client ≠ none ∧ σ.world.store.isLoggedIn client
        ∧ op.Fits σ.world.store client then
      match (op.call client).run env σ.world with
      | .ok (_, w) => .ok { σ with world := w }
      | .error f => .error f
    else
      .ok σ

def machine (env : Env) : Machine Server Event where
  step σ e := (exec env σ e).toOption

def Reachable (env : Env) (σ : Server) : Prop :=
  (machine env).Reach (fun _ _ => True) initialServer σ

/--
A thread on its own: `jeux_client_service` is the connection opened, its packets one after the
other, and the connection lost.
-/
def serve (env : Env) (client : ClientPtr) : Server → List Packet → Except Fault Server
  | σ, [] => exec env σ (.hangUp client)
  | σ, pkt :: pkts => do
    let σ ← exec env σ (.packet client pkt)
    serve env client σ pkts

end Server

end Jeux
