import Mathlib.Data.Rat.Defs

/-!
The vocabulary shared by every component of the server: roles, packet headers, the outside world
a call depends on, and the ways a call can go wrong without returning.
-/

namespace Jeux

abbrev Byte := UInt8

abbrev CString := List Byte

/--
What `strncpy` into a zeroed buffer leaves of some bytes when they are read as a C string.
-/
def cstring (bytes : List Byte) : CString := bytes.takeWhile (· ≠ 0)

inductive GameRole where
  | nullRole
  | firstPlayerRole
  | secondPlayerRole
  deriving DecidableEq, Repr

def GameRole.toByte : GameRole → Byte
  | .nullRole => 0
  | .firstPlayerRole => 1
  | .secondPlayerRole => 2

inductive PacketType where
  | no
  | login
  | users
  | invite
  | revoke
  | accept
  | decline
  | move
  | resign
  | ack
  | nack
  | invited
  | revoked
  | accepted
  | declined
  | moved
  | resigned
  | ended
  deriving DecidableEq, Repr

def PacketType.toByte : PacketType → Byte
  | .no => 0
  | .login => 1
  | .users => 2
  | .invite => 3
  | .revoke => 4
  | .accept => 5
  | .decline => 6
  | .move => 7
  | .resign => 8
  | .ack => 9
  | .nack => 10
  | .invited => 11
  | .revoked => 12
  | .accepted => 13
  | .declined => 14
  | .moved => 15
  | .resigned => 16
  | .ended => 17

structure PacketHeader where
  type : Byte
  id : Byte
  role : Byte
  size : UInt16
  timestampSec : UInt32
  timestampNsec : UInt32
  deriving DecidableEq, Repr

/--
A packet as `proto_recv_packet` delivers it: the payload pointer is NULL exactly when the size
field is zero, and otherwise points to that many bytes.
-/
structure Packet where
  hdr : PacketHeader
  payload : Option (List Byte)
  payload_none : payload = none ↔ hdr.size = 0
  payload_length : ∀ bytes ∈ payload, bytes.length = hdr.size.toNat

/--
The ways a call can end without returning.
-/
inductive Fault where
  /-- A NULL pointer is dereferenced. -/
  | nullDereference
  /-- An object is used, or freed, after its reference count has reached zero. -/
  | useAfterFree
  /-- A write lands outside the buffer it was meant for. -/
  | outOfBounds
  /-- The thread waits for a lock that nobody is ever going to release. -/
  | deadlock
  deriving DecidableEq, Repr

/--
What the code takes from outside. Only allocations whose result is checked ask `allocOk`: where
the code uses the result unchecked a failure crashes the process, and the run ends before the call.
-/
structure Env where
  /-- Do the `write` calls of the `n`-th packet all succeed? -/
  sendOk : Nat → Bool
  /-- Does the `n`-th checked allocation succeed? -/
  allocOk : Nat → Bool
  /-- The seconds and nanoseconds read when `n` packets have been sent. -/
  clock : Nat → UInt32 × UInt32
  /-- The value of `1.0 / (1.0 + pow(10.0, d / 400.0))`. -/
  expected : Int → Rat

def createHeader (clock : UInt32 × UInt32) (type : PacketType) (id : Int) (role : GameRole)
    (size : Nat) : PacketHeader where
  type := type.toByte
  id := UInt8.ofInt id
  role := role.toByte
  size := UInt16.ofNat size
  timestampSec := clock.1
  timestampNsec := clock.2

end Jeux
