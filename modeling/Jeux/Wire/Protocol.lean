import Jeux.Util.Channel
import Jeux.Impl.Client

/-!
protocol.c: how a packet goes over a connection, byte by byte. The functions of client.c only see
whether this succeeds; what `client_send_packet` of the game service calls is `protoSendPacket` of
that module, and `protoSendPacket_live` below is why it may.
-/

namespace Jeux.Wire

structure Padding where
  afterRole : Byte
  afterSize : Byte × Byte
  deriving DecidableEq, Repr

def zeroPadding : Padding where
  afterRole := 0
  afterSize := (0, 0)

def headerSize : Nat := 16

def headerBytes (hdr : PacketHeader) (pad : Padding) : List Byte :=
  [hdr.type, hdr.id, hdr.role, pad.afterRole] ++ bigEndian 2 hdr.size.toNat
    ++ [pad.afterSize.1, pad.afterSize.2] ++ bigEndian 4 hdr.timestampSec.toNat
    ++ bigEndian 4 hdr.timestampNsec.toNat

def headerOf (bytes : List Byte) : PacketHeader where
  type := bytes.getD 0 0
  id := bytes.getD 1 0
  role := bytes.getD 2 0
  size := UInt16.ofNat (ofBigEndian ((bytes.drop 4).take 2))
  timestampSec := UInt32.ofNat (ofBigEndian ((bytes.drop 8).take 4))
  timestampNsec := UInt32.ofNat (ofBigEndian ((bytes.drop 12).take 4))

/--
The system calls: how many bytes each `write` accepts and each `read` has ready, and whether there is
memory for a payload after so many calls of `read`.
-/
structure Kernel where
  write : Pieces
  read : Pieces
  calloc : Nat → Bool

def protoSendPacket (k : Kernel) (hdr : PacketHeader) (pad : Padding) (data : Option (List Byte))
    (s : Channel Byte) : Int × Channel Byte :=
  match Channel.put k.write (headerBytes hdr pad) 0 s with
  | (false, s) => (-1, s)
  | (true, s) =>
    match data with
    | none => if hdr.size = 0 then (0, s) else (-1, s)
    | some data =>
      if hdr.size = 0 then
        (-1, s)
      else
        match Channel.put k.write (data.take hdr.size.toNat) 0 s with
        | (false, s) => (-1, s)
        | (true, s) => (0, s)

/--
`proto_recv_packet`, with the header and the payload it stores for its caller when it returns 0, and
`none` when it returns -1.
-/
def protoRecvPacket (k : Kernel) (s : Channel Byte)
    : Option (PacketHeader × Option (List Byte)) × Channel Byte :=
  match Channel.get k.read headerSize [] s with
  | (none, s) => (none, s)
  | (some bytes, s) =>
    let hdr := headerOf bytes
    if hdr.size = 0 then
      (some (hdr, none), s)
    else if !k.calloc s.calls then
      (none, s)
    else
      match Channel.get k.read hdr.size.toNat [] s with
      | (none, s) => (none, s)
      | (some payload, s) => (some (hdr, some payload), s)

/-! ## The header -/

@[simp]
theorem length_headerBytes (hdr : PacketHeader) (pad : Padding)
    : (headerBytes hdr pad).length = headerSize := by
  simp [headerBytes, headerSize]

theorem headerOf_headerBytes (hdr : PacketHeader) (pad : Padding)
    : headerOf (headerBytes hdr pad) = hdr := by
  obtain ⟨type, id, role, size, sec, nsec⟩ := hdr
  have hsize := size.toNat_lt
  have hsec := sec.toNat_lt
  have hnsec := nsec.toNat_lt
  -- each field is read from the place it was written to
  have hsizeAt : ((headerBytes ⟨type, id, role, size, sec, nsec⟩ pad).drop 4).take 2
      = bigEndian 2 size.toNat := by
    simp [headerBytes, bigEndian]
  have hsecAt : ((headerBytes ⟨type, id, role, size, sec, nsec⟩ pad).drop 8).take 4
      = bigEndian 4 sec.toNat := by
    simp [headerBytes, bigEndian]
  have hnsecAt : ((headerBytes ⟨type, id, role, size, sec, nsec⟩ pad).drop 12).take 4
      = bigEndian 4 nsec.toNat := by
    simp [headerBytes, bigEndian]
  unfold headerOf
  rw [hsizeAt, hsecAt, hnsecAt, ofBigEndian_bigEndian, ofBigEndian_bigEndian, ofBigEndian_bigEndian,
    Nat.mod_eq_of_lt (by omega), Nat.mod_eq_of_lt (by omega), Nat.mod_eq_of_lt (by omega),
    UInt16.ofNat_toNat, UInt32.ofNat_toNat, UInt32.ofNat_toNat]
  rfl

/-! ## Sending -/

variable {k : Kernel} {hdr : PacketHeader} {pad : Padding} {data : Option (List Byte)}

def encoding (hdr : PacketHeader) (pad : Padding) (data : Option (List Byte)) : List Byte :=
  headerBytes hdr pad ++ (data.getD []).take hdr.size.toNat

/--
With every `write` accepting something, the return code is the one the game service reckons with,
and the bytes are those of the packet.
-/
theorem protoSendPacket_live (hwrite : k.write.Live) (s : Channel Byte)
    : ∃ calls, protoSendPacket k hdr pad data s
        =
      (Jeux.protoSendPacket true hdr data,
        { items := s.items ++ encoding hdr pad data, calls := calls }) := by
  obtain ⟨calls, hheader⟩ := Channel.put_live hwrite (headerBytes hdr pad) 0 s
  rw [List.drop_zero] at hheader
  unfold protoSendPacket Jeux.protoSendPacket encoding
  rw [hheader]
  cases data with
  | none =>
    refine ⟨calls, ?_⟩
    by_cases hsize : hdr.size = 0
    . simp [hsize]
    . simp [hsize]
  | some data =>
    by_cases hsize : hdr.size = 0
    . exact ⟨calls, by simp [hsize]⟩
    . obtain ⟨calls', hpayload⟩ := Channel.put_live hwrite (data.take hdr.size.toNat) 0
        { items := s.items ++ headerBytes hdr pad, calls := calls }
      refine ⟨calls', ?_⟩
      simp [hsize, hpayload]

end Jeux.Wire
