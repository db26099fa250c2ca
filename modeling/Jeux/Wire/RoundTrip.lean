import Jeux.Wire.Protocol
import Jeux.Service.Machine

/-!
What is sent on a connection is what is received at its other end, however the system calls cut the
bytes up.
-/

namespace Jeux.Wire

structure Outgoing where
  packet : Packet
  pad : Padding

def Outgoing.bytes (out : Outgoing) : List Byte :=
  encoding out.packet.hdr out.pad out.packet.payload

def Outgoing.content (out : Outgoing) : PacketHeader × Option (List Byte) :=
  (out.packet.hdr, out.packet.payload)

def bytesOf (outs : List Outgoing) : List Byte := outs.flatMap Outgoing.bytes

def sendPackets (k : Kernel) : List Outgoing → Channel Byte → List Int × Channel Byte
  | [], s => ([], s)
  | out :: outs, s =>
    let (code, s) := protoSendPacket k out.packet.hdr out.pad out.packet.payload s
    let (codes, s) := sendPackets k outs s
    (code :: codes, s)

def recvPackets (k : Kernel)
    : Nat → Channel Byte → List (Option (PacketHeader × Option (List Byte))) × Channel Byte
  | 0, s => ([], s)
  | n + 1, s =>
    let (received, s) := protoRecvPacket k s
    let (rest, s) := recvPackets k n s
    (received :: rest, s)

variable {k : Kernel}

theorem bytesOf_append_cons (before : List Outgoing) (out : Outgoing) (after : List Outgoing)
    : bytesOf (before ++ out :: after) = bytesOf before ++ (out.bytes ++ bytesOf after) := by
  simp [bytesOf]

theorem Outgoing.bytes_eq (out : Outgoing)
    : out.bytes = headerBytes out.packet.hdr out.pad ++ out.packet.payload.getD [] := by
  unfold Outgoing.bytes encoding
  cases hpayload : out.packet.payload with
  | none => simp
  | some payload =>
    rw [Option.getD_some, ← out.packet.payload_length payload (by simp [hpayload]),
      List.take_length]

theorem protoSendPacket_code (out : Outgoing)
    : Jeux.protoSendPacket true out.packet.hdr out.packet.payload = 0 := by
  have hnone := out.packet.payload_none
  unfold Jeux.protoSendPacket
  cases hpayload : out.packet.payload with
  | none => simp [hnone.mp hpayload]
  | some payload =>
    have hsize : out.packet.hdr.size ≠ 0 := by
      intro hsize
      simp [hnone.mpr hsize] at hpayload
    simp [hsize]

theorem sendPackets_live (hwrite : k.write.Live) (outs : List Outgoing) (s : Channel Byte)
    : ∃ calls, sendPackets k outs s
        =
      (outs.map fun _ => 0, { items := s.items ++ bytesOf outs, calls := calls }) := by
  induction outs generalizing s with
  | nil => exact ⟨s.calls, by simp [sendPackets, bytesOf]⟩
  | cons out outs ih =>
    obtain ⟨calls, hsend⟩
      : ∃ calls, protoSendPacket k out.packet.hdr out.pad out.packet.payload s = (_, _) :=
      protoSendPacket_live hwrite s
    obtain ⟨calls', ih⟩ := ih { items := s.items ++ out.bytes, calls := calls }
    refine ⟨calls', ?_⟩
    unfold sendPackets
    rw [hsend, protoSendPacket_code]
    dsimp only
    rw [← Outgoing.bytes, ih]
    simp [bytesOf]

theorem protoRecvPacket_live (hread : k.read.Live) (hcalloc : ∀ n, k.calloc n = true)
    (out : Outgoing) (rest : List Byte) (calls : Nat)
    : ∃ calls', protoRecvPacket k { items := out.bytes ++ rest, calls := calls }
        =
      (some out.content, { items := rest, calls := calls' }) := by
  have hlength := length_headerBytes out.packet.hdr out.pad
  have hbytes := out.bytes_eq
  obtain ⟨calls₁, hheader⟩ := Channel.get_live hread headerSize []
    { items := out.bytes ++ rest, calls := calls } (by simp)
    (by simp only [hbytes, List.length_append, hlength]; omega)
  -- the first loop takes exactly the header
  rw [List.nil_append, List.length_nil, Nat.sub_zero] at hheader
  dsimp only at hheader
  rw [hbytes, List.append_assoc, List.take_left' hlength, List.drop_left' hlength,
    ← List.append_assoc, ← hbytes] at hheader
  unfold protoRecvPacket Outgoing.content
  rw [hheader]
  dsimp only
  rw [headerOf_headerBytes]
  cases hpayload : out.packet.payload with
  | none =>
    rw [if_pos (out.packet.payload_none.mp hpayload)]
    exact ⟨calls₁, rfl⟩
  | some payload =>
    have hsize : out.packet.hdr.size ≠ 0 := by
      intro hsize
      simp [out.packet.payload_none.mpr hsize] at hpayload
    have hpayloadLength := out.packet.payload_length payload (by simp [hpayload])
    obtain ⟨calls₂, hget⟩ := Channel.get_live hread out.packet.hdr.size.toNat []
      { items := payload ++ rest, calls := calls₁ } (by simp)
      (by simp only [List.length_append, hpayloadLength]; omega)
    -- and the second one exactly the payload
    rw [List.nil_append, List.length_nil, Nat.sub_zero] at hget
    dsimp only at hget
    rw [List.take_left' hpayloadLength, List.drop_left' hpayloadLength] at hget
    rw [if_neg hsize, hcalloc]
    simp only [Bool.not_true, Bool.false_eq_true, ↓reduceIte, Option.getD_some, hget]
    exact ⟨calls₂, rfl⟩

theorem protoRecvPacket_short (hread : k.read.Live) (out : Outgoing) (n : Nat)
    (hshort : n < out.bytes.length) (calls : Nat)
    : (protoRecvPacket k { items := out.bytes.take n, calls := calls }).1 = none := by
  have hlength := length_headerBytes out.packet.hdr out.pad
  have hbytes := out.bytes_eq
  have htake : (out.bytes.take n).length = n := by
    rw [List.length_take]
    omega
  unfold protoRecvPacket
  by_cases hheaderIn : headerSize ≤ n
  . obtain ⟨calls₁, hheader⟩ := Channel.get_live hread headerSize []
      { items := out.bytes.take n, calls := calls } (by simp)
      (by rw [htake, List.length_nil]; omega)
    rw [List.nil_append, List.length_nil, Nat.sub_zero] at hheader
    dsimp only at hheader
    have hhead : (out.bytes.take n).take headerSize = headerBytes out.packet.hdr out.pad := by
      rw [List.take_take, Nat.min_eq_left hheaderIn, hbytes, List.take_left' hlength]
    rw [hhead] at hheader
    rw [hheader]
    dsimp only
    rw [headerOf_headerBytes]
    -- the header is complete, so it is the payload that is cut short
    have hpayloadLength : (out.packet.payload.getD []).length = out.packet.hdr.size.toNat := by
      cases hpayload : out.packet.payload with
      | none => simp [out.packet.payload_none.mp hpayload]
      | some payload => exact out.packet.payload_length payload (by simp [hpayload])
    rw [hbytes, List.length_append, hlength, hpayloadLength] at hshort
    have hsize : out.packet.hdr.size ≠ 0 := by
      intro hsize
      simp only [hsize, UInt16.toNat_zero] at hshort
      omega
    have hget := Channel.get_short k.read out.packet.hdr.size.toNat []
      { items := (out.bytes.take n).drop headerSize, calls := calls₁ }
      (by rw [List.length_drop, htake, List.length_nil]; omega)
    rw [if_neg hsize]
    split
    . rfl
    . split
      . rfl
      . next hsome =>
        rw [hsome] at hget
        simp at hget
  . have hget := Channel.get_short k.read headerSize []
      { items := out.bytes.take n, calls := calls } (by rw [htake, List.length_nil]; omega)
    split
    . rfl
    . next hsome =>
      rw [hsome] at hget
      simp at hget

theorem recvPackets_append (hread : k.read.Live) (hcalloc : ∀ n, k.calloc n = true)
    (outs : List Outgoing) (rest : List Byte) (calls n : Nat)
    : ∃ calls', recvPackets k (outs.length + n) { items := bytesOf outs ++ rest, calls := calls }
        =
      (outs.map (fun out => some out.content)
          ++ (recvPackets k n { items := rest, calls := calls' }).1,
        (recvPackets k n { items := rest, calls := calls' }).2) := by
  induction outs generalizing calls with
  | nil => exact ⟨calls, by simp [bytesOf]⟩
  | cons out outs ih =>
    obtain ⟨calls₁, hrecv⟩ := protoRecvPacket_live hread hcalloc out (bytesOf outs ++ rest) calls
    obtain ⟨calls', ih⟩ := ih calls₁
    refine ⟨calls', ?_⟩
    have hitems : bytesOf (out :: outs) ++ rest = out.bytes ++ (bytesOf outs ++ rest) := by
      simp [bytesOf]
    rw [List.length_cons, Nat.add_right_comm, recvPackets, hitems, hrecv]
    dsimp only
    rw [ih]
    rfl

/--
Every packet sent arrives, in order and as it was; and where the stream ends inside a packet, all
packets before it arrive, and that one is refused.
-/
theorem recvPackets_sendPackets (k : Kernel) (hwrite : k.write.Live) (hread : k.read.Live)
    (hcalloc : ∀ n, k.calloc n = true) (outs : List Outgoing)
    : (sendPackets k outs { items := [], calls := 0 }).1 = outs.map (fun _ => 0)
      ∧ (recvPackets k outs.length
          { items := (sendPackets k outs { items := [], calls := 0 }).2.items, calls := 0 }).1
        =
        outs.map (fun out => some out.content)
      ∧ ∀ before out after, outs = before ++ out :: after → ∀ n < out.bytes.length,
        (recvPackets k (before.length + 1)
          { items := (sendPackets k outs { items := [], calls := 0 }).2.items.take
              ((bytesOf before).length + n),
            calls := 0 }).1
          =
        before.map (fun out => some out.content) ++ [none] := by
  obtain ⟨calls, hsend⟩ := sendPackets_live hwrite outs { items := [], calls := 0 }
  rw [hsend, List.nil_append]
  dsimp only
  refine ⟨rfl, ?_, ?_⟩
  . obtain ⟨calls', hrecv⟩ := recvPackets_append hread hcalloc outs [] 0 0
    rw [List.append_nil, Nat.add_zero] at hrecv
    simp [hrecv, recvPackets]
  . intro before out after houts n hn
    have htake : (bytesOf outs).take ((bytesOf before).length + n)
        = bytesOf before ++ out.bytes.take n := by
      rw [houts, bytesOf_append_cons, List.take_length_add_append,
        List.take_append_of_le_length (by omega)]
    obtain ⟨calls', hrecv⟩ := recvPackets_append hread hcalloc before (out.bytes.take n) 0 1
    rw [htake, hrecv]
    simp [recvPackets, protoRecvPacket_short hread out n hn]

def byteByByte : Kernel where
  write := fun _ _ => 1
  read := fun _ _ => 1
  calloc := fun _ => true

theorem oneByOne_live : Pieces.Live (fun _ _ => 1) where
  pos := by
    intros
    omega
  le := by
    intros
    omega

def twoPackets : List Outgoing :=
  [⟨request .login 0 .nullRole [65] fits_A, zeroPadding⟩,
    ⟨request .users 0 .nullRole [] fits_nil, zeroPadding⟩]

/--
Both of them arrive, or only the first one when the second one is cut off after three bytes.
-/
theorem recvPackets_twoPackets
    : (recvPackets byteByByte 2
          { items := (sendPackets byteByByte twoPackets { items := [], calls := 0 }).2.items,
            calls := 0 }).1
        =
        [some ((request .login 0 .nullRole [65] fits_A).hdr, some [65]),
          some ((request .users 0 .nullRole [] fits_nil).hdr, none)]
      ∧ (recvPackets byteByByte 2
          { items := (sendPackets byteByByte twoPackets { items := [], calls := 0 }).2.items.take 20,
            calls := 0 }).1
        =
        [some ((request .login 0 .nullRole [65] fits_A).hdr, some [65]), none] := by
  obtain ⟨-, hall, hcut⟩ := recvPackets_sendPackets byteByByte oneByOne_live oneByOne_live
    (fun _ => rfl) twoPackets
  exact ⟨hall, hcut [⟨request .login 0 .nullRole [65] fits_A, zeroPadding⟩]
    ⟨request .users 0 .nullRole [] fits_nil, zeroPadding⟩ [] rfl 3 (by decide)⟩

end Jeux.Wire
