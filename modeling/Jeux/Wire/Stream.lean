import Jeux.Wire.RoundTrip

/-!
Any bytes at all on a connection. They are whole packets and a rest that is none, and this is what
the receiver takes them for, however the system calls cut them up and wherever they fail.
-/

namespace Jeux.Wire

/-! ## What bytes consist of -/

def packetOf (hdr : PacketHeader) (payload : List Byte) (hlength : payload.length = hdr.size.toNat)
    : Packet where
  hdr := hdr
  payload := if hdr.size = 0 then none else some payload
  payload_none := by
    split
    . next h => simp [h]
    . next h => simp [h]
  payload_length := by
    intro p hp
    split at hp
    . simp at hp
    . rw [← hlength, ← Option.some.inj hp]

def splitPacket? (bytes : List Byte) : Option (Packet × List Byte) :=
  if bytes.length < headerSize then
    none
  else
    let hdr := headerOf (bytes.take headerSize)
    let rest := bytes.drop headerSize
    if h : hdr.size.toNat ≤ rest.length then
      some (packetOf hdr (rest.take hdr.size.toNat) (List.length_take_of_le h),
        rest.drop hdr.size.toNat)
    else
      none

variable {bytes rest : List Byte} {pkt : Packet} {k : Kernel}

theorem length_of_splitPacket? (h : splitPacket? bytes = some (pkt, rest))
    : rest.length < bytes.length := by
  unfold splitPacket? at h
  split at h
  . simp at h
  . next hlong =>
    dsimp only at h
    split at h
    . simp only [Option.some.injEq, Prod.mk.injEq] at h
      rw [← h.2, List.length_drop, List.length_drop]
      unfold headerSize at hlong ⊢
      omega
    . simp at h

def packetsIn (bytes : List Byte) : List Packet :=
  match _h : splitPacket? bytes with
  | none => []
  | some (pkt, rest) => pkt :: packetsIn rest
termination_by bytes.length
decreasing_by exact length_of_splitPacket? _h

theorem packetsIn_none (h : splitPacket? bytes = none) : packetsIn bytes = [] := by
  unfold packetsIn
  split
  . rfl
  . next pkt rest hsome =>
    rw [h] at hsome
    simp at hsome

theorem packetsIn_some (h : splitPacket? bytes = some (pkt, rest))
    : packetsIn bytes = pkt :: packetsIn rest := by
  rw [packetsIn]
  split
  . next hnone =>
    rw [h] at hnone
    simp at hnone
  . next pkt' rest' hsome =>
    rw [h] at hsome
    obtain ⟨rfl, rfl⟩ := Prod.mk.inj (Option.some.inj hsome)
    rfl

/-! ## Receiving -/

/--
What the service loop receives: `proto_recv_packet` is called until it returns -1. Each call takes
something off the channel, so there are no more of them than there are bytes.
-/
def receiveAll (k : Kernel) : Nat → Channel Byte → List (PacketHeader × Option (List Byte))
  | 0, _ => []
  | n + 1, s =>
    match protoRecvPacket k s with
    | (none, _) => []
    | (some received, s) => received :: receiveAll k n s

def contentOf (pkt : Packet) : PacketHeader × Option (List Byte) := (pkt.hdr, pkt.payload)

theorem protoRecvPacket_sound (hread : k.read.Bounded) {s s' : Channel Byte}
    {received : PacketHeader × Option (List Byte)} (h : protoRecvPacket k s = (some received, s'))
    : ∃ pkt, splitPacket? s.items = some (pkt, s'.items) ∧ received = contentOf pkt := by
  unfold protoRecvPacket at h
  split at h
  . simp at h
  . next bytes s₁ hheader =>
    obtain ⟨hbytes, hrest, henough⟩ := Channel.get_eq_some hread (by simp) hheader
    rw [List.length_nil, Nat.sub_zero] at hbytes hrest
    rw [List.nil_append] at hbytes
    rw [List.length_nil, Nat.zero_add] at henough
    subst hbytes
    unfold splitPacket?
    rw [if_neg (by omega)]
    dsimp only at h ⊢
    split at h
    . next hsize =>
      simp only [Prod.mk.injEq, Option.some.injEq] at h
      obtain ⟨rfl, rfl⟩ := h
      have hzero : (headerOf (s.items.take headerSize)).size.toNat = 0 := by simp [hsize]
      simp only [hzero, Nat.zero_le, ↓reduceDIte, Option.some.injEq, Prod.mk.injEq, List.drop_zero]
      exact ⟨_, ⟨rfl, hrest.symm⟩, by simp [contentOf, packetOf, hsize]⟩
    . next hsize =>
      split at h
      . simp at h
      . split at h
        . simp at h
        . next payload s₂ hpayload =>
          obtain ⟨hbytes, hrest', henough'⟩ := Channel.get_eq_some hread (by simp) hpayload
          rw [List.length_nil, Nat.sub_zero, hrest] at hbytes hrest'
          rw [List.nil_append] at hbytes
          rw [List.length_nil, Nat.zero_add, hrest] at henough'
          simp only [Prod.mk.injEq, Option.some.injEq] at h
          obtain ⟨rfl, rfl⟩ := h
          rw [dif_pos henough']
          exact ⟨_, by rw [hrest'], by simp [contentOf, packetOf, hsize, hbytes]⟩

theorem protoRecvPacket_complete (hread : k.read.Live) (hcalloc : ∀ n, k.calloc n = true)
    {s : Channel Byte} (h : splitPacket? s.items = some (pkt, rest))
    : ∃ calls, protoRecvPacket k s = (some (contentOf pkt), { items := rest, calls := calls }) := by
  unfold splitPacket? at h
  split at h
  . simp at h
  . next hlong =>
    dsimp only at h
    split at h
    . next hfits =>
      simp only [Option.some.injEq, Prod.mk.injEq] at h
      obtain ⟨rfl, rfl⟩ := h
      obtain ⟨calls, hheader⟩ := Channel.get_live hread headerSize [] s (by simp)
        (by rw [List.length_nil]; omega)
      rw [List.nil_append, List.length_nil, Nat.sub_zero] at hheader
      unfold protoRecvPacket
      rw [hheader]
      dsimp only
      split
      . next hsize => exact ⟨calls, by simp [contentOf, packetOf, hsize]⟩
      . next hsize =>
        obtain ⟨calls', hpayload⟩ := Channel.get_live hread
          (headerOf (s.items.take headerSize)).size.toNat []
          { items := s.items.drop headerSize, calls := calls } (by simp)
          (by rw [List.length_nil, Nat.zero_add]; exact hfits)
        rw [List.nil_append, List.length_nil, Nat.sub_zero] at hpayload
        dsimp only at hpayload
        simp only [hcalloc, Bool.not_true, Bool.false_eq_true, ↓reduceIte, hpayload]
        exact ⟨calls', by simp [contentOf, packetOf, hsize]⟩
    . simp at h

theorem receiveAll_prefix (hread : k.read.Bounded) (n : Nat) (s : Channel Byte)
    : receiveAll k n s <+: (packetsIn s.items).map contentOf := by
  induction n generalizing s with
  | zero => exact List.nil_prefix
  | succ n ih =>
    unfold receiveAll
    split
    . exact List.nil_prefix
    . next received s' hrecv =>
      obtain ⟨pkt, hsplit, rfl⟩ := protoRecvPacket_sound hread hrecv
      rw [packetsIn_some hsplit, List.map_cons, List.cons_prefix_cons]
      exact ⟨rfl, ih s'⟩

theorem receiveAll_live (hread : k.read.Live) (hcalloc : ∀ n, k.calloc n = true) (n : Nat)
    (s : Channel Byte) (hn : s.items.length ≤ n)
    : receiveAll k (n + 1) s = (packetsIn s.items).map contentOf := by
  induction n generalizing s with
  | zero =>
    have hnone : splitPacket? s.items = none := by
      unfold splitPacket?
      exact if_pos (by unfold headerSize; omega)
    rw [packetsIn_none hnone]
    unfold receiveAll
    split
    . rfl
    . next received s' hrecv =>
      obtain ⟨pkt, hsplit, -⟩ := protoRecvPacket_sound hread.bounded hrecv
      rw [hnone] at hsplit
      simp at hsplit
  | succ n ih =>
    unfold receiveAll
    cases hsplit : splitPacket? s.items with
    | none =>
      rw [packetsIn_none hsplit]
      split
      . rfl
      . next received s' hrecv =>
        obtain ⟨pkt, hsplit', -⟩ := protoRecvPacket_sound hread.bounded hrecv
        rw [hsplit] at hsplit'
        simp at hsplit'
    | some p =>
      obtain ⟨pkt, rest⟩ := p
      obtain ⟨calls, hrecv⟩ := protoRecvPacket_complete hread hcalloc hsplit
      have hshorter := length_of_splitPacket? hsplit
      rw [packetsIn_some hsplit, hrecv]
      dsimp only
      rw [ih _ (by dsimp only; omega), List.map_cons]

/-! ## Encoding and decoding -/

def paddingOf (bytes : List Byte) : Padding where
  afterRole := bytes.getD 3 0
  afterSize := (bytes.getD 6 0, bytes.getD 7 0)

theorem headerBytes_headerOf (hlength : bytes.length = headerSize)
    : headerBytes (headerOf bytes) (paddingOf bytes) = bytes := by
  have hroundtrip : ∀ part : List Byte, part.length = 2 →
      bigEndian 2 (UInt16.ofNat (ofBigEndian part)).toNat = part := by
    intro part hpart
    have hlt := ofBigEndian_lt part
    rw [hpart] at hlt
    rw [UInt16.toNat_ofNat', Nat.mod_eq_of_lt (by omega), ← hpart, bigEndian_ofBigEndian]
  have hroundtrip' : ∀ part : List Byte, part.length = 4 →
      bigEndian 4 (UInt32.ofNat (ofBigEndian part)).toNat = part := by
    intro part hpart
    have hlt := ofBigEndian_lt part
    rw [hpart] at hlt
    rw [UInt32.toNat_ofNat', Nat.mod_eq_of_lt (by omega), ← hpart, bigEndian_ofBigEndian]
  match bytes, hlength with
  | [a, b, c, d, e, f, g, h, i, j, k, l, m, n, o, p], _ =>
    unfold headerBytes headerOf
    dsimp only
    rw [hroundtrip _ rfl, hroundtrip' _ rfl, hroundtrip' _ rfl]
    rfl

theorem bytes_of_splitPacket? (h : splitPacket? bytes = some (pkt, rest))
    : bytes = Outgoing.bytes ⟨pkt, paddingOf (bytes.take headerSize)⟩ ++ rest := by
  rw [Outgoing.bytes_eq]
  unfold splitPacket? at h
  split at h
  . simp at h
  . next hlong =>
    dsimp only at h
    split at h
    . next hfits =>
      simp only [Option.some.injEq, Prod.mk.injEq] at h
      obtain ⟨rfl, rfl⟩ := h
      have hpayload : ((packetOf (headerOf (bytes.take headerSize))
          ((bytes.drop headerSize).take (headerOf (bytes.take headerSize)).size.toNat)
          (List.length_take_of_le hfits)).payload.getD [])
          = (bytes.drop headerSize).take (headerOf (bytes.take headerSize)).size.toNat := by
        unfold packetOf
        dsimp only
        split
        . next hsize => simp [hsize]
        . rfl
      dsimp only
      rw [hpayload]
      show bytes = headerBytes (headerOf (bytes.take headerSize)) _ ++ _ ++ _
      rw [headerBytes_headerOf (List.length_take_of_le (by omega)), List.append_assoc,
        List.take_append_drop, List.take_append_drop]
    . simp at h

theorem exists_bytesOf (bytes : List Byte)
    : ∃ outs rest, bytes = bytesOf outs ++ rest ∧ packetsIn bytes = outs.map (·.packet)
        ∧ splitPacket? rest = none := by
  fun_induction packetsIn bytes with
  | case1 bytes h => exact ⟨[], bytes, by simp [bytesOf], rfl, h⟩
  | case2 bytes pkt rest h ih =>
    obtain ⟨outs, rest', hrest, hpackets, hend⟩ := ih
    refine ⟨⟨pkt, paddingOf (bytes.take headerSize)⟩ :: outs, rest', ?_, by simp [hpackets], hend⟩
    refine (bytes_of_splitPacket? h).trans ?_
    rw [hrest]
    simp [bytesOf]

theorem splitPacket?_bytes (out : Outgoing) (rest : List Byte)
    : splitPacket? (out.bytes ++ rest) = some (out.packet, rest) := by
  have hlength := length_headerBytes out.packet.hdr out.pad
  have hbytes := out.bytes_eq
  have hpayloadLength : (out.packet.payload.getD []).length = out.packet.hdr.size.toNat := by
    cases hpayload : out.packet.payload with
    | none => simp [out.packet.payload_none.mp hpayload]
    | some payload => exact out.packet.payload_length payload (by simp [hpayload])
  have hheader : (out.bytes ++ rest).take headerSize = headerBytes out.packet.hdr out.pad := by
    rw [hbytes, List.append_assoc, List.take_left' hlength]
  have hafter : (out.bytes ++ rest).drop headerSize = out.packet.payload.getD [] ++ rest := by
    rw [hbytes, List.append_assoc, List.drop_left' hlength]
  have hlong : ¬ (out.bytes ++ rest).length < headerSize := by
    rw [hbytes, List.length_append, List.length_append, hlength]
    omega
  have hpacket : ∀ h, packetOf out.packet.hdr (out.packet.payload.getD []) h = out.packet := by
    intro h
    have hpayload : (if out.packet.hdr.size = 0 then none else some (out.packet.payload.getD []))
        = out.packet.payload := by
      have hnone := out.packet.payload_none
      cases hpayload : out.packet.payload with
      | none => rw [if_pos (hnone.mp hpayload)]
      | some payload =>
        rw [if_neg fun hsize => by simp [hnone.mpr hsize] at hpayload, Option.getD_some]
    unfold packetOf
    simp only [hpayload]
  unfold splitPacket?
  rw [if_neg hlong]
  simp only [hheader, headerOf_headerBytes, hafter, List.length_append, hpayloadLength,
    Nat.le_add_right, ↓reduceDIte, List.take_left' hpayloadLength, List.drop_left' hpayloadLength,
    hpacket]

theorem packetsIn_bytesOf (outs : List Outgoing) (rest : List Byte)
    : packetsIn (bytesOf outs ++ rest) = outs.map (·.packet) ++ packetsIn rest := by
  induction outs with
  | nil => rfl
  | cons out outs ih =>
    have hcons : bytesOf (out :: outs) ++ rest = out.bytes ++ (bytesOf outs ++ rest) := by
      simp [bytesOf]
    rw [hcons, packetsIn_some (splitPacket?_bytes out _), ih]
    rfl

/--
`bytes` are the packets `outs` and an incomplete rest.
-/
structure Consists (bytes : List Byte) (outs : List Outgoing) (rest : List Byte) : Prop where
  bytes : bytes = bytesOf outs ++ rest
  rest : splitPacket? rest = none

/--
All bytes that may arrive consist of packets, in one way only as far as their contents go. Whatever
the system calls do the receiver gets the first of them, and all of them if no call fails.
-/
theorem stream_received (bytes : List Byte)
    : ∃ outs rest, Consists bytes outs rest
        ∧ (∀ outs' rest', Consists bytes outs' rest' →
          outs'.map (·.packet) = outs.map (·.packet))
        ∧ ∀ (k : Kernel) (n calls : Nat),
          (k.read.Bounded →
            receiveAll k n { items := bytes, calls := calls } <+: outs.map Outgoing.content)
          ∧ (k.read.Live → (∀ n, k.calloc n = true) → bytes.length < n →
            receiveAll k n { items := bytes, calls := calls } = outs.map Outgoing.content) := by
  obtain ⟨outs, rest, hbytes, hpackets, hrest⟩ := exists_bytesOf bytes
  have hcontent : (packetsIn bytes).map contentOf = outs.map Outgoing.content := by
    rw [hpackets, List.map_map]
    rfl
  refine ⟨outs, rest, ⟨hbytes, hrest⟩, ?_, fun k n calls => ⟨?_, ?_⟩⟩
  . rintro outs' rest' ⟨hbytes', hrest'⟩
    rw [← hpackets, hbytes', packetsIn_bytesOf, packetsIn_none hrest', List.append_nil]
  . intro hread
    rw [← hcontent]
    exact receiveAll_prefix hread n _
  . intro hread hcalloc hn
    obtain ⟨m, rfl⟩ : ∃ m, n = m + 1 := ⟨n - 1, by omega⟩
    rw [← hcontent]
    exact receiveAll_live hread hcalloc m _ (by dsimp only; omega)

/--
Two packets and three bytes of another one.
-/
theorem stream_received_of_cutOff
    : ∃ outs rest, Consists (bytesOf twoPackets ++ [1, 0, 0]) outs rest
        ∧ outs.map (·.packet) = twoPackets.map (·.packet)
        ∧ receiveAll byteByByte 40 { items := bytesOf twoPackets ++ [1, 0, 0], calls := 0 }
          = outs.map Outgoing.content := by
  obtain ⟨outs, rest, hconsists, hunique, hreceived⟩ :=
    stream_received (bytesOf twoPackets ++ [1, 0, 0])
  exact ⟨outs, rest, hconsists, (hunique twoPackets [1, 0, 0] ⟨rfl, rfl⟩).symm,
    (hreceived byteByByte 40 0).2 oneByOne_live (fun _ => rfl) (by decide)⟩

end Jeux.Wire
