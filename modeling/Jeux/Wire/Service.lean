import Jeux.Impl.Server
import Jeux.Wire.Stream

/-!
`jeux_client_service` on the bytes of a connection. To the rest of the server it is the same as on
the packets that these bytes consist of.
-/

namespace Jeux.Wire

variable {k : Kernel} {s s' : Channel Byte} {pkt : Packet} {client : ClientPtr} {gate : Int}

/-! ## The loop -/

section Loop

variable (k : Kernel) (hread : k.read.Bounded)

/--
`proto_recv_packet`, with the header and the payload in one. They fit, as no `read` gives more than
it is asked for.
-/
def recvPacket (s : Channel Byte) : Option Packet × Channel Byte :=
  match h : protoRecvPacket k s with
  | (none, s) => (none, s)
  | (some received, s) =>
    let pkt : Packet := {
      hdr := received.1
      payload := received.2
      payload_none := by
        obtain ⟨pkt, -, rfl⟩ := protoRecvPacket_sound hread h
        exact pkt.payload_none
      payload_length := by
        obtain ⟨pkt, -, rfl⟩ := protoRecvPacket_sound hread h
        exact pkt.payload_length }
    (some pkt, s)

theorem recvPacket_sound (h : recvPacket k hread s = (some pkt, s'))
    : splitPacket? s.items = some (pkt, s'.items) := by
  unfold recvPacket at h
  split at h
  . simp at h
  . next received s₁ hrecv =>
    obtain ⟨pkt', hsplit, rfl⟩ := protoRecvPacket_sound hread hrecv
    obtain ⟨hpkt, rfl⟩ := Prod.mk.inj h
    obtain rfl : pkt' = pkt := Option.some.inj hpkt
    exact hsplit

def serviceLoopOn (client : ClientPtr) (processLoginPacket : Int) (s : Channel Byte)
    : ServerM Unit :=
  match _h : recvPacket k hread s with
  | (none, _) => do
    let _ ← clientLogout client
  | (some pkt, s) => do
    let (processLoginPacket, cont) ← servicePacket client processLoginPacket pkt
    if cont then
      serviceLoopOn client processLoginPacket s
    else
      return ()
termination_by s.items.length
decreasing_by exact length_of_splitPacket? (recvPacket_sound k hread _h)

def jeuxClientServiceOn (connfd : Int) (s : Channel Byte) : ServerM Unit := do
  match ← cregRegister connfd with
  | none => return ()
  | some client =>
    serviceLoopOn k hread client 0 s
    let _ ← cregUnregister client

def received (s : Channel Byte) : List Packet :=
  match _h : recvPacket k hread s with
  | (none, _) => []
  | (some pkt, s) => pkt :: received s
termination_by s.items.length
decreasing_by exact length_of_splitPacket? (recvPacket_sound k hread _h)

theorem serviceLoopOn_eq (client : ClientPtr) (gate : Int) (s : Channel Byte)
    : serviceLoopOn k hread client gate s = serviceLoop client gate (received k hread s) := by
  fun_induction received k hread s generalizing gate with
  | case1 s s' h =>
    unfold serviceLoopOn serviceLoop
    split
    . rfl
    . next hsome => simp [h] at hsome
  | case2 s pkt s' h ih =>
    unfold serviceLoopOn serviceLoop
    split
    . next hnone => simp [h] at hnone
    . next pkt' s₁ hsome =>
      obtain ⟨hpkt, rfl⟩ := Prod.mk.inj (h.symm.trans hsome)
      obtain rfl := Option.some.inj hpkt
      simp only [ih]

theorem received_prefix (s : Channel Byte) : received k hread s <+: packetsIn s.items := by
  fun_induction received k hread s with
  | case1 s s' h => exact List.nil_prefix
  | case2 s pkt s' h ih =>
    rw [packetsIn_some (recvPacket_sound k hread h), List.cons_prefix_cons]
    exact ⟨rfl, ih⟩

theorem recvPacket_complete (hlive : k.read.Live) (hcalloc : ∀ n, k.calloc n = true)
    (h : recvPacket k hread s = (none, s')) : splitPacket? s.items = none := by
  cases hsplit : splitPacket? s.items with
  | none => rfl
  | some p =>
    obtain ⟨pkt, rest⟩ := p
    obtain ⟨calls, hrecv⟩ := protoRecvPacket_complete hlive hcalloc hsplit
    unfold recvPacket at h
    split at h
    . next hnone => simp [hrecv] at hnone
    . simp at h

theorem received_live (hlive : k.read.Live) (hcalloc : ∀ n, k.calloc n = true) (s : Channel Byte)
    : received k hread s = packetsIn s.items := by
  fun_induction received k hread s with
  | case1 s s' h => rw [packetsIn_none (recvPacket_complete k hread hlive hcalloc h)]
  | case2 s pkt s' h ih => rw [packetsIn_some (recvPacket_sound k hread h), ih]

end Loop

/-! ## The thread -/

theorem jeuxClientServiceOn_eq (k : Kernel) (hread : k.read.Bounded) (connfd : Int)
    (s : Channel Byte)
    : jeuxClientServiceOn k hread connfd s = jeuxClientService connfd (received k hread s) := by
  unfold jeuxClientServiceOn jeuxClientService
  apply bind_congr
  intro o
  cases o with
  | none => rfl
  | some client =>
    dsimp only
    rw [serviceLoopOn_eq]

/--
A thread serves the packets that its connection's bytes consist of. When a system call fails it
serves the first of them. It does not matter how the bytes come.
-/
theorem service_received (hread : k.read.Bounded) (s : Channel Byte)
    : ∃ outs rest pkts, Consists s.items outs rest ∧ pkts <+: outs.map (·.packet)
        ∧ (k.read.Live → (∀ n, k.calloc n = true) → pkts = outs.map (·.packet))
        ∧ ∀ env connfd w, (jeuxClientServiceOn k hread connfd s).run env w
            =
          (jeuxClientService connfd pkts).run env w := by
  obtain ⟨outs, rest, hbytes, hpackets, hrest⟩ := exists_bytesOf s.items
  refine ⟨outs, rest, received k hread s, ⟨hbytes, hrest⟩, ?_, ?_, ?_⟩
  . exact hpackets ▸ received_prefix k hread s
  . intro hlive hcalloc
    rw [received_live k hread hlive hcalloc, hpackets]
  . intro env connfd w
    rw [jeuxClientServiceOn_eq]

/--
A LOGIN and half a header, byte by byte.
-/
theorem service_received_of_login
    : (jeuxClientServiceOn byteByByte oneByOne_live.bounded 5 {
          items := bytesOf [⟨request .login 0 .nullRole [65] fits_A, zeroPadding⟩]
            ++ [1, 0, 0, 0, 0, 0, 0, 0]
          calls := 0 }).run calmEnv initialWorld
        =
      (jeuxClientService 5 [request .login 0 .nullRole [65] fits_A]).run calmEnv initialWorld := by
  obtain ⟨outs, rest, pkts, ⟨hbytes, hrest⟩, -, hall, hrun⟩ :=
    service_received (k := byteByByte) oneByOne_live.bounded {
      items := bytesOf [⟨request .login 0 .nullRole [65] fits_A, zeroPadding⟩]
        ++ [1, 0, 0, 0, 0, 0, 0, 0]
      calls := 0 }
  have hpackets := congrArg packetsIn hbytes
  dsimp only at hpackets
  rw [packetsIn_bytesOf, packetsIn_bytesOf, packetsIn_none hrest, packetsIn_none (by decide),
    List.append_nil, List.append_nil] at hpackets
  rw [hrun, hall oneByOne_live fun _ => rfl, ← hpackets]
  rfl

end Jeux.Wire
