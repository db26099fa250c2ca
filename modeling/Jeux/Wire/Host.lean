import Jeux.Concurrent.HandlersSound
import Jeux.Service.Independence
import Jeux.Service.Thread
import Jeux.Wire.Service

/-!
The whole server on the bytes of its connections. What comes in is the packets the threads serve,
and what goes out is the packets they send.
-/

namespace Jeux

variable {env : Env} {w w' w₁ : World} {client : ClientPtr} {op : Operation} {r : Int}
  {σ σ' : Server} {e : Event} {sent : SentPacket} {nodes : List InvitationNode} {pkt : Packet}
  {gate gate' : Int}

/-! ## The headers of what is sent -/

def SentPacket.Framed (sent : SentPacket) : Prop :=
  sent.hdr.size = UInt16.ofNat (sent.data.getD []).length

def World.Tells (w w' : World) : Prop :=
  ∃ packets, w'.trace.sent = w.trace.sent ++ packets ∧ ∀ packet ∈ packets, packet.Framed

namespace World

theorem Tells.quiet (h : w'.trace.sent = w.trace.sent) : w.Tells w' := ⟨[], by simp [h], by simp⟩

theorem Tells.trans (h : w.Tells w₁) (h' : w₁.Tells w') : w.Tells w' := by
  obtain ⟨packets, hsent, hframed⟩ := h
  obtain ⟨packets', hsent', hframed'⟩ := h'
  refine ⟨packets ++ packets', by rw [hsent', hsent, List.append_assoc], ?_⟩
  exact List.forall_mem_append.mpr ⟨hframed, hframed'⟩

theorem Tells.one (h : w'.trace.sent = w.trace.sent ++ [sent]) (hframed : sent.Framed)
    : w.Tells w' := ⟨[sent], h, by simpa using hframed⟩

theorem tells_acked (env : Env) (w : World) (client : ClientPtr) (id : Int) (data : Option CString)
    : w.Tells (w.acked env client id data) := .one rfl rfl

theorem tells_nacked (env : Env) (w : World) (client : ClientPtr)
    : w.Tells (w.nacked env client) := .one rfl rfl

theorem tells_answered (env : Env) (w : World) (client : ClientPtr) (r : Int)
    (data : Option CString) : w.Tells (w.answered env client r data) := by
  unfold answered
  split
  . exact tells_nacked env w client
  . exact tells_acked env w client 0 data

theorem tells_moved (env : Env) (w : World) (opponent : ClientPtr) (inv : InvitationPtr)
    (game : GamePtr) (g : Game) (move : GameMove) : w.Tells (w.moved env opponent inv game g move) :=
  .one rfl (by simp [SentPacket.Framed, createHeader])

theorem tells_endedOnce (env : Env) (w : World) (opponent : ClientPtr) (inv : InvitationPtr)
    (winner : GameRole) : w.Tells (endedOnce env opponent inv winner w) := .one rfl rfl

theorem tells_endedTwice (env : Env) (w : World) (client opponent : ClientPtr)
    (inv : InvitationPtr) (id : Int) (winner : GameRole)
    : w.Tells (endedTwice env client opponent inv id winner w) :=
  (tells_endedOnce env w opponent inv winner).trans (.one rfl rfl)

end World

theorem Effect.tells (h : Effect env w client op r w') : w.Tells w' := by
  cases h with
  | refused | acceptNoRoom => exact .quiet rfl
  | made | revokeUnsent | revoked | revokedByTarget | declined | declinedBySource | accepted
  | resignUnsent | resigned => exact .one rfl rfl
  | moveUnsent | moved => exact World.tells_moved ..
  | endUnsent => exact (World.tells_moved ..).trans (World.tells_endedOnce ..)
  | endUnsentSelf => exact (World.tells_moved ..).trans (World.tells_endedTwice ..)
  | finished =>
    exact ((World.tells_moved ..).trans (World.tells_endedTwice ..)).trans (.quiet rfl)

theorem LogoutRun.tells (h : LogoutRun env client w nodes w') : w.Tells w' := by
  induction h with
  | nil => exact .quiet rfl
  | cons _ _ _ heffect _ ih => exact heffect.tells.trans ih

theorem Departs.tells (h : Departs env client w w') : w.Tells w' := by
  cases h with
  | loggedOut => exact .quiet rfl
  | loggedIn _ _ _ hlogout => exact hlogout.tells.trans (.quiet rfl)

theorem Served.tells (h : Served env w client gate pkt gate' w') : w.Tells w' := by
  cases h with
  | ignored => exact .quiet rfl
  | shut | unfit | loginRefused => exact World.tells_nacked ..
  | users => exact .trans (.quiet rfl) (World.tells_acked ..)
  | invited _ _ _ _ heffect => exact heffect.tells.trans (World.tells_acked ..)
  | answered _ _ _ _ _ _ heffect => exact heffect.tells.trans (World.tells_answered ..)
  | loginNoRoom _ _ _ _ _ _ hsent => exact .trans (.quiet hsent) (World.tells_nacked ..)
  | loginTaken =>
    exact .trans (.quiet rfl) ((World.tells_nacked ..).trans (World.tells_acked ..))
  | loggedIn => exact .trans (.quiet rfl) (World.tells_acked ..)

/-! ## Addresses are not used again -/

theorem Departs.clients_next (h : Departs env client w w')
    : w'.store.clients.next = w.store.clients.next := by
  cases h with
  | loggedOut => simp [Store.unregister, Store.unrefClient_next]
  | loggedIn _ _ _ hlogout =>
    rw [← hlogout.clients_next]
    simp [Store.unregister, Store.unrefClient_next, Store.leave]

theorem Served.clients_next (h : Served env w client gate pkt gate' w')
    : w'.store.clients.next = w.store.clients.next := by
  cases h with
  | ignored | shut | users | unfit | loginRefused => rfl
  | invited _ _ _ _ heffect => exact heffect.clients_next
  | answered _ _ _ _ _ _ heffect =>
    unfold World.answered
    split <;> exact heffect.clients_next
  | loginNoRoom _ _ _ _ _ hstore =>
    rcases hstore with h | ⟨p, h⟩ <;> simp [h]
  | loginTaken => simp [World.enlisted, Store.enlist_clients]
  | loggedIn => simp [Store.enlist_clients, Store.login]

namespace Server

theorem Steps.clients_next_le (h : Steps env σ e σ')
    : σ.world.store.clients.next ≤ σ'.world.store.clients.next := by
  cases h with
  | idle => exact Nat.le_refl _
  | connects hconnects =>
    cases hconnects with
    | refused => exact Nat.le_refl _
    | failed => simp [Store.connectFailed]
    | connected => simp [Store.connect]
  | serves _ hserved => exact Nat.le_of_eq hserved.clients_next.symm
  | departs _ _ hdeparts => exact Nat.le_of_eq hdeparts.clients_next.symm
  | calls _ _ heffect => exact Nat.le_of_eq heffect.clients_next.symm

theorem Steps.gone (h : Steps env σ e σ') {x : ClientPtr} (hgone : σ.connections x = none)
    (hlt : x < σ.world.store.clients.next) : σ'.connections x = none := by
  cases h with
  | idle => exact hgone
  | connects hconnects =>
    cases hconnects with
    | refused | failed => exact hgone
    | connected => exact (Function.update_of_ne (Nat.ne_of_lt hlt) _ _).trans hgone
  | @serves client pkt gate gate' w hgate =>
    have hne : x ≠ client := by
      rintro rfl
      simp [hgate] at hgone
    exact (Function.update_of_ne hne _ _).trans hgone
  | @departs e client w =>
    by_cases heq : x = client
    . exact heq ▸ Function.update_self ..
    . exact (Function.update_of_ne heq _ _).trans hgone
  | calls => exact hgone

theorem exec_hangUp {x : ClientPtr} (hexec : exec env σ (.hangUp x) = .ok σ')
    : σ'.connections x = none := by
  unfold exec at hexec
  dsimp only at hexec
  split at hexec
  . next hgone => exact Except.ok.inj hexec ▸ hgone
  . split at hexec
    . rw [close_connections hexec, Function.update_self]
    . simp at hexec

theorem Steps.tells (h : Steps env σ e σ') : σ.world.Tells σ'.world := by
  cases h with
  | idle => exact .quiet rfl
  | connects hconnects => cases hconnects <;> exact .quiet rfl
  | serves _ hserved => exact hserved.tells
  | departs _ _ hdeparts => exact hdeparts.tells
  | calls _ _ heffect => exact heffect.tells

end Server

def Event.packetFor? (client : ClientPtr) : Event → Option Packet
  | .packet x pkt => if x = client then some pkt else none
  | _ => none

def SentPacket.bytes (sent : SentPacket) : List Byte :=
  Wire.encoding sent.hdr Wire.zeroPadding sent.data

def SentPacket.content (sent : SentPacket) : PacketHeader × Option (List Byte) :=
  (sent.hdr,
    if sent.hdr.size = 0 then none else some ((sent.data.getD []).take sent.hdr.size.toNat))

namespace Wire

/-! ## The host -/

/--
The surroundings of the server, with the system calls on its connections. Reads keep to what they are
asked for. Writes go on, so that no packet fails to be sent.
-/
structure Network where
  env : Env
  kernel : ClientPtr → Kernel
  reads : ∀ client, (kernel client).read.Bounded
  writes : ∀ client, (kernel client).write.Live
  sends : ∀ n, env.sendOk n = true

/--
The server, for each connection the bytes that wait to be read and the bytes that have been written,
and for the record all bytes that have come in and the events they have been for the server.
-/
structure Host where
  server : Server
  incoming : ClientPtr → Channel Byte
  outgoing : ClientPtr → Channel Byte
  arrived : ClientPtr → List Byte
  events : List Event

/--
A connection is opened, bytes come in on it, or its thread goes round its loop. If a `read` then
finds nothing it has come to the end of the connection.
-/
inductive HostEvent where
  | connect (fd : Int)
  | arrive (client : ClientPtr) (bytes : List Byte)
  | serve (client : ClientPtr)

namespace Host

def initial : Host where
  server := initialServer
  incoming := fun _ => { items := [], calls := 0 }
  outgoing := fun _ => { items := [], calls := 0 }
  arrived := fun _ => []
  events := []

section

variable (net : Network)

def write (outgoing : ClientPtr → Channel Byte) (packets : List SentPacket)
    : ClientPtr → Channel Byte :=
  packets.foldl (fun outgoing sent =>
    Function.update outgoing sent.receiver
      (protoSendPacket (net.kernel sent.receiver) sent.hdr zeroPadding sent.data
        (outgoing sent.receiver)).2) outgoing

def exec (ν : Host) (e : Event) : Except Fault Host := do
  let σ ← Server.exec net.env ν.server e
  return {
    server := σ
    incoming := ν.incoming
    outgoing := write net ν.outgoing (ν.server.world.sentSince σ.world)
    arrived := ν.arrived
    events := ν.events ++ [e] }

def step (ν : Host) : HostEvent → Except Fault Host
  | .connect fd => exec net ν (.connect fd)
  | .arrive client bytes =>
    if ν.server.connections client = none then
      .ok ν
    else
      let s := ν.incoming client
      .ok { ν with
        incoming := Function.update ν.incoming client { s with items := s.items ++ bytes }
        arrived := Function.update ν.arrived client (ν.arrived client ++ bytes) }
  | .serve client =>
    if ν.server.connections client = none then
      .ok ν
    else
      let (pkt, s) := recvPacket (net.kernel client) (net.reads client) (ν.incoming client)
      let ν := { ν with incoming := Function.update ν.incoming client s }
      match pkt with
      | none => exec net ν (.hangUp client)
      | some pkt => exec net ν (.packet client pkt)

def machine : Machine Host HostEvent where
  step ν e := (step net ν e).toOption

end

def served (ν : Host) (client : ClientPtr) : List Packet :=
  ν.events.filterMap (Event.packetFor? client)

end Host

/-! ## The bytes written -/

/--
Whoever receives these bytes gets these contents, and the first of them if a system call fails.
-/
def Carries (items : List Byte) (contents : List (PacketHeader × Option (List Byte))) : Prop :=
  ∀ (k : Kernel) (n calls : Nat),
    (k.read.Bounded → receiveAll k n { items := items, calls := calls } <+: contents)
    ∧ (k.read.Live → (∀ n, k.calloc n = true) → items.length < n →
      receiveAll k n { items := items, calls := calls } = contents)

theorem carries_packetsIn (items : List Byte)
    : Carries items ((packetsIn items).map contentOf) := by
  refine fun k n calls => ⟨fun hread => receiveAll_prefix hread n _, fun hread hcalloc hn => ?_⟩
  obtain ⟨m, rfl⟩ : ∃ m, n = m + 1 := ⟨n - 1, by omega⟩
  exact receiveAll_live hread hcalloc m _ (by dsimp only; omega)

theorem packetsIn_sent (h : sent.Framed) (rest : List Byte)
    : (packetsIn (sent.bytes ++ rest)).map contentOf
        = sent.content :: (packetsIn rest).map contentOf := by
  have hlength : ((sent.data.getD []).take sent.hdr.size.toNat).length = sent.hdr.size.toNat := by
    rw [List.length_take, h, UInt16.toNat_ofNat']
    exact Nat.min_eq_left (Nat.mod_le _ _)
  let out : Outgoing := ⟨packetOf sent.hdr _ hlength, zeroPadding⟩
  have hbytes : out.bytes = sent.bytes := by
    rw [out.bytes_eq]
    unfold SentPacket.bytes encoding
    dsimp only [out, packetOf]
    split
    . next hsize => simp [hsize]
    . rfl
  rw [← hbytes, packetsIn_some (splitPacket?_bytes out rest)]
  rfl

theorem packetsIn_sents {packets : List SentPacket} (h : ∀ sent ∈ packets, sent.Framed)
    : (packetsIn (packets.flatMap SentPacket.bytes)).map contentOf
        = packets.map SentPacket.content := by
  induction packets with
  | nil =>
    rw [List.flatMap_nil, packetsIn_none (by decide)]
    rfl
  | cons sent packets ih =>
    obtain ⟨hframed, hrest⟩ := List.forall_mem_cons.mp h
    rw [List.flatMap_cons, packetsIn_sent hframed, ih hrest]
    rfl

namespace Host

variable {net : Network} {ν ν' : Host} {x : ClientPtr}

theorem write_items (net : Network) (outgoing : ClientPtr → Channel Byte)
    (packets : List SentPacket) (x : ClientPtr)
    : (write net outgoing packets x).items
        = (outgoing x).items
          ++ (packets.filter fun sent => sent.receiver = x).flatMap SentPacket.bytes := by
  unfold write
  induction packets generalizing outgoing with
  | nil => simp
  | cons sent packets ih =>
    obtain ⟨calls, hsend⟩
      : ∃ calls, protoSendPacket (net.kernel sent.receiver) sent.hdr zeroPadding sent.data
          (outgoing sent.receiver) = (_, _) :=
      protoSendPacket_live (net.writes sent.receiver) _
    rw [List.foldl_cons, ih, hsend]
    by_cases heq : sent.receiver = x
    . subst heq
      simp [SentPacket.bytes]
    . simp [heq, Function.update_of_ne (Ne.symm heq)]

/-! ## What holds of the host -/

/--
What has come in from a client is the packets that its thread has served and a rest. As long as the
thread has not hung up the rest waits to be read, and if no call has failed when it does hang up
there is no packet in the rest.
-/
def Accounts (net : Network) (x : ClientPtr) (arrived waiting : List Byte) (events : List Event)
    : Prop :=
  ∃ outs rest, arrived = bytesOf outs ++ rest
    ∧ outs.map (·.packet) = events.filterMap (Event.packetFor? x)
    ∧ (.hangUp x ∉ events → rest = waiting)
    ∧ (.hangUp x ∈ events → (net.kernel x).read.Live → (∀ n, (net.kernel x).calloc n = true) →
      splitPacket? rest = none)

structure Ok (net : Network) (ν : Host) : Prop where
  run : ν.events.foldlM (Server.exec net.env) initialServer = .ok ν.server
  reach : Server.Reachable net.env ν.server
  framed : ∀ sent ∈ ν.server.world.trace.sent, sent.Framed
  incoming : ∀ x, Accounts net x (ν.arrived x) (ν.incoming x).items ν.events
  outgoing : ∀ x, (ν.outgoing x).items = (ν.server.sentTo x).flatMap SentPacket.bytes
  ended : ∀ x, .hangUp x ∈ ν.events → ν.server.connections x = none
    ∧ x < ν.server.world.store.clients.next

variable {arrived waiting waiting' : List Byte} {events : List Event}

theorem Accounts.other (h : Accounts net x arrived waiting events)
    (hpacket : e.packetFor? x = none) (hne : e ≠ .hangUp x)
    : Accounts net x arrived waiting (events ++ [e]) := by
  obtain ⟨outs, rest, hbytes, hpackets, hwaiting, hend⟩ := h
  have hmem : .hangUp x ∈ events ++ [e] ↔ .hangUp x ∈ events := by
    rw [List.mem_append, List.mem_singleton]
    exact or_iff_left hne.symm
  refine ⟨outs, rest, hbytes, ?_, ?_, ?_⟩
  . rw [List.filterMap_append, hpackets]
    simp [hpacket]
  . rwa [hmem]
  . rwa [hmem]

theorem Accounts.packet (h : Accounts net x arrived waiting events) (hon : .hangUp x ∉ events)
    (hsplit : splitPacket? waiting = some (pkt, waiting'))
    : Accounts net x arrived waiting' (events ++ [.packet x pkt]) := by
  obtain ⟨outs, rest, hbytes, hpackets, hwaiting, -⟩ := h
  obtain rfl := hwaiting hon
  have hnot : .hangUp x ∉ events ++ [.packet x pkt] := by simpa using hon
  refine ⟨outs ++ [⟨pkt, paddingOf (rest.take headerSize)⟩], waiting', ?_, ?_, fun _ => rfl,
    fun hmem => absurd hmem hnot⟩
  . rw [hbytes, bytesOf, bytesOf, List.flatMap_append, List.append_assoc, List.flatMap_singleton,
      ← bytes_of_splitPacket? hsplit]
  . simp [hpackets, Event.packetFor?]

theorem Accounts.hangUp (h : Accounts net x arrived waiting events) (hon : .hangUp x ∉ events)
    (hend : (net.kernel x).read.Live → (∀ n, (net.kernel x).calloc n = true) →
      splitPacket? waiting = none)
    : Accounts net x arrived waiting' (events ++ [.hangUp x]) := by
  obtain ⟨outs, rest, hbytes, hpackets, hwaiting, -⟩ := h
  obtain rfl := hwaiting hon
  exact ⟨outs, rest, hbytes, by simp [hpackets, Event.packetFor?], by simp, fun _ => hend⟩

theorem Accounts.arrive (h : Accounts net x arrived waiting events) (hon : .hangUp x ∉ events)
    (bytes : List Byte) : Accounts net x (arrived ++ bytes) (waiting ++ bytes) events := by
  obtain ⟨outs, rest, hbytes, hpackets, hwaiting, -⟩ := h
  obtain rfl := hwaiting hon
  exact ⟨outs, rest ++ bytes, by rw [hbytes, List.append_assoc], hpackets, fun _ => rfl,
    fun hmem => absurd hmem hon⟩

theorem Ok.exec {incoming : ClientPtr → Channel Byte} (h : ν.Ok net)
    (hincoming : ∀ x, Accounts net x (ν.arrived x) (incoming x).items (ν.events ++ [e]))
    (hhangUp : ∀ x, e = .hangUp x → ν.server.connections x ≠ none)
    (hexec : exec net { ν with incoming := incoming } e = .ok ν') : ν'.Ok net := by
  unfold Host.exec at hexec
  cases hserver : Server.exec net.env ν.server e with
  | error f => simp [hserver, bind, Except.bind] at hexec
  | ok σ =>
    simp only [hserver, bind, Except.bind, pure, Except.pure, Except.ok.injEq] at hexec
    subst hexec
    have hok := Server.ok_of_reach Server.initial_ok h.reach
    have hsteps := hok.steps hserver
    obtain ⟨packets, hsent, hframed⟩ := hsteps.tells
    have hsince : ν.server.world.sentSince σ.world = packets := by
      rw [World.sentSince, hsent, List.drop_left]
    refine ⟨?_, h.reach.exec hserver, ?_, hincoming, ?_, ?_⟩
    . simp only [List.foldlM_append, h.run, bind, Except.bind]
      simp [hserver]
    . dsimp only
      rw [hsent]
      exact List.forall_mem_append.mpr ⟨h.framed, hframed⟩
    . intro x
      dsimp only
      rw [hsince, write_items, h.outgoing]
      unfold Server.sentTo
      rw [hsent, List.filter_append, List.flatMap_append]
    . intro x hmem
      have hlt := hsteps.clients_next_le
      rcases List.mem_append.mp hmem with hold | hnew
      . obtain ⟨hgone, hused⟩ := h.ended x hold
        exact ⟨hsteps.gone hgone hused, Nat.lt_of_lt_of_le hused hlt⟩
      . obtain rfl := List.mem_singleton.mp hnew
        obtain ⟨c, hc⟩ := (hok.serves (hhangUp x rfl)).exists_client
        exact ⟨Server.exec_hangUp hserver, Nat.lt_of_lt_of_le (Heap.lt_next_of_get? hc) hlt⟩

theorem initial_ok : initial.Ok net where
  run := rfl
  reach := .refl
  framed := by simp [initial, initialServer, initialWorld]
  incoming := fun x => ⟨[], [], rfl, rfl, fun _ => rfl, by simp [initial]⟩
  outgoing := by simp [initial, Server.sentTo, initialServer, initialWorld]
  ended := by simp [initial]

theorem Ok.on (h : ν.Ok net) (hconnected : ν.server.connections x ≠ none)
    : .hangUp x ∉ ν.events := fun hmem => hconnected (h.ended x hmem).1

theorem Ok.step (h : ν.Ok net) (e : HostEvent) (hstep : step net ν e = .ok ν')
    : ν'.Ok net := by
  cases e with
  | connect fd => exact h.exec (fun x => (h.incoming x).other rfl (by simp)) (by simp) hstep
  | arrive client bytes =>
    unfold Host.step at hstep
    dsimp only at hstep
    split at hstep
    . exact Except.ok.inj hstep ▸ h
    . next hconnected =>
      obtain rfl := Except.ok.inj hstep
      refine ⟨h.run, h.reach, h.framed, fun x => ?_, h.outgoing, h.ended⟩
      dsimp only
      by_cases heq : x = client
      . subst heq
        rw [Function.update_self, Function.update_self]
        exact (h.incoming x).arrive (h.on hconnected) bytes
      . rw [Function.update_of_ne heq, Function.update_of_ne heq]
        exact h.incoming x
  | serve client =>
    unfold Host.step at hstep
    dsimp only at hstep
    split at hstep
    . exact Except.ok.inj hstep ▸ h
    . next hconnected =>
      have hon := h.on hconnected
      cases hrecv : recvPacket (net.kernel client) (net.reads client) (ν.incoming client) with
      | mk pkt s =>
        simp only [hrecv] at hstep
        cases pkt with
        | none =>
          refine h.exec (fun x => ?_) ?_ hstep
          . by_cases heq : x = client
            . subst heq
              exact (h.incoming x).hangUp hon fun hlive hcalloc =>
                recvPacket_complete _ _ hlive hcalloc hrecv
            . rw [Function.update_of_ne heq]
              exact (h.incoming x).other rfl (by simpa using Ne.symm heq)
          . rintro x ⟨⟩
            exact hconnected
        | some pkt =>
          refine Ok.exec h (fun x => ?_) (by simp) hstep
          by_cases heq : x = client
          . subst heq
            rw [Function.update_self]
            exact (h.incoming x).packet hon (recvPacket_sound _ _ hrecv)
          . rw [Function.update_of_ne heq]
            exact (h.incoming x).other (if_neg (Ne.symm heq)) (by simp)

theorem ok_of_reach (h : (machine net).Reach (fun _ _ => True) initial ν) : ν.Ok net :=
  h.invariant _ initial_ok fun _ e _ hok _ hstep => hok.step e (Except.eq_ok_of_toOption hstep)

/--
However the bytes of the connections come, and in whatever order the threads get to run: the server
does what the packets tell it that the bytes consist of, and those who read what is written on a
connection get the packets sent to its client.
-/
theorem serves_packets (h : (machine net).Reach (fun _ _ => True) initial ν)
    : ν.events.foldlM (Server.exec net.env) initialServer = .ok ν.server
        ∧ ∀ x, ν.served x <+: packetsIn (ν.arrived x)
          ∧ (.hangUp x ∈ ν.events → (net.kernel x).read.Live →
            (∀ n, (net.kernel x).calloc n = true) → ν.served x = packetsIn (ν.arrived x))
          ∧ Carries (ν.outgoing x).items ((ν.server.sentTo x).map SentPacket.content) := by
  have hok := ok_of_reach h
  refine ⟨hok.run, fun x => ?_⟩
  obtain ⟨outs, rest, hbytes, hpackets, -, hend⟩ := hok.incoming x
  have harrived : packetsIn (ν.arrived x) = ν.served x ++ packetsIn rest := by
    rw [hbytes, packetsIn_bytesOf, hpackets]
    rfl
  refine ⟨?_, ?_, ?_⟩
  . rw [harrived]
    exact List.prefix_append _ _
  . intro hmem hlive hcalloc
    rw [harrived, packetsIn_none (hend hmem hlive hcalloc), List.append_nil]
  . have hframed : ∀ sent ∈ ν.server.sentTo x, sent.Framed :=
      fun sent hmem => hok.framed sent (List.mem_filter.mp hmem).1
    rw [hok.outgoing, ← packetsIn_sents hframed]
    exact carries_packetsIn _

/--
Nothing fails, and the bytes come one by one.
-/
def calmNetwork : Network where
  env := calmEnv
  kernel := fun _ => byteByByte
  reads := fun _ => oneByOne_live.bounded
  writes := fun _ => oneByOne_live
  sends := fun _ => rfl

def abandonedEvents : List HostEvent :=
  [.connect 4, .arrive 0 (bytesOf [⟨request .login 0 .nullRole [65] fits_A, zeroPadding⟩]),
    .arrive 0 [1, 0, 0, 0, 0, 0, 0, 0], .serve 0, .serve 0]

theorem serves_packets_of_abandoned
    : ∃ ν, (machine calmNetwork).Reach (fun _ _ => True) initial ν
      ∧ (ν.served 0).length = 1 ∧ .hangUp 0 ∈ ν.events
      ∧ ν.events.foldlM (Server.exec calmEnv) initialServer = .ok ν.server
      ∧ ν.served 0 = packetsIn (ν.arrived 0)
      ∧ Carries (ν.outgoing 0).items ((ν.server.sentTo 0).map SentPacket.content) := by
  obtain ⟨ν, hreach, hcheck⟩ := Machine.Reach.of_any_run (machine calmNetwork) (fun _ _ => True)
    initial abandonedEvents
    (fun ν => decide ((ν.served 0).length = 1) && ν.events.any fun e =>
      match e with
      | .hangUp x => decide (x = 0)
      | _ => false) (by decide +kernel)
  obtain ⟨hserved, hany⟩ := (Bool.and_eq_true _ _).mp hcheck
  have hend : .hangUp 0 ∈ ν.events := by
    obtain ⟨e, hmem, he⟩ := List.any_eq_true.mp hany
    split at he
    . next x => exact of_decide_eq_true he ▸ hmem
    . simp at he
  obtain ⟨hrun, hof⟩ := serves_packets hreach
  obtain ⟨-, hall, hcarries⟩ := hof 0
  exact ⟨ν, hreach, of_decide_eq_true hserved, hend, hrun,
    hall hend oneByOne_live fun _ => rfl, hcarries⟩

end Host

end Wire

end Jeux
