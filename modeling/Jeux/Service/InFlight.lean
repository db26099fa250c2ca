import Jeux.Service.PacketIds
import Jeux.Lemmas.News

/-!
The server and its clients with the packets that are under way between them. A client learns the ids
of its invitations from the packets that reach it, so what it asks for may be out of date when its
request is handled.
-/

namespace Jeux

open ServerM

/--
A request under way, with the invitation its id denoted for the client that sent it.
-/
structure Request where
  pkt : Packet
  meant : Option InvitationPtr

structure Dispatch where
  packet : SentPacket
  made : Option InvitationPtr

def Announces (type : Byte) : Prop :=
  type = PacketType.invited.toByte ∨ type = PacketType.ack.toByte

def Forgets (type : Byte) : Prop :=
  type = PacketType.revoked.toByte ∨ type = PacketType.declined.toByte
    ∨ type = PacketType.resigned.toByte ∨ type = PacketType.ended.toByte

instance (type : Byte) : Decidable (Announces type) := inferInstanceAs (Decidable (_ ∨ _))

instance (type : Byte) : Decidable (Forgets type) := inferInstanceAs (Decidable (_ ∨ _))

def learn (known : Byte → Option InvitationPtr) (dispatch : Dispatch) : Byte → Option InvitationPtr :=
  let hdr := dispatch.packet.hdr
  if Forgets hdr.type then
    Function.update known hdr.id none
  else if Announces hdr.type then
    match dispatch.made with
    | some inv => Function.update known hdr.id (some inv)
    | none => known
  else
    known

def World.madeSince (w w' : World) : Option InvitationPtr :=
  if w.store.invitations.next < w'.store.invitations.next then
    some w.store.invitations.next
  else
    none

def World.dispatchesSince (w w' : World) (client : ClientPtr) : List Dispatch :=
  ((w.sentSince w').filter fun packet => packet.receiver = client ∧ packet.written = true).map
    fun packet => { packet := packet, made := w.madeSince w' }

/--
The server, the requests and the packets under way, oldest first, and what the ids denote for each
client.
-/
structure Network where
  server : Server
  requests : ClientPtr → List Request
  dispatches : ClientPtr → List Dispatch
  known : ClientPtr → Byte → Option InvitationPtr

inductive NetworkEvent where
  | connect (fd : Int)
  | submit (client : ClientPtr) (pkt : Packet)
  | handle (client : ClientPtr)
  | receive (client : ClientPtr)
  | hangUp (client : ClientPtr)

namespace Network

def store (ν : Network) : Store := ν.server.world.store

def serve (env : Env) (ν : Network) (e : Event) : Except Fault Network :=
  match Server.exec env ν.server e with
  | .ok σ =>
    .ok { ν with
      server := σ
      dispatches := fun client =>
        ν.dispatches client ++ ν.server.world.dispatchesSince σ.world client }
  | .error f => .error f

/--
One event: something happens at the server, a client sends a request, the server takes up the oldest
request of a client, or a client receives the oldest packet under way to it.
-/
def exec (env : Env) (ν : Network) : NetworkEvent → Except Fault Network
  | .connect fd => ν.serve env (.connect fd)
  | .submit client pkt =>
    let request := { pkt := pkt, meant := ν.known client pkt.hdr.id }
    .ok { ν with requests := Function.update ν.requests client (ν.requests client ++ [request]) }
  | .handle client =>
    match ν.requests client with
    | [] => .ok ν
    | request :: rest =>
      serve env { ν with requests := Function.update ν.requests client rest }
        (.packet client request.pkt)
  | .receive client =>
    match ν.dispatches client with
    | [] => .ok ν
    | dispatch :: rest =>
      .ok { ν with
        dispatches := Function.update ν.dispatches client rest
        known := Function.update ν.known client (learn (ν.known client) dispatch) }
  | .hangUp client => ν.serve env (.hangUp client)

def machine (env : Env) : Machine Network NetworkEvent where
  step ν e := (exec env ν e).toOption

def initial : Network where
  server := initialServer
  requests := fun _ => []
  dispatches := fun _ => []
  known := fun _ _ => none

end Network

/-! ## What an id denotes -/

structure Store.Told (s : Store) (client : ClientPtr) (id : Byte) (inv : InvitationPtr) : Prop where
  old : inv < s.invitations.next
  id : ∀ node ∈ s.nodesOf client inv, id = UInt8.ofInt node.id

variable {env : Env} {w w' : World} {s s' : Store} {client : ClientPtr} {gate gate' : Int}
  {pkt : Packet} {inv : InvitationPtr} {op : Operation} {r : Int} {sent : SentPacket}
  {σ σ' : Server} {e : Event} {extra : ClientPtr → Nat} {node : InvitationNode}

theorem Store.Told.ages {id : Byte} (h : s.Told client id inv) (hages : s.Ages s')
    : s'.Told client id inv where
  old := Nat.lt_of_lt_of_le h.old hages.next
  id := fun node hnode => h.id node (hages.nodes client inv h.old hnode)

theorem Store.Told.invitationOf {id : Byte} (h : s.Told client id inv) (hv : s.Valid extra)
    (hnode : node ∈ s.nodesOf client inv) (hfits : node.id < 256)
    : s.invitationOf client id.toNat = some inv := by
  obtain ⟨c, hc, hmem, rfl⟩ := mem_nodesOf.mp hnode
  have hclient := hv.client client c hc
  rw [h.id node hnode]
  simp only [invitationOf, hc, Option.bind_some]
  exact (hclient.ids.byte_iff hclient.nodup hmem).mpr hfits

/-! ## What the server tells the clients -/

theorem madeSince_eq_some (h : w.madeSince w' = some inv)
    : inv = w.store.invitations.next ∧ inv < w'.store.invitations.next := by
  unfold World.madeSince at h
  split at h
  . next hlt =>
    obtain rfl := Option.some.inj h
    exact ⟨rfl, hlt⟩
  . simp at h

theorem madeSince_eq_none (h : w'.store.invitations.next = w.store.invitations.next)
    : w.madeSince w' = none := by
  simp [World.madeSince, h]

theorem Served.told (h : Served env w client gate pkt gate' w') (hv : w.store.Valid fun _ => 0)
    (hsent : sent ∈ w.sentSince w') (hmade : w.madeSince w' = some inv)
    : w'.store.Told sent.receiver sent.hdr.id inv := by
  obtain ⟨rfl, hlt⟩ := madeSince_eq_some hmade
  have hne : w'.store.invitations.next ≠ w.store.invitations.next := Nat.ne_of_gt hlt
  cases h with
  | ignored | shut | users | unfit | loginRefused => exact absurd rfl hne
  | loginNoRoom _ _ _ _ _ hstore =>
    apply (hne _).elim
    rcases hstore with heq | ⟨p, heq⟩
    . rw [World.nacked_store, heq]
    . rw [World.nacked_store, heq]
  | loginTaken =>
    apply (hne _).elim
    simp [Store.enlist_invitations]
  | loggedIn =>
    apply (hne _).elim
    simp [Store.enlist_invitations]
  | answered htype _ hinvite _ hop _ heffect =>
    apply (hne _).elim
    have hmake := requestOp?_ne_make hop (by simpa [htype] using hinvite)
    rw [← heffect.invitations_next hmake]
    unfold World.answered
    split
    . rfl
    . rfl
  | invited htype _ hop hcall heffect =>
    obtain ⟨target, sourceRole, targetRole, rfl⟩ := requestOp?_eq_make hop htype
    cases heffect with
    | refused => exact absurd rfl hne
    | made n halloc hcs hct hplayer hp =>
      obtain ⟨hother, -, -⟩ := hcall.invited _ _ _ rfl
      simp only [World.sentSince, World.acked, Trace.send, List.append_assoc, List.drop_left,
        List.mem_append, List.mem_singleton] at hsent
      refine ⟨hlt, fun node hnode => ?_⟩
      rcases hsent with rfl | rfl
      . rw [hv.node_of_invite hother.symm (.inr rfl) hct hnode]
        rfl
      . rw [hv.node_of_invite hother.symm (.inl rfl) hcs hnode]
        rfl

theorem Departs.invitations_next (h : Departs env client w w')
    : w'.store.invitations.next = w.store.invitations.next := by
  cases h with
  | loggedOut => simp only [Store.unregister_invitations, Store.unrefClient_invitations]
  | loggedIn _ _ _ hlogout =>
    rw [← hlogout.invitations_next]
    simp only [Store.unregister_invitations, Store.unrefClient_invitations, Store.leave_invitations]

theorem Server.Steps.told (h : Server.Steps env σ e σ') (hok : σ.Ok)
    (hcall : ∀ client op, e ≠ .call client op) (hsent : sent ∈ σ.world.sentSince σ'.world)
    (hmade : σ.world.madeSince σ'.world = some inv)
    : σ'.world.store.Told sent.receiver sent.hdr.id inv := by
  have hnext : σ'.world.store.invitations.next = σ.world.store.invitations.next → False := by
    intro heq
    simp [madeSince_eq_none heq] at hmade
  cases h with
  | idle => exact (hnext rfl).elim
  | connects hconnects =>
    apply (hnext _).elim
    cases hconnects with
    | refused => rfl
    | failed => rfl
    | connected => rfl
  | serves _ hserved => exact hserved.told hok.steady.valid hsent hmade
  | departs _ _ hdeparts => exact (hnext hdeparts.invitations_next).elim
  | calls => exact absurd rfl (hcall _ _)

/-! ## What has been told stays true -/

theorem learn_eq_some {known : Byte → Option InvitationPtr} {dispatch : Dispatch} {id : Byte}
    (h : learn known dispatch id = some inv)
    : known id = some inv ∨ id = dispatch.packet.hdr.id ∧ dispatch.made = some inv := by
  unfold learn at h
  split at h
  . rw [Function.update_apply] at h
    split at h
    . simp at h
    . exact .inl h
  . split at h
    . cases hmade : dispatch.made with
      | none =>
        rw [hmade] at h
        exact .inl h
      | some made =>
        simp only [hmade, Function.update_apply] at h
        split at h
        . next heq => exact .inr ⟨heq, h⟩
        . exact .inl h
    . exact .inl h

namespace Network

variable {ν ν' : Network}

/--
Wherever an id is taken for an invitation, it has been told for it: in the packets under way, in what
the clients know and in what they ask for.
-/
structure Ok (ν : Network) : Prop where
  server : ν.server.Ok
  known : ∀ client id inv, ν.known client id = some inv → ν.store.Told client id inv
  requests : ∀ client, ∀ request ∈ ν.requests client, ∀ inv, request.meant = some inv →
    ν.store.Told client request.pkt.hdr.id inv
  dispatches : ∀ client, ∀ dispatch ∈ ν.dispatches client, ∀ inv, dispatch.made = some inv →
    ν.store.Told client dispatch.packet.hdr.id inv

theorem Ok.initial : initial.Ok where
  server := Server.initial_ok
  known := by
    intro client id inv h
    simp [Network.initial] at h
  requests := by
    intro client request hmem
    simp [Network.initial] at hmem
  dispatches := by
    intro client dispatch hmem
    simp [Network.initial] at hmem

theorem Ok.serve (h : ν.Ok) (hcall : ∀ client op, e ≠ .call client op)
    (hserve : serve env ν e = .ok ν') : ν'.Ok := by
  unfold Network.serve at hserve
  split at hserve
  . next σ hexec =>
    obtain rfl := Except.ok.inj hserve
    have hsteps := h.server.steps hexec
    have hages := hsteps.ages
    constructor
    . exact hsteps.ok h.server
    . intro client id inv hknown
      exact (h.known client id inv hknown).ages hages
    . intro client request hmem inv hmeant
      exact (h.requests client request hmem inv hmeant).ages hages
    . intro client dispatch hmem inv hmade
      rcases List.mem_append.mp hmem with hold | hnew
      . exact (h.dispatches client dispatch hold inv hmade).ages hages
      . -- it is one of the packets of this event
        obtain ⟨packet, hpacket, rfl⟩ := List.mem_map.mp hnew
        rw [List.mem_filter] at hpacket
        obtain ⟨hsent, hreceiver⟩ := hpacket
        simp only [decide_eq_true_eq] at hreceiver
        exact hreceiver.1 ▸ hsteps.told h.server hcall hsent hmade
  . simp at hserve

theorem Ok.step {e : NetworkEvent} (h : ν.Ok) (hstep : (machine env).step ν e = some ν')
    : ν'.Ok := by
  have hexec : exec env ν e = .ok ν' := Except.eq_ok_of_toOption hstep
  cases e with
  | connect fd => exact h.serve (by simp) hexec
  | hangUp client => exact h.serve (by simp) hexec
  | submit client pkt =>
    obtain rfl := Except.ok.inj hexec
    refine ⟨h.server, h.known, ?_, h.dispatches⟩
    intro client' request hmem inv hmeant
    dsimp only at hmem
    rw [Function.update_apply] at hmem
    split at hmem
    . next heq =>
      subst heq
      rcases List.mem_append.mp hmem with hold | hnew
      . exact h.requests client' request hold inv hmeant
      . rw [List.mem_singleton] at hnew
        subst hnew
        exact h.known client' _ inv hmeant
    . exact h.requests client' request hmem inv hmeant
  | handle client =>
    simp only [exec] at hexec
    split at hexec
    . exact Except.ok.inj hexec ▸ h
    . next request rest hqueue =>
      have hrest : Ok { ν with requests := Function.update ν.requests client rest } := by
        refine ⟨h.server, h.known, ?_, h.dispatches⟩
        intro client' request' hmem
        dsimp only at hmem
        rw [Function.update_apply] at hmem
        apply h.requests client' request'
        split at hmem
        . next heq =>
          rw [heq, hqueue]
          exact List.mem_cons_of_mem _ hmem
        . exact hmem
      have hcall : ∀ client' op, Event.packet client request.pkt ≠ .call client' op := by
        simp
      exact hrest.serve hcall hexec
  | receive client =>
    simp only [exec] at hexec
    split at hexec
    . exact Except.ok.inj hexec ▸ h
    . next dispatch rest hqueue =>
      obtain rfl := Except.ok.inj hexec
      refine ⟨h.server, ?_, h.requests, ?_⟩
      . intro client' id inv hknown
        dsimp only at hknown
        rw [Function.update_apply] at hknown
        split at hknown
        . next heq =>
          subst heq
          rcases learn_eq_some hknown with hknew | ⟨rfl, hmade⟩
          . exact h.known client' id inv hknew
          . exact h.dispatches client' dispatch (hqueue ▸ List.mem_cons_self ..) inv hmade
        . exact h.known client' id inv hknown
      . intro client' dispatch' hmem
        dsimp only at hmem
        rw [Function.update_apply] at hmem
        apply h.dispatches client' dispatch'
        split at hmem
        . next heq =>
          rw [heq, hqueue]
          exact List.mem_cons_of_mem _ hmem
        . exact hmem

end Network

/-! ## What a request acts on -/

/--
A request that carries the id of an invitation: REVOKE, ACCEPT, DECLINE, MOVE and RESIGN.
-/
def Packet.NamesInvitation (pkt : Packet) : Prop :=
  PacketType.ofByte? pkt.hdr.type = some .revoke ∨ PacketType.ofByte? pkt.hdr.type = some .accept
    ∨ PacketType.ofByte? pkt.hdr.type = some .decline ∨ PacketType.ofByte? pkt.hdr.type = some .move
    ∨ PacketType.ofByte? pkt.hdr.type = some .resign

instance (pkt : Packet) : Decidable pkt.NamesInvitation :=
  inferInstanceAs (Decidable (_ ∨ _ ∨ _ ∨ _ ∨ _))

def Store.ActedOn (s s' : Store) (inv : InvitationPtr) : Prop :=
  ∀ u, u ≠ inv → s.SameAt s' u

theorem requestOp?_subject? (hnames : pkt.NamesInvitation)
    (hop : requestOp? s client pkt = some op)
    : (∀ target sourceRole targetRole, op ≠ .make target sourceRole targetRole)
      ∧ op.subject? s client = s.invitationOf client pkt.hdr.id.toNat := by
  unfold requestOp? at hop
  rcases hnames with htype | htype | htype | htype | htype
  all_goals simp only [htype, Option.some.injEq, Option.map_eq_some_iff] at hop
  case inr.inr.inr.inl =>
    obtain ⟨text, -, rfl⟩ := hop
    exact ⟨by simp, rfl⟩
  all_goals
    subst hop
    exact ⟨by simp, rfl⟩

theorem Effect.refused_or_acts (h : Effect env w client op r w') (hv : w.store.Valid extra)
    (hl : w.store.Linked)
    (hmake : ∀ target sourceRole targetRole, op ≠ .make target sourceRole targetRole)
    : w'.store = w.store
      ∨ ∃ inv, op.subject? w.store client = some inv ∧ w.store.ActedOn w'.store inv := by
  have hacts : ∀ inv, op.subject? w.store client = some inv →
      ∃ inv, op.subject? w.store client = some inv ∧ w.store.ActedOn w'.store inv := by
    intro inv hsubject
    refine ⟨inv, hsubject, fun u hne => ?_⟩
    apply h.sameAt hv hl
    rw [hsubject]
    simpa using hne.symm
  cases h with
  | refused => exact .inl rfl
  | made => exact absurd rfl (hmake _ _ _)
  | revokeUnsent hopen | revoked hopen | revokedByTarget hopen => exact .inr (hacts _ hopen.named)
  | declined hopen | declinedBySource hopen => exact .inr (hacts _ hopen.named)
  | acceptNoRoom hopen | accepted hopen => exact .inr (hacts _ hopen.named)
  | resignUnsent hplaying | resigned hplaying => exact .inr (hacts _ hplaying.named)
  | moveUnsent hmove | moved hmove | endUnsent hmove | endUnsentSelf hmove | finished hmove =>
    exact .inr (hacts _ hmove.named)

theorem Served.refused_or_acts (h : Served env w client gate pkt gate' w')
    (hnames : pkt.NamesInvitation) (hv : w.store.Valid extra) (hl : w.store.Linked)
    : w'.store = w.store
      ∨ ∃ inv, w.store.invitationOf client pkt.hdr.id.toNat = some inv
        ∧ w.store.ActedOn w'.store inv := by
  have hother : ∀ type, PacketType.ofByte? pkt.hdr.type = some type → type ≠ .login
      ∧ type ≠ .invite := by
    intro type htype
    unfold Packet.NamesInvitation at hnames
    rw [htype] at hnames
    constructor
    . rintro rfl
      simp at hnames
    . rintro rfl
      simp at hnames
  cases h with
  | ignored | shut | users | unfit | loginRefused => exact .inl rfl
  | loginNoRoom htype | loginTaken htype | loggedIn htype => exact absurd rfl (hother _ htype).1
  | invited htype => exact absurd rfl (hother _ htype).2
  | answered htype _ _ _ hop _ heffect =>
    have hstore : ∀ (w₁ : World) (r : Int) (data : Option CString),
        (w₁.answered env client r data).store = w₁.store := by
      intro w₁ r data
      unfold World.answered
      split <;> rfl
    obtain ⟨hmake, hsubject⟩ := requestOp?_subject? hnames hop
    rw [hstore, ← hsubject]
    exact heffect.refused_or_acts hv hl hmake

namespace Network

/--
The server refuses the request, or acts on the invitation that the id of the request denoted for the
client when it sent the request.
-/
def ActsAsMeant (ν ν' : Network) (request : Request) : Prop :=
  ν'.store = ν.store ∨ ∃ inv, request.meant = some inv ∧ ν.store.ActedOn ν'.store inv

/--
The server refuses the request, or acts on the invitation that has the id of the request in the list
of the client. If the one that was meant is still in that list, under a number that fits the id byte,
it is that one.
-/
def ActsAsListed (ν ν' : Network) (client : ClientPtr) (request : Request) : Prop :=
  ν'.store = ν.store
    ∨ ∃ inv, ν.store.invitationOf client request.pkt.hdr.id.toNat = some inv
      ∧ ν.store.ActedOn ν'.store inv
      ∧ ∀ meant node, request.meant = some meant → node ∈ ν.store.nodesOf client meant →
        node.id < 256 → inv = meant

variable {ν ν' : Network} {request : Request} {rest : List Request}

theorem handle_store (hrequests : ν.requests client = request :: rest)
    (hstep : (machine env).step ν (.handle client) = some ν')
    : ∃ σ', Server.exec env ν.server (.packet client request.pkt) = .ok σ'
      ∧ ν'.store = σ'.world.store := by
  have hexec : exec env ν (.handle client) = .ok ν' := Except.eq_ok_of_toOption hstep
  simp only [exec, hrequests, Network.serve] at hexec
  split at hexec
  . next σ' hserver =>
    obtain rfl := Except.ok.inj hexec
    exact ⟨σ', hserver, rfl⟩
  . simp at hexec

theorem Ok.actsAsListed (h : ν.Ok) (hrequests : ν.requests client = request :: rest)
    (hnames : request.pkt.NamesInvitation)
    (hstep : (machine env).step ν (.handle client) = some ν') : ActsAsListed ν ν' client request := by
  obtain ⟨σ', hexec, hstore⟩ := handle_store hrequests hstep
  have hv := h.server.steady.valid
  unfold ActsAsListed
  rw [hstore]
  cases h.server.steps hexec with
  | idle => exact .inl rfl
  | departs he =>
    obtain heq | ⟨pkt, heq, htype⟩ := he
    . simp at heq
    . obtain ⟨-, rfl⟩ := Event.packet.inj heq
      simp [Packet.NamesInvitation, htype] at hnames
  | serves _ hserved =>
    have hlinked := h.server.steady.settled.linked
    rcases hserved.refused_or_acts hnames hv hlinked with hsame | ⟨inv, hfound, hacts⟩
    . exact .inl hsame
    . refine .inr ⟨inv, hfound, hacts, fun meant node hmeant hnode hfits => ?_⟩
      have htold := h.requests client request (hrequests ▸ List.mem_cons_self ..) meant hmeant
      exact Option.some.inj (hfound.symm.trans (htold.invitationOf hv hnode hfits))

/--
However requests, packets and connections interleave, a request that names an invitation is refused or
acts on the one that is listed under its id.
-/
theorem actsAsListed_of_reach (h : (machine env).Reach (fun _ _ => True) initial ν)
    (hrequests : ν.requests client = request :: rest) (hnames : request.pkt.NamesInvitation)
    (hstep : (machine env).step ν (.handle client) = some ν')
    : ActsAsListed ν ν' client request := by
  have hok : ν.Ok := h.invariant _ Ok.initial fun _ _ _ hok _ hs => hok.step hs
  exact hok.actsAsListed hrequests hnames hstep

def asks (client : ClientPtr) (pkt : Packet) : List NetworkEvent := [.submit client pkt, .handle client]

def loginAs (client : ClientPtr) (letter : Byte) : List NetworkEvent :=
  asks client (Jeux.request .login 0 .nullRole [letter] (by simp))

def invites (client : ClientPtr) (letter : Byte) : List NetworkEvent :=
  asks client (Jeux.request .invite 0 .firstPlayerRole [letter] (by simp))

/--
`A` has been invited by `B` and has received the INVITED, which gives the invitation number 0. `A`
accepts number 0.
-/
def acceptSent : List NetworkEvent :=
  [.connect 4, .connect 5, .connect 6] ++ loginAs 0 65 ++ loginAs 1 66 ++ loginAs 2 67
    ++ invites 1 65 ++ [.receive 0, .receive 0]
    ++ [.submit 0 (Jeux.request .accept 0 .nullRole [] fits_nil)]

def acceptOvertaken : List NetworkEvent :=
  acceptSent ++ asks 1 (Jeux.request .revoke 0 .nullRole [] fits_nil) ++ invites 2 65

/--
The ACCEPT reaches the server as it was sent.
-/
theorem actsAsListed_of_acceptSent
    : ∃ ν ν' request rest, (machine calmEnv).Reach (fun _ _ => True) initial ν
      ∧ ν.requests 0 = request :: rest ∧ request.meant = some 0
      ∧ (machine calmEnv).step ν (.handle 0) = some ν'
      ∧ (ν'.store.invitations.get? 0).map (·.state) = some .acceptedState
      ∧ ActsAsListed ν ν' 0 request := by
  obtain ⟨ν, hreach, hcheck⟩ := Machine.Reach.of_any_run (machine calmEnv) (fun _ _ => True) initial
    acceptSent
    (fun ν => decide ((ν.requests 0).head?.any (fun request =>
        decide (request.pkt.NamesInvitation ∧ request.meant = some 0)) = true
      ∧ ((machine calmEnv).step ν (.handle 0)).any (fun ν' =>
        decide ((ν'.store.invitations.get? 0).map (·.state) = some .acceptedState)) = true))
    (by decide +kernel)
  obtain ⟨hsent, hhandled⟩ := of_decide_eq_true hcheck
  obtain ⟨request, hhead, hrequest⟩ := (Option.any_eq_true ..).mp hsent
  obtain ⟨ν', hstep, haccepted⟩ := (Option.any_eq_true ..).mp hhandled
  obtain ⟨rest, hrequests⟩ := List.head?_eq_some_iff.mp hhead
  obtain ⟨hnames, hmeant⟩ := of_decide_eq_true hrequest
  exact ⟨ν, ν', request, rest, hreach, hrequests, hmeant, hstep, of_decide_eq_true haccepted,
    actsAsListed_of_reach hreach hrequests hnames hstep⟩

/--
The ACCEPT was meant for the invitation of `B`, and `A` plays with `C`.
-/
theorem not_actsAsMeant
    : ∃ ν ν' request rest, (machine calmEnv).Reach (fun _ _ => True) initial ν
      ∧ ν.requests 0 = request :: rest ∧ request.pkt.NamesInvitation
      ∧ (machine calmEnv).step ν (.handle 0) = some ν' ∧ ¬ ActsAsMeant ν ν' request := by
  obtain ⟨ν, hreach, hcheck⟩ := Machine.Reach.of_any_run (machine calmEnv) (fun _ _ => True) initial
    acceptOvertaken
    (fun ν => decide ((ν.requests 0).head?.any (fun request =>
        decide (request.pkt.NamesInvitation ∧ request.meant = some 0)) = true
      ∧ ((machine calmEnv).step ν (.handle 0)).any (fun ν' =>
        decide (ν'.store.invitations.get? 1 ≠ ν.store.invitations.get? 1)) = true))
    (by decide +kernel)
  obtain ⟨hsent, hhandled⟩ := of_decide_eq_true hcheck
  obtain ⟨request, hhead, hrequest⟩ := (Option.any_eq_true ..).mp hsent
  obtain ⟨ν', hstep, hchanged⟩ := (Option.any_eq_true ..).mp hhandled
  obtain ⟨rest, hrequests⟩ := List.head?_eq_some_iff.mp hhead
  obtain ⟨hnames, hmeant⟩ := of_decide_eq_true hrequest
  have hne := of_decide_eq_true hchanged
  refine ⟨ν, ν', request, rest, hreach, hrequests, hnames, hstep, ?_⟩
  rintro (hsame | ⟨inv, hinv, hacts⟩)
  . exact hne (by rw [hsame])
  . -- what was meant has number 0, and what has changed is the invitation of `C`
    obtain rfl := Option.some.inj (hmeant.symm.trans hinv)
    exact hne (hacts 1 (by decide)).invitation

end Network

end Jeux
