import Jeux.Service.Machine

/-!
Everything that the service loop can do about one packet, in one relation.
-/

namespace Jeux

open ServerM

def requestOp? (s : Store) (client : ClientPtr) (pkt : Packet) : Option Operation :=
  match PacketType.ofByte? pkt.hdr.type with
  | some .invite => inviteOp? s client pkt.hdr pkt.text
  | some .revoke => some (.revoke pkt.hdr.id.toNat)
  | some .accept => some (.accept pkt.hdr.id.toNat)
  | some .decline => some (.decline pkt.hdr.id.toNat)
  | some .move => pkt.text.map (.move pkt.hdr.id.toNat)
  | some .resign => some (.resign pkt.hdr.id.toNat)
  | _ => none

/--
The types of request that are honoured only once the client has logged in.
-/
def PacketType.IsRequest (type : PacketType) : Prop :=
  type = .users ∨ type = .invite ∨ type = .revoke ∨ type = .accept ∨ type = .decline
    ∨ type = .move ∨ type = .resign

instance (type : PacketType) : Decidable type.IsRequest := by
  unfold PacketType.IsRequest
  infer_instance

/--
`Handled env w client pkt type w'`: the handler for a type of request has dealt with a packet.
-/
inductive Handled (env : Env) (w : World) (client : ClientPtr) (pkt : Packet) (type : PacketType)
    : World → Prop
  | users (htype : type = .users) (halloc : env.allocOk w.trace.allocs = true)
      (hfit : linesFit w.store.players w.store.onlinePlayers = true)
      : Handled env w client pkt type
          (World.acked { w with trace.allocs := w.trace.allocs + 1 } env client 0
            (some (usersText w.store.players w.store.onlinePlayers)))
  | unfit (htype : type = .invite ∨ type = .move) (hop : requestOp? w.store client pkt = none)
      : Handled env w client pkt type (w.nacked env client)
  | invited {op : Operation} {r : Int} {w₁ : World} (htype : type = .invite)
      (hop : requestOp? w.store client pkt = some op) (hreturned : Returned env w client op r w₁)
      : Handled env w client pkt type (w₁.acked env client r none)
  | answered {op : Operation} {r : Int} {w₁ : World} {data : Option CString}
      (htype : type ≠ .invite) (hop : requestOp? w.store client pkt = some op)
      (hreturned : Returned env w client op r w₁)
      : Handled env w client pkt type (w₁.answered env client r data)

/--
`Served env w client gate pkt gate' w'`: a packet has been dealt with, and the loop goes on.
-/
inductive Served (env : Env) (w : World) (client : ClientPtr) (gate : Int) (pkt : Packet)
    : Int → World → Prop
  | ignored (hlogin : PacketType.ofByte? pkt.hdr.type ≠ some .login)
      (htype : ∀ type, PacketType.ofByte? pkt.hdr.type = some type → ¬ type.IsRequest)
      : Served env w client gate pkt gate w
  | shut {type : PacketType} (htype : PacketType.ofByte? pkt.hdr.type = some type)
      (hrequest : type.IsRequest) (hgate : gate = 0)
      : Served env w client gate pkt gate (w.nacked env client)
  | users (htype : PacketType.ofByte? pkt.hdr.type = some .users) (hgate : gate ≠ 0)
      (halloc : env.allocOk w.trace.allocs = true)
      (hfit : linesFit w.store.players w.store.onlinePlayers = true)
      : Served env w client gate pkt gate
          (World.acked { w with trace.allocs := w.trace.allocs + 1 } env client 0
            (some (usersText w.store.players w.store.onlinePlayers)))
  | unfit {type : PacketType} (htype : PacketType.ofByte? pkt.hdr.type = some type)
      (hrequest : type = .invite ∨ type = .move) (hgate : gate ≠ 0)
      (hop : requestOp? w.store client pkt = none)
      : Served env w client gate pkt gate (w.nacked env client)
  | invited {op : Operation} {r : Int} {w₁ : World}
      (htype : PacketType.ofByte? pkt.hdr.type = some .invite) (hgate : gate ≠ 0)
      (hop : requestOp? w.store client pkt = some op) (hcall : w.store.Callable client op)
      (heffect : Effect env w client op r w₁)
      : Served env w client gate pkt gate (w₁.acked env client r none)
  | answered {type : PacketType} {op : Operation} {r : Int} {w₁ : World} {data : Option CString}
      (htype : PacketType.ofByte? pkt.hdr.type = some type) (hrequest : type.IsRequest)
      (hinvite : type ≠ .invite) (hgate : gate ≠ 0)
      (hop : requestOp? w.store client pkt = some op) (hcall : w.store.Callable client op)
      (heffect : Effect env w client op r w₁)
      : Served env w client gate pkt gate (w₁.answered env client r data)
  | loginRefused {c : Client} (htype : PacketType.ofByte? pkt.hdr.type = some .login)
      (hc : w.store.clients.get? client = some c) (hrefused : LoginRefused c pkt.text)
      : Served env w client gate pkt (-1) (w.nacked env client)
  | loginNoRoom {c : Client} {name : CString} {w₁ : World}
      (htype : PacketType.ofByte? pkt.hdr.type = some .login)
      (hc : w.store.clients.get? client = some c) (htext : pkt.text = some name)
      (hrefused : ¬ LoginRefused c (some name)) (havail : ¬ PlayerAvailable env w name)
      (hstore : w₁.store = w.store
        ∨ ∃ p, w₁.store = { w.store with players := w.store.players.push p })
      (hsent : w₁.trace.sent = w.trace.sent) (hposted : w₁.trace.posted = w.trace.posted)
      : Served env w client gate pkt (-1) (w₁.nacked env client)
  | loginTaken {c : Client} {name : CString}
      (htype : PacketType.ofByte? pkt.hdr.type = some .login)
      (hc : w.store.clients.get? client = some c) (htext : pkt.text = some name)
      (hrefused : ¬ LoginRefused c (some name)) (havail : PlayerAvailable env w name)
      (htaken : w.store.lookup name ≠ none)
      : Served env w client gate pkt 1
          (((w.enlisted name).nacked env client).acked env client 0 none)
  | loggedIn {c : Client} {name : CString}
      (htype : PacketType.ofByte? pkt.hdr.type = some .login)
      (hc : w.store.clients.get? client = some c) (htext : pkt.text = some name)
      (hrefused : ¬ LoginRefused c (some name)) (havail : PlayerAvailable env w name)
      (htaken : w.store.lookup name = none)
      : Served env w client gate pkt 1
          ({ w.enlisted name with
            store := (w.store.enlist name).login client (w.store.playerFor name) }.acked env client 0
            none)

structure Store.Steady (s : Store) : Prop where
  valid : s.Valid fun _ => 0
  settled : s.Settled
  session : ∀ client c, 0 < s.registered client → s.clients.get? client = some c →
    c.player ≠ none → c.loggedIn = .loggedIn

variable {env : Env} {w w' : World} {client : ClientPtr} {c : Client} {gate gate' : Int}
  {pkt : Packet} {extra : ClientPtr → Nat}

/-! ## Requests -/

theorem Store.Holds.requested {s : Store} (h : s.Holds extra client) {op : Operation}
    (hop : requestOp? s client pkt = some op) : s.Allowed extra client op where
  held := h.held
  invited := by
    rintro target sourceRole targetRole rfl
    unfold requestOp? at hop
    split at hop
    . obtain ⟨user, invitee, sourceRole', targetRole', -, hlookup, hne, hroles, heq⟩ :=
        inviteOp?_eq_some hop
      rw [Operation.make.injEq] at heq
      obtain ⟨rfl, rfl, rfl⟩ := heq
      obtain ⟨-, ci, hci, hplayer⟩ := h.valid.lookup_eq_some hlookup
      exact ⟨hne.symm, ⟨ci, hci, hplayer⟩, inviteRoles?_opposite hroles⟩
    all_goals simp at hop

section Request

variable {type : PacketType} {n : Int}

theorem Handled.of_users (hv : w.store.Valid extra) (hc : w.store.clients.get? client = some c)
    (hrun : (processUsers none client).run env w = .ok (n, w'))
    : Handled env w client pkt .users w' := by
  rw [processUsers_run env hv hc] at hrun
  split at hrun
  . next halloc =>
    split at hrun
    . next hfit =>
      rw [Except.ok.injEq, Prod.mk.injEq] at hrun
      obtain ⟨-, rfl⟩ := hrun
      exact .users rfl halloc hfit
    . simp at hrun
  . simp at hrun

theorem Handled.of_invite (hholds : w.store.Holds extra client)
    (hop : requestOp? w.store client pkt = inviteOp? w.store client pkt.hdr pkt.text)
    (hrun : (processInvite pkt.text client pkt.hdr).run env w = .ok (n, w'))
    : Handled env w client pkt .invite w' := by
  obtain ⟨c, hc⟩ := hholds.valid.held_live client hholds.held
  cases hinvite : inviteOp? w.store client pkt.hdr pkt.text with
  | none =>
    rw [processInvite_run_none hholds.valid hc hinvite, Except.ok.injEq, Prod.mk.injEq] at hrun
    obtain ⟨-, rfl⟩ := hrun
    exact .unfit (.inl rfl) (hop.trans hinvite)
  | some op =>
    have hcall := hholds.requested (hop.trans hinvite)
    rw [processInvite_run env hholds.valid hinvite, run_bind] at hrun
    split at hrun
    . next r w₁ hrun₁ =>
      have hreturned := Operation.returned hholds.valid hholds.linked hcall hrun₁
      obtain ⟨c₁, hc₁, -⟩ := hreturned.effect.keepsSessions.get? hc
      rw [inviteMade_run env r hc₁, Except.ok.injEq, Prod.mk.injEq] at hrun
      obtain ⟨-, rfl⟩ := hrun
      exact .invited rfl (hop.trans hinvite) hreturned
    . simp at hrun

theorem Handled.of_byId {operation : ClientPtr → Int → ServerM Int} {op : Operation}
    (hholds : w.store.Holds extra client) (hinvite : type ≠ .invite)
    (hop : requestOp? w.store client pkt = some op)
    (hcall : op.call client = operation client pkt.hdr.id.toNat)
    (hrun : (processById none client pkt.hdr operation).run env w = .ok (n, w'))
    : Handled env w client pkt type w' := by
  obtain ⟨c, hc⟩ := hholds.valid.held_live client hholds.held
  cases hrun₁ : (operation client pkt.hdr.id.toNat).run env w with
  | error f =>
    simp only [processById, ne_eq, not_true_eq_false, ↓reduceIte, run_bind, hrun₁] at hrun
    simp at hrun
  | ok p =>
    obtain ⟨r, w₁⟩ := p
    have hreturned : Returned env w client op r w₁ :=
      Operation.returned hholds.valid hholds.linked (hholds.requested hop) (hcall ▸ hrun₁)
    obtain ⟨c₁, hc₁, -⟩ := hreturned.effect.keepsSessions.get? hc
    obtain ⟨n', hrun'⟩ := processById_run hrun₁ hc₁
    rw [hrun', Except.ok.injEq, Prod.mk.injEq] at hrun
    obtain ⟨-, rfl⟩ := hrun
    exact .answered hinvite hop hreturned

theorem Handled.of_accept (hholds : w.store.Holds extra client)
    (hop : requestOp? w.store client pkt = some (.accept pkt.hdr.id.toNat))
    (hrun : (processAccept none client pkt.hdr).run env w = .ok (n, w'))
    : Handled env w client pkt .accept w' := by
  obtain ⟨c, hc⟩ := hholds.valid.held_live client hholds.held
  obtain ⟨r, w₁, state, hrun₁, hreturned⟩ :=
    Operation.run_accept env pkt.hdr.id.toNat hholds.valid hholds.held
  obtain ⟨c₁, hc₁, -⟩ := hreturned.effect.keepsSessions.get? hc
  obtain ⟨n', hrun'⟩ := processAccept_run hrun₁ hc₁
  rw [hrun', Except.ok.injEq, Prod.mk.injEq] at hrun
  obtain ⟨-, rfl⟩ := hrun
  exact .answered (by decide) hop hreturned

theorem Handled.of_move (hholds : w.store.Holds extra client)
    (hop : requestOp? w.store client pkt = pkt.text.map (.move pkt.hdr.id.toNat))
    (hrun : (processMove pkt.text client pkt.hdr).run env w = .ok (n, w'))
    : Handled env w client pkt .move w' := by
  obtain ⟨c, hc⟩ := hholds.valid.held_live client hholds.held
  cases htext : pkt.text with
  | none =>
    rw [htext, processMove_run_none hc, Except.ok.injEq, Prod.mk.injEq] at hrun
    obtain ⟨-, rfl⟩ := hrun
    exact .unfit (.inr rfl) (by rw [hop, htext, Option.map_none])
  | some text =>
    rw [htext, Option.map_some] at hop
    rw [htext] at hrun
    cases hmove : (clientMakeMove client pkt.hdr.id.toNat text).run env w with
    | error f =>
      simp only [processMove, run_bind, hmove] at hrun
      simp at hrun
    | ok p =>
      obtain ⟨r, w₁⟩ := p
      have hreturned : Returned env w client (.move pkt.hdr.id.toNat text) r w₁ :=
        Operation.returned hholds.valid hholds.linked (hholds.requested hop) hmove
      obtain ⟨c₁, hc₁, -⟩ := hreturned.effect.keepsSessions.get? hc
      obtain ⟨n', hrun'⟩ := processMove_run hmove hc₁
      rw [hrun', Except.ok.injEq, Prod.mk.injEq] at hrun
      obtain ⟨-, rfl⟩ := hrun
      exact .answered (by decide) hop hreturned

theorem Handled.of_request {handler : ServerM Int} (hholds : w.store.Holds extra client)
    (htype : PacketType.ofByte? pkt.hdr.type = some type)
    (hhandler : requestHandler? type client pkt = some handler)
    (hrun : handler.run env w = .ok (n, w')) : Handled env w client pkt type w' := by
  cases type
  all_goals
    simp only [requestHandler?, reduceCtorEq, Option.some.injEq] at hhandler
  case users =>
    subst hhandler
    obtain ⟨c, hc⟩ := hholds.valid.held_live client hholds.held
    exact of_users hholds.valid hc hrun
  case invite =>
    subst hhandler
    exact of_invite hholds (by simp only [requestOp?, htype]) hrun
  case revoke =>
    subst hhandler
    have hop : requestOp? w.store client pkt = some (.revoke pkt.hdr.id.toNat) := by
      simp only [requestOp?, htype]
    exact of_byId hholds (by decide) hop rfl hrun
  case decline =>
    subst hhandler
    have hop : requestOp? w.store client pkt = some (.decline pkt.hdr.id.toNat) := by
      simp only [requestOp?, htype]
    exact of_byId hholds (by decide) hop rfl hrun
  case resign =>
    subst hhandler
    have hop : requestOp? w.store client pkt = some (.resign pkt.hdr.id.toNat) := by
      simp only [requestOp?, htype]
    exact of_byId hholds (by decide) hop rfl hrun
  case accept =>
    subst hhandler
    exact of_accept hholds (by simp only [requestOp?, htype]) hrun
  case move =>
    subst hhandler
    exact of_move hholds (by simp only [requestOp?, htype]) hrun

end Request

/-! ## Packets -/

theorem Store.Steady.serves {s : Store} (h : s.Steady) (hregistered : 0 < s.registered client)
    : s.Serves (fun _ => 0) client where
  valid := h.valid
  settled := h.settled
  registered := hregistered
  session := fun c hc => h.session client c hregistered hc

theorem Store.Steady.callable {s : Store} (h : s.Steady) (hregistered : 0 < s.registered client)
    {op : Operation} (hop : requestOp? s client pkt = some op) : s.Callable client op where
  registered := hregistered
  session := (h.serves hregistered).session
  invited := by
    rintro target sourceRole targetRole rfl
    unfold requestOp? at hop
    split at hop
    . obtain ⟨user, invitee, sourceRole', targetRole', -, hlookup, hne, hroles, heq⟩ :=
        inviteOp?_eq_some hop
      rw [Operation.make.injEq] at heq
      obtain ⟨rfl, rfl, rfl⟩ := heq
      obtain ⟨hinvitee, ci, hci, hplayer⟩ := h.valid.lookup_eq_some hlookup
      exact ⟨hne.symm, ⟨ci, hci, h.session _ ci hinvitee hci hplayer⟩, inviteRoles?_opposite hroles⟩
    all_goals simp at hop

theorem Served.of_login (hserves : w.store.Serves (fun _ => 0) client)
    (htype : PacketType.ofByte? pkt.hdr.type = some .login)
    (hrun : (processLogin pkt.text client).run env w = .ok (gate', w'))
    (hsem : w.store.loginSem ≠ 0) : Served env w client gate pkt gate' w' := by
  obtain ⟨c, hc⟩ := hserves.exists_client
  by_cases hrefused : LoginRefused c pkt.text
  . rw [processLogin_run_refused hc hrefused, Except.ok.injEq, Prod.mk.injEq] at hrun
    obtain ⟨rfl, rfl⟩ := hrun
    exact .loginRefused htype hc hrefused
  . cases htext : pkt.text with
    | none => exact absurd (.inr (.inl htext)) hrefused
    | some name =>
      rw [htext] at hrun hrefused
      by_cases havail : PlayerAvailable env w name
      . have hout := hserves.valid.loggedOut hc hrefused
        rw [processLogin_run hserves.valid hc hout hrefused havail hsem] at hrun
        split at hrun
        . rw [Except.ok.injEq, Prod.mk.injEq] at hrun
          obtain ⟨rfl, rfl⟩ := hrun
          split
          . next htaken =>
            exact .loginTaken htype hc htext hrefused havail
              (Option.ne_none_iff_isSome.mpr htaken)
          . next htaken =>
            exact .loggedIn htype hc htext hrefused havail
              (Option.not_isSome_iff_eq_none.mp htaken)
        . simp at hrun
      . obtain ⟨w₁, hrun', hstore, hsent, hposted⟩ :=
          processLogin_run_no_room hserves.valid hc hrefused havail
        rw [hrun', Except.ok.injEq, Prod.mk.injEq] at hrun
        obtain ⟨rfl, rfl⟩ := hrun
        exact .loginNoRoom htype hc htext hrefused havail hstore hsent hposted

theorem Served.of_request {type : PacketType} (hsteady : w.store.Steady)
    (hregistered : 0 < w.store.registered client)
    (htype : PacketType.ofByte? pkt.hdr.type = some type) (hrequest : type.IsRequest)
    (hgate : gate ≠ 0) (hhandled : Handled env w client pkt type w')
    : Served env w client gate pkt gate w' := by
  cases hhandled with
  | users heq halloc hfit =>
    subst heq
    exact .users htype hgate halloc hfit
  | unfit heq hop => exact .unfit htype heq hgate hop
  | invited heq hop hreturned =>
    subst heq
    exact .invited htype hgate hop (hsteady.callable hregistered hop) hreturned.effect
  | answered heq hop hreturned =>
    exact .answered htype hrequest heq hgate hop (hsteady.callable hregistered hop) hreturned.effect

theorem requestHandler?_isSome (type : PacketType) (client : ClientPtr) (pkt : Packet)
    : (requestHandler? type client pkt).isSome ↔ type.IsRequest := by
  cases type <;> simp [requestHandler?, PacketType.IsRequest]

theorem servicePacket_eq {type : PacketType} (gate : Int)
    (htype : PacketType.ofByte? pkt.hdr.type = some type) (hlogin : type ≠ .login) (hno : type ≠ .no)
    : servicePacket client gate pkt
        =
      match requestHandler? type client pkt with
      | some handler =>
        if gate = 0 then do
          let _ ← clientSendNack client
          return (gate, true)
        else do
          let _ ← handler
          return (gate, true)
      | none => return (gate, true) := by
  unfold servicePacket
  rw [htype]
  cases type <;> trivial

theorem servicePacket_request {type : PacketType} (client : ClientPtr) (gate : Int)
    (htype : PacketType.ofByte? pkt.hdr.type = some type) (hrequest : type.IsRequest)
    : ∃ handler, requestHandler? type client pkt = some handler
        ∧ servicePacket client gate pkt
          =
        if gate = 0 then do
          let _ ← clientSendNack client
          return (gate, true)
        else do
          let _ ← handler
          return (gate, true) := by
  obtain ⟨handler, hhandler⟩ :=
    Option.isSome_iff_exists.mp ((requestHandler?_isSome type client pkt).mpr hrequest)
  refine ⟨handler, hhandler, ?_⟩
  have hlogin : type ≠ .login := by
    rintro rfl
    exact absurd hrequest (by decide)
  have hno : type ≠ .no := by
    rintro rfl
    exact absurd hrequest (by decide)
  rw [servicePacket_eq gate htype hlogin hno, hhandler]

theorem servicePacket_served (hsteady : w.store.Steady) (hregistered : 0 < w.store.registered client)
    (hsem : w.store.loginSem ≠ 0)
    (hrun : (servicePacket client gate pkt).run env w = .ok ((gate', true), w'))
    : Served env w client gate pkt gate' w' := by
  obtain ⟨c, hc⟩ := (hsteady.serves hregistered).exists_client
  unfold servicePacket at hrun
  split at hrun
  . next htype =>
    rw [run_bind] at hrun
    split at hrun
    . next r w₁ hrun₁ =>
      simp only [run_pure, Except.ok.injEq, Prod.mk.injEq, and_true] at hrun
      obtain ⟨rfl, rfl⟩ := hrun
      exact .of_login (hsteady.serves hregistered) htype hrun₁ hsem
    . simp at hrun
  . next htype =>
    rw [run_bind] at hrun
    split at hrun
    . simp [run_pure] at hrun
    . simp at hrun
  . next type hlogin hno htype =>
    have hnot : PacketType.ofByte? pkt.hdr.type ≠ some .login := by
      rw [htype, ne_eq, Option.some.injEq]
      exact hlogin
    split at hrun
    . next handler hhandler =>
      have hrequest := (requestHandler?_isSome type client pkt).mp (by simp [hhandler])
      split at hrun
      . next hgate =>
        simp only [run_bind, clientSendNack_run hc, run_pure, Except.ok.injEq, Prod.mk.injEq,
          and_true] at hrun
        obtain ⟨rfl, rfl⟩ := hrun
        exact .shut htype hrequest hgate
      . next hgate =>
        rw [run_bind] at hrun
        split at hrun
        . next r w₁ hrun₁ =>
          simp only [run_pure, Except.ok.injEq, Prod.mk.injEq, and_true] at hrun
          obtain ⟨rfl, rfl⟩ := hrun
          exact .of_request hsteady hregistered htype hrequest hgate
            (.of_request (hsteady.serves hregistered).holds htype hhandler hrun₁)
        . simp at hrun
    . next hhandler =>
      simp only [run_pure, Except.ok.injEq, Prod.mk.injEq, and_true] at hrun
      obtain ⟨rfl, rfl⟩ := hrun
      refine .ignored hnot ?_
      intro type' htype' hrequest
      rw [htype, Option.some.injEq] at htype'
      subst htype'
      have := (requestHandler?_isSome type client pkt).mpr hrequest
      simp [hhandler] at this
  . next htype =>
    simp only [run_pure, Except.ok.injEq, Prod.mk.injEq, and_true] at hrun
    obtain ⟨rfl, rfl⟩ := hrun
    exact .ignored (by simp [htype]) (by simp [htype])

theorem servicePacket_last
    (hrun : (servicePacket client gate pkt).run env w = .ok ((gate', false), w'))
    : PacketType.ofByte? pkt.hdr.type = some .no
        ∧ ∃ r, (clientLogout client).run env w = .ok (r, w') := by
  unfold servicePacket at hrun
  split at hrun
  . rw [run_bind] at hrun
    split at hrun
    . simp [run_pure] at hrun
    . simp at hrun
  . next htype =>
    rw [run_bind] at hrun
    split at hrun
    . next r w₁ hrun₁ =>
      simp only [run_pure, Except.ok.injEq, Prod.mk.injEq, and_true] at hrun
      obtain ⟨-, rfl⟩ := hrun
      exact ⟨htype, r, hrun₁⟩
    . simp at hrun
  . split at hrun
    . split at hrun
      . rw [run_bind] at hrun
        split at hrun
        . simp [run_pure] at hrun
        . simp at hrun
      . rw [run_bind] at hrun
        split at hrun
        . simp [run_pure] at hrun
        . simp at hrun
    . simp [run_pure] at hrun
  . simp [run_pure] at hrun

/-! ## What follows the operation a request asks for -/

theorem requestHandler_run {type : PacketType} {handler : ServerM Int} {op : Operation} {r : Int}
    {c' : Client} (hv : w.store.Valid fun _ => 0)
    (htype : PacketType.ofByte? pkt.hdr.type = some type)
    (hhandler : requestHandler? type client pkt = some handler)
    (hop : requestOp? w.store client pkt = some op)
    (hrun : (op.call client).run env w = .ok (r, w')) (hc : w'.store.clients.get? client = some c')
    : ∃ n data, handler.run env w
        = .ok (n, if type = .invite then w'.acked env client r none
            else w'.answered env client r data) := by
  unfold requestOp? at hop
  simp only [htype] at hop
  cases type
  all_goals simp only [requestHandler?, reduceCtorEq, Option.some.injEq] at hhandler hop
  case invite =>
    subst hhandler
    refine ⟨0, none, ?_⟩
    rw [processInvite_run env hv hop, run_bind, hrun]
    exact inviteMade_run env r hc
  case revoke | decline | resign =>
    subst hhandler hop
    simp only [Operation.call] at hrun
    obtain ⟨n, hrun'⟩ := processById_run hrun hc
    exact ⟨n, none, hrun'⟩
  case accept =>
    subst hhandler hop
    rw [Operation.call, run_bind] at hrun
    split at hrun
    . next p w₁ hrun₁ =>
      simp only [run_pure, Except.ok.injEq, Prod.mk.injEq] at hrun
      obtain ⟨rfl, rfl⟩ := hrun
      obtain ⟨n, hrun'⟩ := processAccept_run hrun₁ hc
      exact ⟨n, p.2, hrun'⟩
    . simp at hrun
  case move =>
    subst hhandler
    obtain ⟨text, htext, rfl⟩ := Option.map_eq_some_iff.mp hop
    obtain ⟨n, hrun'⟩ := processMove_run hrun hc
    rw [htext]
    exact ⟨n, none, hrun'⟩

theorem requestHandler_run_error {type : PacketType} {handler : ServerM Int} {op : Operation}
    {f : Fault} (hv : w.store.Valid extra) (htype : PacketType.ofByte? pkt.hdr.type = some type)
    (hhandler : requestHandler? type client pkt = some handler)
    (hop : requestOp? w.store client pkt = some op)
    (hrun : (op.call client).run env w = .error f) : handler.run env w = .error f := by
  unfold requestOp? at hop
  simp only [htype] at hop
  cases type
  all_goals simp only [requestHandler?, reduceCtorEq, Option.some.injEq] at hhandler hop
  case invite =>
    subst hhandler
    rw [processInvite_run env hv hop, run_bind, hrun]
  case revoke | decline | resign =>
    subst hhandler hop
    simp only [Operation.call] at hrun
    simp only [processRevoke, processDecline, processResign, processById, ne_eq,
      not_true_eq_false, ↓reduceIte, run_bind, hrun]
  case accept =>
    subst hhandler hop
    rw [Operation.call, run_bind] at hrun
    split at hrun
    . simp at hrun
    . next e hrun₁ =>
      simp only [Except.error.injEq] at hrun
      simp only [processAccept, ne_eq, not_true_eq_false, ↓reduceIte, run_bind, hrun₁, hrun]
  case move =>
    subst hhandler
    obtain ⟨text, htext, rfl⟩ := Option.map_eq_some_iff.mp hop
    simp only [Operation.call] at hrun
    simp only [htext, processMove, run_bind, hrun]

theorem requestOp?_type {s : Store} {op : Operation} (hop : requestOp? s client pkt = some op)
    : ∃ type, PacketType.ofByte? pkt.hdr.type = some type ∧ type.IsRequest ∧ type ≠ .users := by
  unfold requestOp? at hop
  cases htype : PacketType.ofByte? pkt.hdr.type with
  | none => simp [htype] at hop
  | some type =>
    refine ⟨type, rfl, ?_⟩
    simp only [htype] at hop
    cases type <;> simp [PacketType.IsRequest] at hop ⊢

theorem requestOp?_ne_make {s : Store} {op : Operation}
    (hop : requestOp? s client pkt = some op)
    (htype : PacketType.ofByte? pkt.hdr.type ≠ some .invite)
    : ∀ target sourceRole targetRole, op ≠ .make target sourceRole targetRole := by
  rintro target sourceRole targetRole rfl
  unfold requestOp? at hop
  split at hop
  . next heq => exact htype heq
  all_goals simp at hop

theorem requestOp?_eq_make {s : Store} {op : Operation}
    (hop : requestOp? s client pkt = some op)
    (htype : PacketType.ofByte? pkt.hdr.type = some .invite)
    : ∃ target sourceRole targetRole, op = .make target sourceRole targetRole := by
  unfold requestOp? at hop
  rw [htype] at hop
  obtain ⟨user, target, sourceRole, targetRole, -, -, -, -, heq⟩ := inviteOp?_eq_some hop
  exact ⟨target, sourceRole, targetRole, heq⟩

theorem servicePacket_run_request {op : Operation} {r : Int} {c' : Client}
    (hv : w.store.Valid fun _ => 0) (hopen : gate ≠ 0)
    (hop : requestOp? w.store client pkt = some op)
    (hrun : (op.call client).run env w = .ok (r, w')) (hc : w'.store.clients.get? client = some c')
    : ∃ data, (servicePacket client gate pkt).run env w
        = .ok ((gate, true), if PacketType.ofByte? pkt.hdr.type = some .invite
            then w'.acked env client r none else w'.answered env client r data) := by
  obtain ⟨type, htype, hrequest, -⟩ := requestOp?_type hop
  obtain ⟨handler, hhandler, heq⟩ := servicePacket_request client gate htype hrequest
  obtain ⟨n, data, hrun'⟩ := requestHandler_run hv htype hhandler hop hrun hc
  refine ⟨data, ?_⟩
  rw [heq, if_neg hopen, run_bind, hrun']
  simp only [run_pure, htype, Option.some.injEq]

theorem servicePacket_run_error {op : Operation} {f : Fault} (hv : w.store.Valid extra)
    (hopen : gate ≠ 0) (hop : requestOp? w.store client pkt = some op)
    (hrun : (op.call client).run env w = .error f)
    : (servicePacket client gate pkt).run env w = .error f := by
  obtain ⟨type, htype, hrequest, -⟩ := requestOp?_type hop
  obtain ⟨handler, hhandler, heq⟩ := servicePacket_request client gate htype hrequest
  rw [heq, if_neg hopen, run_bind, requestHandler_run_error hv htype hhandler hop hrun]

end Jeux
