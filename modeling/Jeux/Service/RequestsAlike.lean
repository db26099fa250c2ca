import Jeux.Lemmas.Alike
import Jeux.Service.PacketIds

/-!
A request handled in two worlds that look the same to its participants: the operation, the response,
and the service loop around them.
-/

namespace Jeux

open ServerM

variable {env env' answers : Env} {w v w' v' : World} {extra extra' : ClientPtr → Nat}
  {client : ClientPtr} {op : Option Operation} {pkt : Packet} {gate : Int}

/-! ## Responses -/

theorem SameCourse.acked (h : SameCourse client op w v w' v') (answers : Env) (id : Int)
    (data : Option CString)
    : SameCourse client op w v (w'.acked (answers.since w.trace) client id data)
        (v'.acked (answers.since v.trace) client id data) := by
  have hpacket : ackPacket (answers.since v.trace) v' id (data.getD []).length
      = ackPacket (answers.since w.trace) w' id (data.getD []).length := by
    rw [ackPacket, ackPacket, h.clock]
  unfold World.acked
  rw [hpacket]
  exact h.send _ _ answers (Store.mem_participants ..) _ _

theorem SameCourse.nacked (h : SameCourse client op w v w' v') (answers : Env)
    : SameCourse client op w v (w'.nacked (answers.since w.trace) client)
        (v'.nacked (answers.since v.trace) client) := by
  have hpacket : nackPacket (answers.since v.trace) v' = nackPacket (answers.since w.trace) w' := by
    rw [nackPacket, nackPacket, h.clock]
  unfold World.nacked
  rw [hpacket]
  exact h.send _ _ answers (Store.mem_participants ..) _ _

theorem SameCourse.answered (h : SameCourse client op w v w' v') (answers : Env) (r : Int)
    (data : Option CString)
    : SameCourse client op w v (w'.answered (answers.since w.trace) client r data)
        (v'.answered (answers.since v.trace) client r data) := by
  unfold World.answered
  split
  . exact h.nacked answers
  . exact h.acked answers 0 data

/-! ## Handlers -/

/--
`Handles env w x handler respond`: the handler carries out `x` and responds to what it returns.
-/
structure Handles {α : Type} (env : Env) (w : World) (x : ServerM α) (handler : ServerM Int)
    (respond : α → World → World) : Prop where
  fails : ∀ f, x.run env w = .error f → handler.run env w = .error f
  returns : ∀ a w', x.run env w = .ok (a, w') → ∃ n, handler.run env w = .ok (n, respond a w')

theorem Alike.handled {α β : Type} {x : ServerM α} {handler : ServerM Int}
    {respond respond' : α → World → World}
    (h : Alike (SameCourse client op w v) (x.run env w) (x.run env' v))
    (hw : Handles env w x handler respond) (hv : Handles env' v x handler respond')
    (hrespond : ∀ a w' v', SameCourse client op w v w' v' →
      SameCourse client op w v (respond a w') (respond' a v')) (b : β)
    : Alike (SameCourse client op w v) ((do let _ ← handler; return b : ServerM β).run env w)
        ((do let _ ← handler; return b : ServerM β).run env' v) := by
  rcases h.cases with ⟨f, hx, hy⟩ | ⟨a, w', v', hx, hy, hcourse⟩
  . simp only [run_bind, hw.fails f hx, hv.fails f hy]
    exact .fails f
  . obtain ⟨n, hn⟩ := hw.returns a w' hx
    obtain ⟨m, hm⟩ := hv.returns a v' hy
    simp only [run_bind, run_pure, hn, hm]
    exact .returns b (hrespond a w' v' hcourse)

theorem Alike.nacks {β : Type} {handler : ServerM Int} {n m : Int} (answers : Env)
    (hscene : w.store.SameScene v.store client op) (hvalid : w.store.Valid extra)
    (hw : handler.run (answers.since w.trace) w
      = .ok (n, w.nacked (answers.since w.trace) client))
    (hv : handler.run (answers.since v.trace) v
      = .ok (m, v.nacked (answers.since v.trace) client)) (b : β)
    : Alike (SameCourse client op w v)
        ((do let _ ← handler; return b : ServerM β).run (answers.since w.trace) w)
        ((do let _ ← handler; return b : ServerM β).run (answers.since v.trace) v) := by
  simp only [run_bind, run_pure, hw, hv]
  exact .returns b ((SameCourse.start hscene hvalid).nacked answers)

section Handles

variable {hdr : PacketHeader}

theorem Store.Holds.get?_after {op : Operation} {r : Int} (h : w.store.Holds extra client)
    (hcall : w.store.Allowed extra client op) (hrun : (op.call client).run env w = .ok (r, w'))
    : ∃ c, w'.store.clients.get? client = some c := by
  obtain ⟨c, hc⟩ := h.valid.held_live client h.held
  obtain ⟨c', hc', -⟩ :=
    (Operation.returned h.valid h.linked hcall hrun).effect.keepsSessions.get? hc
  exact ⟨c', hc'⟩

theorem handles_byId {operation : ClientPtr → Int → ServerM Int} {op : Operation}
    (h : w.store.Holds extra client) (hcall : w.store.Allowed extra client op)
    (hop : op.call client = operation client hdr.id.toNat)
    : Handles env w (operation client hdr.id.toNat) (processById none client hdr operation)
        fun r w' => w'.answered env client r none where
  fails := by
    intro f hrun
    simp only [processById, ne_eq, not_true_eq_false, ↓reduceIte, run_bind, hrun]
  returns := by
    intro r w' hrun
    obtain ⟨c, hc⟩ := h.get?_after hcall (hop ▸ hrun)
    exact processById_run hrun hc

theorem handles_accept (h : w.store.Holds extra client)
    : Handles env w (clientAcceptInvitation client hdr.id.toNat) (processAccept none client hdr)
        fun p w' => w'.answered env client p.1 p.2 where
  fails := by
    intro f hrun
    simp only [processAccept, ne_eq, not_true_eq_false, ↓reduceIte, run_bind, hrun]
  returns := by
    intro p w' hrun
    have hcall : (Operation.call client (.accept hdr.id.toNat)).run env w = .ok (p.1, w') := by
      simp only [Operation.call, run_bind, run_pure, hrun]
    obtain ⟨c, hc⟩ := h.get?_after (h.allowed (by simp)) hcall
    exact processAccept_run hrun hc

theorem handles_move (h : w.store.Holds extra client) (text : CString)
    : Handles env w (clientMakeMove client hdr.id.toNat text) (processMove (some text) client hdr)
        fun r w' => w'.answered env client r none where
  fails := by
    intro f hrun
    simp only [processMove, run_bind, hrun]
  returns := by
    intro r w' hrun
    have hcall : w.store.Allowed extra client (.move hdr.id.toNat text) := h.allowed (by simp)
    obtain ⟨c, hc⟩ := h.get?_after hcall hrun
    exact processMove_run hrun hc

theorem handles_invite {op : Operation} {payload : Option CString} (h : w.store.Holds extra client)
    (hcall : w.store.Allowed extra client op)
    (hop : inviteOp? w.store client hdr payload = some op)
    : Handles env w (op.call client) (processInvite payload client hdr)
        fun r w' => w'.acked env client r none where
  fails := by
    intro f hrun
    rw [processInvite_run env h.valid hop, run_bind, hrun]
  returns := by
    intro r w' hrun
    obtain ⟨c, hc⟩ := h.get?_after hcall hrun
    rw [processInvite_run env h.valid hop, run_bind, hrun]
    exact ⟨0, inviteMade_run env r hc⟩

end Handles

/-! ## Requests -/

theorem Store.KeepsSessions.requestOp? {s s' : Store} (h : s.KeepsSessions s')
    : requestOp? s' client pkt = requestOp? s client pkt := by
  simp only [Jeux.requestOp?, inviteOp?, h.lookup]

section Requests

variable {type : PacketType} {handler : ServerM Int}

theorem processInvite_alike (answers : Env)
    (hop : requestOp? w.store client pkt = inviteOp? w.store client pkt.hdr pkt.text)
    (hscene : w.store.SameScene v.store client (requestOp? w.store client pkt))
    (hw : w.store.Holds extra client) (hv : v.store.Holds extra' client) (b : Int × Bool)
    : Alike (SameCourse client (requestOp? w.store client pkt) w v)
        ((do let _ ← processInvite pkt.text client pkt.hdr; return b : ServerM _).run
          (answers.since w.trace) w)
        ((do let _ ← processInvite pkt.text client pkt.hdr; return b : ServerM _).run
          (answers.since v.trace) v) := by
  have hsame : requestOp? v.store client pkt = requestOp? w.store client pkt :=
    hscene.sessions.requestOp?
  have hop' : inviteOp? v.store client pkt.hdr pkt.text
      = inviteOp? w.store client pkt.hdr pkt.text := by
    simp only [inviteOp?, hscene.sessions.lookup]
  cases hinvite : inviteOp? w.store client pkt.hdr pkt.text with
  | none =>
    obtain ⟨c, hc⟩ := hw.valid.held_live client hw.held
    obtain ⟨c', hc'⟩ := hv.valid.held_live client hv.held
    exact .nacks answers hscene hw.valid (processInvite_run_none hw.valid hc hinvite)
      (processInvite_run_none hv.valid hc' (hop'.trans hinvite)) b
  | some op =>
    have hrequest := hop.trans hinvite
    have hcall := hw.requested hrequest
    have hcall' := hv.requested (hsame.trans hrequest)
    rw [hrequest] at hscene ⊢
    obtain ⟨_, target, sourceRole, targetRole, -, -, -, -, rfl⟩ := inviteOp?_eq_some hinvite
    refine .handled (clientMakeInvitation_alike answers target sourceRole targetRole hscene hw
      hv.valid hcall) (handles_invite hw hcall hinvite)
      (handles_invite hv hcall' (hop'.trans hinvite)) ?_ b
    exact fun r w' v' hcourse => hcourse.acked answers r none

theorem processMove_alike (answers : Env)
    (hop : requestOp? w.store client pkt = pkt.text.map (.move pkt.hdr.id.toNat))
    (hscene : w.store.SameScene v.store client (requestOp? w.store client pkt))
    (hw : w.store.Holds extra client) (hv : v.store.Holds extra' client) (b : Int × Bool)
    : Alike (SameCourse client (requestOp? w.store client pkt) w v)
        ((do let _ ← processMove pkt.text client pkt.hdr; return b : ServerM _).run
          (answers.since w.trace) w)
        ((do let _ ← processMove pkt.text client pkt.hdr; return b : ServerM _).run
          (answers.since v.trace) v) := by
  cases htext : pkt.text with
  | none =>
    obtain ⟨c, hc⟩ := hw.valid.held_live client hw.held
    obtain ⟨c', hc'⟩ := hv.valid.held_live client hv.held
    exact .nacks answers hscene hw.valid (processMove_run_none hc) (processMove_run_none hc') b
  | some text =>
    rw [htext, Option.map_some] at hop
    rw [hop] at hscene ⊢
    refine .handled (clientMakeMove_alike answers pkt.hdr.id.toNat text hscene hw hv)
      (handles_move hw text) (handles_move hv text) ?_ b
    exact fun r w' v' hcourse => hcourse.answered answers r none

theorem requestHandler_alike (answers : Env)
    (htype : PacketType.ofByte? pkt.hdr.type = some type) (husers : type ≠ .users)
    (hhandler : requestHandler? type client pkt = some handler)
    (hscene : w.store.SameScene v.store client (requestOp? w.store client pkt))
    (hw : w.store.Holds extra client) (hv : v.store.Holds extra' client) (b : Int × Bool)
    : Alike (SameCourse client (requestOp? w.store client pkt) w v)
        ((do let _ ← handler; return b : ServerM _).run (answers.since w.trace) w)
        ((do let _ ← handler; return b : ServerM _).run (answers.since v.trace) v) := by
  have hanswered : ∀ (op : Option Operation) (r : Int) (w' v' : World),
      SameCourse client op w v w' v' →
      SameCourse client op w v (w'.answered (answers.since w.trace) client r none)
        (v'.answered (answers.since v.trace) client r none) :=
    fun op r w' v' hcourse => hcourse.answered answers r none
  have hsame : requestOp? v.store client pkt = requestOp? w.store client pkt :=
    hscene.sessions.requestOp?
  cases type
  all_goals
    simp only [requestHandler?, reduceCtorEq, Option.some.injEq] at hhandler
  case users => exact absurd rfl husers
  case invite =>
    subst hhandler
    exact processInvite_alike answers (by simp only [requestOp?, htype]) hscene hw hv b
  case revoke =>
    subst hhandler
    have hop : requestOp? w.store client pkt = some (.revoke pkt.hdr.id.toNat) := by
      simp only [requestOp?, htype]
    rw [hop] at hscene ⊢
    exact .handled (clientRevokeInvitation_alike answers _ hscene hw hv)
      (handles_byId hw (hw.requested hop) rfl) (handles_byId hv (hv.requested (hsame.trans hop)) rfl)
      (hanswered _) b
  case decline =>
    subst hhandler
    have hop : requestOp? w.store client pkt = some (.decline pkt.hdr.id.toNat) := by
      simp only [requestOp?, htype]
    rw [hop] at hscene ⊢
    exact .handled (clientDeclineInvitation_alike answers _ hscene hw hv)
      (handles_byId hw (hw.requested hop) rfl) (handles_byId hv (hv.requested (hsame.trans hop)) rfl)
      (hanswered _) b
  case resign =>
    subst hhandler
    have hop : requestOp? w.store client pkt = some (.resign pkt.hdr.id.toNat) := by
      simp only [requestOp?, htype]
    rw [hop] at hscene ⊢
    exact .handled (clientResignGame_alike answers _ hscene hw hv)
      (handles_byId hw (hw.requested hop) rfl) (handles_byId hv (hv.requested (hsame.trans hop)) rfl)
      (hanswered _) b
  case accept =>
    subst hhandler
    have hop : requestOp? w.store client pkt = some (.accept pkt.hdr.id.toNat) := by
      simp only [requestOp?, htype]
    rw [hop] at hscene ⊢
    exact .handled (clientAcceptInvitation_alike answers _ hscene hw hv) (handles_accept hw)
      (handles_accept hv) (fun p w' v' hcourse => hcourse.answered answers p.1 p.2) b
  case move =>
    subst hhandler
    exact processMove_alike answers (by simp only [requestOp?, htype]) hscene hw hv b

theorem servicePacket_goesOn {b : Int × Bool}
    (htype : PacketType.ofByte? pkt.hdr.type = some type) (hrequest : type.IsRequest)
    (hrun : (servicePacket client gate pkt).run env w = .ok (b, w')) : b = (gate, true) := by
  obtain ⟨handler, -, heq⟩ := servicePacket_request client gate htype hrequest
  have hreturn : ∀ action : ServerM Int,
      (do let _ ← action; return (gate, true) : ServerM _).run env w = .ok (b, w') →
      b = (gate, true) := by
    intro action hrun
    rw [run_bind] at hrun
    split at hrun
    . rw [run_pure, Except.ok.injEq, Prod.mk.injEq] at hrun
      exact hrun.1.symm
    . simp at hrun
  rw [heq] at hrun
  split at hrun
  . exact hreturn _ hrun
  . exact hreturn _ hrun

theorem servicePacket_alike (answers : Env) (gate : Int)
    (htype : PacketType.ofByte? pkt.hdr.type = some type) (hrequest : type.IsRequest)
    (husers : type ≠ .users)
    (hscene : w.store.SameScene v.store client (requestOp? w.store client pkt))
    (hw : w.store.Holds extra client) (hv : v.store.Holds extra' client)
    : Alike (SameCourse client (requestOp? w.store client pkt) w v)
        ((servicePacket client gate pkt).run (answers.since w.trace) w)
        ((servicePacket client gate pkt).run (answers.since v.trace) v) := by
  obtain ⟨handler, hhandler, heq⟩ := servicePacket_request client gate htype hrequest
  rw [heq]
  by_cases hgate : gate = 0
  . rw [if_pos hgate]
    obtain ⟨c, hc⟩ := hw.valid.held_live client hw.held
    obtain ⟨c', hc'⟩ := hv.valid.held_live client hv.held
    exact .nacks answers hscene hw.valid (clientSendNack_run hc) (clientSendNack_run hc') _
  . rw [if_neg hgate]
    exact requestHandler_alike answers htype husers hhandler hscene hw hv _

end Requests

end Jeux
