import Jeux.Lemmas.Numbers

/-!
The news of an invitation: the packets by which its participants learn that it has been answered,
and what becomes of the game. Here is what an operation has to find before it sends one.
-/

namespace Jeux

/--
ACCEPTED, DECLINED, MOVED, RESIGNED and ENDED.
-/
def IsNews (type : Byte) : Prop :=
  type = PacketType.accepted.toByte ∨ type = PacketType.declined.toByte
    ∨ type = PacketType.moved.toByte ∨ type = PacketType.resigned.toByte
    ∨ type = PacketType.ended.toByte

instance (type : Byte) : Decidable (IsNews type) := inferInstanceAs (Decidable (_ ∨ _))

namespace Store

variable {s s' s'' : Store} {extra : ClientPtr → Nat} {client opponent : ClientPtr}
  {inv : InvitationPtr} {i : Invitation}

/--
The invitations of `s` that are left in `s'` have the participants they had. None of them has a game
that had none, unless `fresh` is about it.
-/
structure KeepsEnds (s s' : Store) (fresh : InvitationPtr → Prop) : Prop where
  next : s.invitations.next ≤ s'.invitations.next
  ends : ∀ u i', u < s.invitations.next → s'.invitations.get? u = some i' → ∃ i,
    s.invitations.get? u = some i ∧ i'.source = i.source ∧ i'.target = i.target
      ∧ (i'.game ≠ none → i.game ≠ none ∨ fresh u)

variable {fresh : InvitationPtr → Prop}

theorem KeepsEnds.of_eq (h : s'.invitations = s.invitations) : s.KeepsEnds s' fresh where
  next := by rw [h]
  ends := fun u i' _ hi' => ⟨i', h ▸ hi', rfl, rfl, .inl⟩

theorem KeepsEnds.mono {fresh' : InvitationPtr → Prop} (h : s.KeepsEnds s' fresh)
    (hfresh : ∀ u, fresh u → fresh' u) : s.KeepsEnds s' fresh' where
  next := h.next
  ends := by
    intro u i' hlt hi'
    obtain ⟨i, hi, hsource, htarget, hgame⟩ := h.ends u i' hlt hi'
    exact ⟨i, hi, hsource, htarget, fun hne => (hgame hne).imp_right (hfresh u)⟩

theorem KeepsEnds.trans (h : s.KeepsEnds s' fresh) (h' : s'.KeepsEnds s'' fresh)
    : s.KeepsEnds s'' fresh where
  next := Nat.le_trans h.next h'.next
  ends := by
    intro u i'' hlt hi''
    obtain ⟨i', hi', hsource', htarget', hgame'⟩ :=
      h'.ends u i'' (Nat.lt_of_lt_of_le hlt h.next) hi''
    obtain ⟨i, hi, hsource, htarget, hgame⟩ := h.ends u i' hlt hi'
    refine ⟨i, hi, hsource'.trans hsource, htarget'.trans htarget, fun hne => ?_⟩
    rcases hgame' hne with hne' | hfresh
    . exact hgame hne'
    . exact .inr hfresh

theorem KeepsEnds.of_modify {f : Invitation → Invitation}
    (h : s'.invitations = s.invitations.modify inv f)
    (hf : ∀ i, (f i).source = i.source ∧ (f i).target = i.target)
    (hgame : ∀ i, (f i).game ≠ none → i.game ≠ none ∨ fresh inv) : s.KeepsEnds s' fresh where
  next := by simp [h]
  ends := by
    intro u i' _ hi'
    rw [h] at hi'
    obtain ⟨i, hi, rfl⟩ := Heap.get?_modify_eq_some.mp hi'
    refine ⟨i, hi, ?_⟩
    split
    . next heq =>
      subst heq
      exact ⟨(hf i).1, (hf i).2, hgame i⟩
    . exact ⟨rfl, rfl, .inl⟩

theorem keepsEnds_free (inv : InvitationPtr)
    (hfree : s'.invitations = s.invitations.free inv) : s.KeepsEnds s' fresh where
  next := by simp [hfree]
  ends := by
    intro u i' _ hi'
    rw [hfree, Heap.get?_free] at hi'
    split at hi'
    . simp at hi'
    . exact ⟨i', hi', rfl, rfl, .inl⟩

theorem keepsEnds_drop (s : Store) (client : ClientPtr) (inv : InvitationPtr)
    : s.KeepsEnds (s.drop client inv) fresh := by
  have hunlink : s.KeepsEnds (s.unlink client inv) fresh :=
    .of_modify (s.unlink_invitations client inv) (fun _ => ⟨rfl, rfl⟩) fun _ => .inl
  unfold Store.drop
  split
  . split
    . exact hunlink.trans (keepsEnds_free inv rfl)
    . exact hunlink
  . exact .of_eq rfl

theorem keepsEnds_dissolve (s : Store) (client opponent : ClientPtr) (inv : InvitationPtr)
    : s.KeepsEnds (s.dissolve client opponent inv) fresh :=
  (keepsEnds_drop s client inv).trans (keepsEnds_drop _ opponent inv)

theorem keepsEnds_close (s : Store) (inv : InvitationPtr) : s.KeepsEnds (s.close inv) fresh :=
  .of_modify rfl (fun _ => ⟨rfl, rfl⟩) fun _ => .inl

theorem keepsEnds_post (s : Store) (expected : Int → Rat) (result : PostedResult)
    : s.KeepsEnds (s.post expected result) fresh := .of_eq (post_invitations expected result)

theorem keepsEnds_resign (s : Store) (inv : InvitationPtr) (game : GamePtr) (role : GameRole)
    : s.KeepsEnds (s.resign inv game role) fresh :=
  .of_modify rfl (fun _ => ⟨rfl, rfl⟩) fun _ => .inl

theorem keepsEnds_invite (s : Store) (source target : ClientPtr) (sourceRole targetRole : GameRole)
    : s.KeepsEnds (s.invite source target sourceRole targetRole) fresh where
  next := by simp [invite]
  ends := by
    intro u i' hlt hi'
    rw [(sameAt_invite s source target sourceRole targetRole (Nat.ne_of_lt hlt)).invitation] at hi'
    exact ⟨i', hi', rfl, rfl, .inl⟩

theorem Linked.node (hl : s.Linked) (hv : s.Valid extra) (hi : s.invitations.get? inv = some i)
    (hstate : i.state ≠ .closedState ∨ i.game ≠ none) (hor : i.source = client ∨ i.target = client)
    : ∃ node ∈ s.nodesOf client inv, s.idOf client inv = node.id := by
  obtain ⟨c, hc, hmem, -⟩ := hl.participant hv hi hstate hor
  obtain ⟨node, hnode, heq⟩ := List.mem_map.mp hmem
  have hnode' : node ∈ s.nodesOf client inv := mem_nodesOf.mpr ⟨c, hc, hnode, heq⟩
  exact ⟨node, hnode', (hv.numberFor_node hnode').2⟩

end Store

variable {env : Env} {w w' : World} {extra : ClientPtr → Nat} {client : ClientPtr} {op : Operation}
  {r : Int} {sent : SentPacket}

def Operation.IsAnswer : Operation → Prop
  | .accept _ | .decline _ => True
  | _ => False

theorem Effect.keepsEnds (h : Effect env w client op r w')
    : w.store.KeepsEnds w'.store fun u => ∃ id i, op = .accept id ∧ w.store.Open client id u i := by
  cases h with
  | refused => exact .of_eq rfl
  | made => exact Store.keepsEnds_invite ..
  | revokeUnsent => exact Store.keepsEnds_close ..
  | revoked => exact (Store.keepsEnds_close ..).trans (Store.keepsEnds_dissolve ..)
  | revokedByTarget => exact (Store.keepsEnds_close ..).trans (Store.keepsEnds_drop ..)
  | declined => exact (Store.keepsEnds_close ..).trans (Store.keepsEnds_dissolve ..)
  | declinedBySource => exact (Store.keepsEnds_close ..).trans (Store.keepsEnds_drop ..)
  | acceptNoRoom => exact .of_modify rfl (fun _ => ⟨rfl, rfl⟩) fun _ hne => absurd rfl hne
  | accepted hopen =>
    exact .of_modify rfl (fun _ => ⟨rfl, rfl⟩) fun _ _ => .inr ⟨_, _, rfl, hopen⟩
  | resignUnsent => exact Store.keepsEnds_resign ..
  | resigned =>
    exact ((Store.keepsEnds_resign ..).trans (Store.keepsEnds_post ..)).trans
      (Store.keepsEnds_dissolve ..)
  | moveUnsent => exact .of_eq rfl
  | moved => exact .of_eq rfl
  | endUnsent => exact .of_eq rfl
  | endUnsentSelf => exact .of_eq rfl
  | @finished id text inv i game g move c co player playero =>
    have hplay (fresh) : w.store.KeepsEnds (w.store.play game move) fresh := .of_eq rfl
    exact ((hplay _).trans (Store.keepsEnds_post ..)).trans (Store.keepsEnds_dissolve ..)

theorem Store.drop_invitations_next (s : Store) (client : ClientPtr) (inv : InvitationPtr)
    : (s.drop client inv).invitations.next = s.invitations.next := by
  unfold Store.drop
  split
  . split
    . simp [Store.release]
    . simp
  . rfl

theorem Effect.invitations_next (h : Effect env w client op r w')
    (hop : ∀ target sourceRole targetRole, op ≠ .make target sourceRole targetRole)
    : w'.store.invitations.next = w.store.invitations.next := by
  cases h with
  | made => exact absurd rfl (hop _ _ _)
  | _ =>
    simp [Store.drop_invitations_next, Store.dissolve, Store.accept, World.conclude, World.moved,
      World.ended, endedOnce, endedTwice, Store.post_invitations]

theorem LogoutRun.invitations_next {nodes : List InvitationNode}
    (h : LogoutRun env client w nodes w')
    : w'.store.invitations.next = w.store.invitations.next := by
  induction h with
  | nil => rfl
  | cons _ _ _ heffect _ ih => rw [ih, heffect.invitations_next (logoutOp_ne_make _ _ _)]

theorem logoutOp_ne_accept (client : ClientPtr) (i : Invitation) (id id' : Int)
    : logoutOp client i id ≠ .accept id' := by
  unfold logoutOp
  split
  . simp
  . split <;> simp

theorem LogoutRun.keepsEnds {nodes : List InvitationNode} (h : LogoutRun env client w nodes w')
    : w.store.KeepsEnds w'.store fun _ => False := by
  induction h with
  | nil => exact .of_eq rfl
  | cons _ _ _ heffect _ ih =>
    apply Store.KeepsEnds.trans _ ih
    apply heffect.keepsEnds.mono
    rintro u ⟨id, i, heq, -⟩
    exact logoutOp_ne_accept _ _ _ _ heq

/--
News reaches a client that has the invitation in its list and is called by the id it has there. It
is an answer to an open invitation, or the invitation has been answered already.
-/
theorem Effect.news (h : Effect env w client op r w') (hv : w.store.Valid extra)
    (hl : w.store.Linked) (hsent : sent ∈ w.sentSince w') (hnews : IsNews sent.hdr.type)
    : ∃ inv i node, op.subject? w.store client = some inv
        ∧ w.store.invitations.get? inv = some i
        ∧ node ∈ w.store.nodesOf sent.receiver inv ∧ sent.hdr.id = UInt8.ofInt node.id
        ∧ ((op.IsAnswer ∧ i.state = .openState) ∨ i.game ≠ none) := by
  unfold World.sentSince at hsent
  -- what is left to show once the packet and its receiver are known
  have hfound : ∀ {inv i}, op.subject? w.store client = some inv →
      w.store.invitations.get? inv = some i → i.state ≠ .closedState ∨ i.game ≠ none →
      i.source = sent.receiver ∨ i.target = sent.receiver →
      sent.hdr.id = UInt8.ofInt (w.store.idOf sent.receiver inv) →
      (op.IsAnswer ∧ i.state = .openState) ∨ i.game ≠ none →
      ∃ inv i node, op.subject? w.store client = some inv ∧ w.store.invitations.get? inv = some i
        ∧ node ∈ w.store.nodesOf sent.receiver inv ∧ sent.hdr.id = UInt8.ofInt node.id
        ∧ ((op.IsAnswer ∧ i.state = .openState) ∨ i.game ≠ none) := by
    intro inv i hnamed hi hstate hor hid hanswer
    obtain ⟨node, hnode, heq⟩ := hl.node hv hi hstate hor
    exact ⟨inv, i, node, hnamed, hi, hnode, heq ▸ hid, hanswer⟩
  have hopponent : ∀ {id inv i}, w.store.invitationOf client id = some inv →
      w.store.invitations.get? inv = some i → i.source = client ∨ i.target = client := by
    intro id inv i hnamed hi
    obtain ⟨-, i', -, -, hi', hor⟩ := hv.invitationOf hnamed
    rw [Option.some.inj (hi.symm.trans hi')]
    exact hor
  cases h with
  | refused | acceptNoRoom => simp at hsent
  | made =>
    simp only [Trace.send, List.drop_left, List.mem_singleton] at hsent
    subst hsent
    exact absurd (show IsNews PacketType.invited.toByte from hnews) (by decide)
  | revokeUnsent | revoked | revokedByTarget =>
    simp only [Trace.send, List.drop_left, List.mem_singleton] at hsent
    subst hsent
    exact absurd (show IsNews PacketType.revoked.toByte from hnews) (by decide)
  | declined hopen | accepted hopen =>
    simp only [Trace.send, List.drop_left, List.mem_singleton] at hsent
    subst hsent
    exact hfound hopen.named hopen.invitation (.inl (by simp [hopen.state])) (.inl rfl) rfl
      (.inl ⟨trivial, hopen.state⟩)
  | declinedBySource hopen hsource =>
    simp only [Trace.send, List.drop_left, List.mem_singleton] at hsent
    subst hsent
    exact hfound hopen.named hopen.invitation (.inl (by simp [hopen.state])) (.inl hsource) rfl
      (.inl ⟨trivial, hopen.state⟩)
  | resignUnsent hplay | resigned hplay =>
    simp only [World.conclude, Trace.send, List.drop_left, List.mem_singleton] at hsent
    subst hsent
    have hgame := hplay.owned ▸ Option.some_ne_none _
    exact hfound hplay.named hplay.invitation (.inr hgame)
      (opponentOf_or (hopponent hplay.named hplay.invitation)) rfl (.inr hgame)
  | moveUnsent hmove | moved hmove =>
    simp only [World.moved, Trace.send, List.drop_left, List.mem_singleton] at hsent
    subst hsent
    have hgame := hmove.owned ▸ Option.some_ne_none _
    exact hfound hmove.named hmove.invitation (.inr hgame)
      (opponentOf_or (hopponent hmove.named hmove.invitation)) rfl (.inr hgame)
  | endUnsent hmove =>
    simp only [endedOnce, World.ended, World.moved, Trace.send, List.append_assoc, List.drop_left,
      List.mem_append, List.mem_singleton] at hsent
    have hgame := hmove.owned ▸ Option.some_ne_none _
    have hor := opponentOf_or (hopponent hmove.named hmove.invitation)
    rcases hsent with rfl | rfl
    . exact hfound hmove.named hmove.invitation (.inr hgame) hor rfl (.inr hgame)
    . exact hfound hmove.named hmove.invitation (.inr hgame) hor rfl (.inr hgame)
  | endUnsentSelf hmove | finished hmove =>
    -- the copy for the client itself carries the id of the request
    have hself := hv.node_of_invitationOf hmove.named
    simp only [World.conclude, endedTwice, endedOnce, World.ended, World.moved, Trace.send,
      List.append_assoc, List.drop_left, List.mem_append, List.mem_singleton] at hsent
    have hgame := hmove.owned ▸ Option.some_ne_none _
    have hor := hopponent hmove.named hmove.invitation
    rcases hsent with rfl | rfl | rfl
    . exact hfound hmove.named hmove.invitation (.inr hgame) (opponentOf_or hor) rfl (.inr hgame)
    . exact hfound hmove.named hmove.invitation (.inr hgame) (opponentOf_or hor) rfl (.inr hgame)
    . exact hfound hmove.named hmove.invitation (.inr hgame) hor (by rw [hself]) (.inr hgame)

/-! ## What has been sent stays sent -/

theorem Effect.sent_prefix (h : Effect env w client op r w')
    : w.trace.sent <+: w'.trace.sent := by
  cases h with
  | refused | acceptNoRoom => exact List.prefix_rfl
  | _ =>
    simp [World.conclude, endedTwice, endedOnce, World.ended, World.moved, Trace.send,
      List.append_assoc]

theorem LogoutRun.sent_prefix {nodes : List InvitationNode} (h : LogoutRun env client w nodes w')
    : w.trace.sent <+: w'.trace.sent := by
  induction h with
  | nil => exact List.prefix_rfl
  | cons _ _ _ heffect _ ih => exact heffect.sent_prefix.trans ih

theorem World.append_sentSince (h : w.trace.sent <+: w'.trace.sent)
    : w.trace.sent ++ w.sentSince w' = w'.trace.sent := by
  obtain ⟨sent, h⟩ := h
  rw [World.sentSince, ← h, List.drop_left]

end Jeux
