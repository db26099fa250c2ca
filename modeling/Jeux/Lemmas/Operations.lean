import Jeux.Lemmas.SessionsValid

/-!
What the operations on invitations and games do, case by case, as changes of the store and packets
sent.
-/

namespace Jeux

open ServerM

variable {env : Env} {w : World} {extra : ClientPtr → Nat}

/-! ## Sending -/

@[simps]
def Trace.send (t : Trace) (env : Env) (receiver : ClientPtr) (hdr : PacketHeader)
    (data : Option CString) : Trace :=
  { t with sent := t.sent ++ [{ receiver, hdr, data, written := env.sendOk t.sent.length }] }

theorem clientSendPacket_run {client : ClientPtr} {c : Client} (hdr : PacketHeader)
    (data : Option CString) (hc : w.store.clients.get? client = some c)
    : (clientSendPacket client hdr data).run env w
        =
      .ok (protoSendPacket (env.sendOk w.trace.sent.length) hdr data,
        { w with trace := w.trace.send env client hdr data }) := by
  simp only [clientSendPacket, run_bind, run_derefClient, hc]
  rfl

@[simp]
theorem protoSendPacket_none (written : Bool) (hdr : PacketHeader) (hsize : hdr.size = 0)
    : protoSendPacket written hdr none = if written then 0 else -1 := by
  cases written <;> simp [protoSendPacket, hsize]

@[simp]
theorem protoSendPacket_some (written : Bool) (hdr : PacketHeader) (hsize : hdr.size ≠ 0)
    (text : CString) : protoSendPacket written hdr (some text) = if written then 0 else -1 := by
  cases written <;> simp [protoSendPacket, hsize]

def noticeOf (env : Env) (w : World) (type : PacketType) (receiver : ClientPtr)
    (inv : InvitationPtr) : PacketHeader :=
  createHeader (env.clock w.trace.sent.length) type (w.store.idOf receiver inv) .nullRole 0

@[simp]
theorem gameUnparseState_length (g : Game) : (gameUnparseState g).length = 40 := by
  simp [gameUnparseState, boardRow, boardFloor]

/-! ## Taking an invitation out of a list -/

theorem purgeId_run {client : ClientPtr} {c : Client} {id : Int}
    (hc : w.store.clients.get? client = some c) (hid : 0 ≤ id ∧ id < c.currentIdSize)
    : (purgeId client id).run env w
        =
      .ok ((), { w with store := w.store.modifyClient client (·.putId id) }) := by
  have hge : ¬ id ≥ c.currentIdSize := by omega
  have hneg : ¬ id < 0 := by omega
  simp only [purgeId, run_bind, run_derefClient, hc, hge, hneg, ↓reduceIte, run_modifyStore]

theorem modify_eraseNode_putId {clients : Heap Client} {client : ClientPtr} {c : Client}
    {inv : InvitationPtr} {node : InvitationNode} (hc : clients.get? client = some c)
    (hnode : c.nodeFor? inv = some node)
    : (clients.modify client (·.eraseNode inv)).modify client (·.putId node.id)
        = clients.modify client (·.unlink inv) := by
  rw [Heap.modify_modify]
  apply Heap.modify_congr hc
  simp [Client.unlink, hnode]

theorem clientRemoveInvitation_run_kept {client : ClientPtr} {c : Client} {inv : InvitationPtr}
    {i : Invitation} {node : InvitationNode} (hc : w.store.clients.get? client = some c)
    (hids : c.IdsOk) (hnode : c.nodeFor? inv = some node)
    (hi : w.store.invitations.get? inv = some i) (href : i.refCount ≠ 1)
    : (clientRemoveInvitation client inv).run env w
        =
      .ok (node.id, { w with store := w.store.unlink client inv }) := by
  have hrange := hids.range node.id (List.mem_map_of_mem (List.mem_of_find?_eq_some hnode))
  obtain ⟨w₁, hw₁⟩ : ∃ w₁ : World,
      { w with store := w.store.modifyClient client (·.eraseNode inv) } = w₁ := ⟨_, rfl⟩
  have hi₁ : w₁.store.invitations.get? inv = some i := by
    subst hw₁
    exact hi
  have hc₁ : w₁.store.clients.get? client = some (c.eraseNode inv) := by
    subst hw₁
    simp [hc]
  simp only [clientRemoveInvitation, run_bind, run_derefClient, hc, hnode, run_modifyStore, hw₁,
    invUnref_run hi₁ href]
  rw [purgeId_run (w := { w₁ with store := w₁.store.modifyInvitation inv Invitation.dropRef })
    (c := c.eraseNode inv) hc₁ hrange]
  subst hw₁
  have hclients := modify_eraseNode_putId hc hnode
  simp only [run_pure, Store.modifyClient, Store.modifyInvitation, Store.unlink, hclients]

theorem clientRemoveInvitation_run {client : ClientPtr} {c : Client} {inv : InvitationPtr}
    {i : Invitation} {node : InvitationNode} (hv : w.store.Valid extra)
    (hc : w.store.clients.get? client = some c) (hnode : c.nodeFor? inv = some node)
    (hi : w.store.invitations.get? inv = some i)
    (hkeep : i.refCount = 1 → ∀ x cx, i.source = x ∨ i.target = x →
      w.store.clients.get? x = some cx → cx.refCount ≠ 1)
    : (clientRemoveInvitation client inv).run env w
        =
      .ok (node.id, { w with store := w.store.drop client inv }) := by
  have hokc := hv.client client c hc
  have hoki := hv.invitation inv i hi
  have hid : node.id ∈ c.ids := by
    unfold Client.ids
    exact List.mem_map_of_mem (List.mem_of_find?_eq_some hnode)
  have hrange := hokc.ids.range node.id hid
  obtain ⟨w₁, hw₁⟩ : ∃ w₁ : World,
      { w with store := w.store.modifyClient client (·.eraseNode inv) } = w₁ := ⟨_, rfl⟩
  have hget : ∀ x cx, w.store.clients.get? x = some cx →
      ∃ cx', w₁.store.clients.get? x = some cx' ∧ cx'.refCount = cx.refCount
        ∧ cx'.currentIdSize = cx.currentIdSize := by
    intro x cx hcx
    subst hw₁
    refine ⟨_, Heap.get?_modify_eq_some.mpr ⟨cx, hcx, rfl⟩, ?_, ?_⟩
    . split <;> rfl
    . split <;> rfl
  have hi₁ : w₁.store.invitations.get? inv = some i := by
    subst hw₁
    exact hi
  have hgames : w₁.store.games = w.store.games := by rw [← hw₁]; rfl
  by_cases href : i.refCount = 1
  . simp only [clientRemoveInvitation, run_bind, run_derefClient, hc, hnode, run_modifyStore, hw₁]
    obtain ⟨cs, hcs, -⟩ := hoki.source
    obtain ⟨ct, hct, -⟩ := hoki.target
    obtain ⟨cs', hcs', hsref, -⟩ := hget _ cs hcs
    obtain ⟨ct', hct', htref, -⟩ := hget _ ct hct
    rw [invUnref_run_last (i := i) hi₁ href (fun game hown => hgames ▸ (hoki.game game hown).2)
      hoki.distinct hcs' (by rw [hsref]; exact hkeep href _ cs (.inl rfl) hcs) hct'
      (by rw [htref]; exact hkeep href _ ct (.inr rfl) hct)]
    dsimp only
    obtain ⟨c', hc', -, hsize⟩ := hget client c hc
    have hlast : ∃ c'', ((w₁.store.clients.modify i.source Client.dropRef).modify i.target
        Client.dropRef).get? client = some c'' ∧ c''.currentIdSize = c.currentIdSize := by
      refine ⟨_, Heap.get?_modify_eq_some.mpr
        ⟨_, Heap.get?_modify_eq_some.mpr ⟨c', hc', rfl⟩, rfl⟩, ?_⟩
      rw [← hsize]
      split <;> split <;> rfl
    obtain ⟨c'', hc'', hsize''⟩ := hlast
    rw [purgeId_run (c := c'') hc'' (by rw [hsize'']; exact hrange)]
    dsimp only
    rw [Store.drop, hi]
    dsimp only
    rw [if_pos href]
    subst hw₁
    have hclients : (((w.store.clients.modify client (·.eraseNode inv)).modify i.source
          Client.dropRef).modify i.target Client.dropRef).modify client (·.putId node.id)
        = ((w.store.clients.modify client (·.unlink inv)).modify i.source Client.dropRef).modify
          i.target Client.dropRef := by
      rw [Heap.modify_commute (p := i.target) (q := client) (by intro v; rfl),
        Heap.modify_commute (p := i.source) (q := client) (by intro v; rfl),
        ← modify_eraseNode_putId hc hnode]
    simp only [run_pure, Store.modifyClient, Store.modifyInvitation, Store.release, Store.unlink,
      hclients]
  . rw [Store.drop, hi]
    dsimp only
    rw [if_neg href]
    exact clientRemoveInvitation_run_kept hc hokc.ids hnode hi href

theorem clientRemoveInvitation_run_of_not_mem (env : Env) {client : ClientPtr} {c : Client}
    {inv : InvitationPtr} (hc : w.store.clients.get? client = some c) (hinv : inv ∉ c.invitations)
    : (clientRemoveInvitation client inv).run env w = .ok (-1, w) := by
  simp only [clientRemoveInvitation, run_bind, run_derefClient, hc,
    Client.nodeFor?_eq_none.mpr hinv, run_pure]

/--
An invitation in both lists leaves both, the client's first. Both clients are referred to from
elsewhere, so they outlive the invitation.
-/
theorem clientRemoveInvitation_both (env : Env) {client opponent : ClientPtr} {c co : Client}
    {inv : InvitationPtr} {i : Invitation} (hv : w.store.Valid extra)
    (hc : w.store.clients.get? client = some c) (hco : w.store.clients.get? opponent = some co)
    (hi : w.store.invitations.get? inv = some i)
    (hends : (i.source = client ∧ i.target = opponent) ∨ (i.source = opponent ∧ i.target = client))
    (hmem : inv ∈ c.invitations) (hmemo : inv ∈ co.invitations) (hkeep : c.refCount ≠ 1)
    (hkeepo : co.refCount ≠ 1)
    : ∃ id ido, id ≠ -1 ∧ ido ≠ -1
        ∧ (clientRemoveInvitation client inv).run env w
            = .ok (id, { w with store := w.store.drop client inv })
        ∧ (clientRemoveInvitation opponent inv).run env { w with store := w.store.drop client inv }
            = .ok (ido, { w with store := w.store.dissolve client opponent inv }) := by
  have hoki := hv.invitation inv i hi
  have hne : opponent ≠ client := by
    rintro rfl
    cases hends with
    | inl h => exact hoki.distinct (h.1.trans h.2.symm)
    | inr h => exact hoki.distinct (h.1.trans h.2.symm)
  have href : i.refCount = 2 := by
    have hone := hv.listed_eq_one hc hmem
    have honeo := hv.listed_eq_one hco hmemo
    rw [hoki.refCount]
    cases hends with
    | inl h => rw [h.1, h.2, hone, honeo]; rfl
    | inr h => rw [h.1, h.2, hone, honeo]; rfl
  obtain ⟨node, hnode⟩ := Client.exists_nodeFor? hmem
  obtain ⟨nodeo, hnodeo⟩ := Client.exists_nodeFor? hmemo
  have hdrop : w.store.drop client inv = w.store.unlink client inv := by
    simp only [Store.drop, hi, href]
    rfl
  have hv' := hv.drop hc hmem
  have hco' : (w.store.drop client inv).clients.get? opponent = some co := by
    rw [hdrop, Store.unlink_clients, Heap.get?_modify_ne hne, hco]
  have hi' : (w.store.drop client inv).invitations.get? inv = some i.dropRef := by
    rw [hdrop, Store.unlink_invitations, Heap.get?_modify_self, hi]
    rfl
  refine ⟨node.id, nodeo.id, ?_, ?_, ?_, ?_⟩
  . have := Client.IdsOk.node_id_nonneg (hv.client client c hc).ids hnode
    omega
  . have := Client.IdsOk.node_id_nonneg (hv.client opponent co hco).ids hnodeo
    omega
  . apply clientRemoveInvitation_run hv hc hnode hi
    intro hone
    omega
  . refine clientRemoveInvitation_run (w := { w with store := w.store.drop client inv }) hv' hco'
      hnodeo hi' ?_
    intro _ x cx hx hcx
    change (w.store.drop client inv).clients.get? x = some cx at hcx
    rw [hdrop] at hcx
    obtain ⟨cx', hcx', rfl⟩ := Heap.get?_modify_eq_some.mp hcx
    have hcount : cx'.refCount ≠ 1 := by
      have hx' : x = client ∨ x = opponent := by
        rw [Invitation.dropRef_source, Invitation.dropRef_target] at hx
        rcases hends with ⟨hs, ht⟩ | ⟨hs, ht⟩ <;> rcases hx with hx | hx <;> simp [← hx, hs, ht]
      cases hx' with
      | inl heq =>
        subst heq
        rw [hc, Option.some.injEq] at hcx'
        exact hcx' ▸ hkeep
      | inr heq =>
        subst heq
        rw [hco, Option.some.injEq] at hcx'
        exact hcx' ▸ hkeepo
    split
    . rw [Client.unlink_refCount]
      exact hcount
    . exact hcount

/--
An invitation leaves one list; asked to remove it from the same list again, the client has it no
more.
-/
theorem clientRemoveInvitation_twice (env : Env) {client : ClientPtr} {c : Client} {inv : InvitationPtr}
    {i : Invitation} (hv : w.store.Valid extra) (hc : w.store.clients.get? client = some c)
    (hi : w.store.invitations.get? inv = some i) (hmem : inv ∈ c.invitations)
    (hshared : i.refCount ≠ 1)
    : ∃ id, id ≠ -1
        ∧ (clientRemoveInvitation client inv).run env w
            = .ok (id, { w with store := w.store.drop client inv })
        ∧ (clientRemoveInvitation client inv).run env { w with store := w.store.drop client inv }
            = .ok (-1, { w with store := w.store.drop client inv }) := by
  have hokc := hv.client client c hc
  obtain ⟨node, hnode⟩ := Client.exists_nodeFor? hmem
  have hdrop : w.store.drop client inv = w.store.unlink client inv := by
    simp only [Store.drop, hi, hshared, ↓reduceIte]
  refine ⟨node.id, ?_, ?_, ?_⟩
  . have := hokc.ids.node_id_nonneg hnode
    omega
  . apply clientRemoveInvitation_run hv hc hnode hi
    intro hone
    exact absurd hone hshared
  . have hc' : (w.store.drop client inv).clients.get? client = some (c.unlink inv) := by
      simp [hdrop, hc]
    apply clientRemoveInvitation_run_of_not_mem env hc'
    rw [Client.unlink_invitations]
    exact hokc.nodup.not_mem_erase

/--
When the client goes away with its last invitation, `purge_id` is left with a dangling pointer.
-/
theorem clientRemoveInvitation_run_orphan (env : Env) {client opponent : ClientPtr} {c co : Client}
    {inv : InvitationPtr} {i : Invitation} (hv : w.store.Valid extra)
    (hi : w.store.invitations.get? inv = some i) (href : i.refCount = 1)
    (hends : (i.source = client ∧ i.target = opponent) ∨ (i.source = opponent ∧ i.target = client))
    (hc : w.store.clients.get? client = some c) (hmem : inv ∈ c.invitations) (hone : c.refCount = 1)
    (hco : w.store.clients.get? opponent = some co) (hkeep : co.refCount ≠ 1)
    : (clientRemoveInvitation client inv).run env w = .error .useAfterFree := by
  have hok := hv.invitation inv i hi
  have hor : i.source = client ∨ i.target = client := by
    rcases hends with h | h
    . exact .inl h.1
    . exact .inr h.2
  have hne : client ≠ opponent := by
    rintro rfl
    rcases hends with h | h <;> exact hok.distinct (h.1.trans h.2.symm)
  have hout : c.loggedIn = .loggedOut := by
    cases hstate : c.loggedIn with
    | loggedOut => rfl
    | loggedIn =>
      exact absurd hone (hv.refCount_ne_one hc hi hor ((hv.client client c hc).held hstate))
  obtain ⟨node, hnode⟩ := Client.exists_nodeFor? hmem
  obtain ⟨w₁, hw₁⟩ : ∃ w₁ : World,
      { w with store := w.store.modifyClient client (·.eraseNode inv) } = w₁ := ⟨_, rfl⟩
  have hi₁ : w₁.store.invitations.get? inv = some i := by
    rw [← hw₁]
    exact hi
  have hc₁ : w₁.store.clients.get? client = some (c.eraseNode inv) := by simp [← hw₁, hc]
  have hco₁ : w₁.store.clients.get? opponent = some co := by simp [← hw₁, hne.symm, hco]
  have hgames : w₁.store.games = w.store.games := by
    rw [← hw₁]
    rfl
  obtain ⟨w₂, hunref, hgone⟩ := invUnref_run_orphan env hi₁ href
    (fun game hown => hgames ▸ (hok.game game hown).2) hne hends hc₁ hone hout hco₁ hkeep
  simp only [clientRemoveInvitation, run_bind, run_derefClient, hc, hnode, run_modifyStore, hw₁,
    hunref, purgeId, hgone]

theorem clientRemoveInvitation_both_orphan (env : Env) {client opponent : ClientPtr}
    {c co : Client} {inv : InvitationPtr} {i : Invitation} (hv : w.store.Valid extra)
    (hc : w.store.clients.get? client = some c) (hco : w.store.clients.get? opponent = some co)
    (hi : w.store.invitations.get? inv = some i) (href : i.refCount = 2)
    (hends : (i.source = client ∧ i.target = opponent) ∨ (i.source = opponent ∧ i.target = client))
    (hmem : inv ∈ c.invitations) (hmemo : inv ∈ co.invitations) (hkeep : c.refCount ≠ 1)
    (hone : co.refCount = 1)
    : ∃ id, id ≠ -1
        ∧ (clientRemoveInvitation client inv).run env w
            = .ok (id, { w with store := w.store.drop client inv })
        ∧ (clientRemoveInvitation opponent inv).run env { w with store := w.store.drop client inv }
            = .error .useAfterFree := by
  have hok := hv.invitation inv i hi
  have hne : opponent ≠ client := by
    rintro rfl
    rcases hends with h | h <;> exact hok.distinct (h.1.trans h.2.symm)
  obtain ⟨id, hid, hrun, -⟩ := clientRemoveInvitation_twice env hv hc hi hmem (by omega)
  have hdrop : w.store.drop client inv = w.store.unlink client inv := by
    simp only [Store.drop, hi, href]
    rfl
  have hi' : (w.store.drop client inv).invitations.get? inv = some i.dropRef := by
    simp [hdrop, hi]
  have hc' : (w.store.drop client inv).clients.get? client = some (c.unlink inv) := by
    simp [hdrop, hc]
  have hco' : (w.store.drop client inv).clients.get? opponent = some co := by
    simp [hdrop, hne, hco]
  refine ⟨id, hid, hrun, ?_⟩
  exact clientRemoveInvitation_run_orphan env (w := { w with store := w.store.drop client inv })
    (hv.drop hc hmem) hi' (by simp [href]) (hends.symm) hco' hmemo hone hc' (by simpa using hkeep)

def removeBoth (client opponent : ClientPtr) (inv : InvitationPtr) : ServerM Int := do
  if (← clientRemoveInvitation client inv) = -1 then
    return -1
  else if (← clientRemoveInvitation opponent inv) = -1 then
    return -1
  else
    return 0

theorem removeBoth_run {client opponent : ClientPtr} {c co : Client}
    {inv : InvitationPtr} {i : Invitation} (hv : w.store.Valid extra)
    (hc : w.store.clients.get? client = some c) (hco : w.store.clients.get? opponent = some co)
    (hi : w.store.invitations.get? inv = some i)
    (hends : (i.source = client ∧ i.target = opponent) ∨ (i.source = opponent ∧ i.target = client))
    (hmem : inv ∈ c.invitations) (hmemo : inv ∈ co.invitations) (hkeep : c.refCount ≠ 1)
    (hkeepo : co.refCount ≠ 1)
    : (removeBoth client opponent inv).run env w
        =
      .ok (0, { w with store := w.store.dissolve client opponent inv }) := by
  obtain ⟨id, ido, hid, hido, hrun, hruno⟩ :=
    clientRemoveInvitation_both env hv hc hco hi hends hmem hmemo hkeep hkeepo
  simp only [removeBoth, run_bind, hrun, hruno, hid, hido, ↓reduceIte, run_pure]

theorem removeBoth_run_self {client : ClientPtr} {c : Client} {inv : InvitationPtr}
    {i : Invitation} (hv : w.store.Valid extra) (hc : w.store.clients.get? client = some c)
    (hi : w.store.invitations.get? inv = some i) (hmem : inv ∈ c.invitations)
    (hshared : i.refCount ≠ 1)
    : (removeBoth client client inv).run env w
        =
      .ok (-1, { w with store := w.store.drop client inv }) := by
  obtain ⟨id, hid, hrun, hagain⟩ := clientRemoveInvitation_twice env hv hc hi hmem hshared
  simp only [removeBoth, run_bind, hrun, hagain, hid, ↓reduceIte, run_pure]

theorem removeBoth_run_orphan {client opponent : ClientPtr} {c co : Client}
    {inv : InvitationPtr} {i : Invitation} (hv : w.store.Valid extra)
    (hc : w.store.clients.get? client = some c) (hco : w.store.clients.get? opponent = some co)
    (hi : w.store.invitations.get? inv = some i) (href : i.refCount = 2)
    (hends : (i.source = client ∧ i.target = opponent) ∨ (i.source = opponent ∧ i.target = client))
    (hmem : inv ∈ c.invitations) (hmemo : inv ∈ co.invitations) (hkeep : c.refCount ≠ 1)
    (hone : co.refCount = 1)
    : (removeBoth client opponent inv).run env w = .error .useAfterFree := by
  obtain ⟨id, hid, hrun, horphan⟩ :=
    clientRemoveInvitation_both_orphan env hv hc hco hi href hends hmem hmemo hkeep hone
  simp only [removeBoth, run_bind, hrun, hid, ↓reduceIte, horphan]

/-! ## Reading -/

theorem clientGetInvitation_run {client : ClientPtr} {c : Client} (id : Int)
    (hc : w.store.clients.get? client = some c)
    : (clientGetInvitation client id).run env w
        =
      .ok (w.store.invitationOf client id, w) := by
  simp only [clientGetInvitation, Store.invitationOf, run_bind, run_derefClient, hc, run_pure,
    Option.bind_some]

theorem clientGetInvitationId_run {client : ClientPtr} {c : Client} (inv : InvitationPtr)
    (hc : w.store.clients.get? client = some c)
    : (clientGetInvitationId client inv).run env w = .ok (w.store.idOf client inv, w) := by
  simp only [clientGetInvitationId, Store.idOf, run_bind, run_derefClient, hc, Option.bind_some]
  cases c.nodeFor? inv <;> rfl

theorem invGetSource_run {inv : InvitationPtr} {i : Invitation}
    (hi : w.store.invitations.get? inv = some i)
    : (invGetSource (some inv)).run env w = .ok (some i.source, w) := by
  simp only [invGetSource, run_bind, run_derefInvitation, hi, run_pure]

theorem invGetTarget_run {inv : InvitationPtr} {i : Invitation}
    (hi : w.store.invitations.get? inv = some i)
    : (invGetTarget (some inv)).run env w = .ok (some i.target, w) := by
  simp only [invGetTarget, run_bind, run_derefInvitation, hi, run_pure]

theorem invGetGame_run {inv : InvitationPtr} {i : Invitation}
    (hi : w.store.invitations.get? inv = some i)
    : (invGetGame (some inv)).run env w = .ok (i.game, w) := by
  simp only [invGetGame, run_bind, run_derefInvitation, hi, run_pure]

/-! ## Closing -/

theorem invClose_run_open {inv : InvitationPtr} {i : Invitation}
    (hi : w.store.invitations.get? inv = some i) (hopen : i.state = .openState)
    (hgame : i.game = none)
    : (invClose (some inv) .nullRole).run env w = .ok (0, { w with store := w.store.close inv }) := by
  simp only [invClose, run_bind, run_derefInvitation, hi, hopen, hgame]
  rfl

theorem invClose_run_not_open {inv : InvitationPtr} {i : Invitation}
    (hi : w.store.invitations.get? inv = some i) (hopen : i.state ≠ .openState)
    : (invClose (some inv) .nullRole).run env w = .ok (-1, w) := by
  simp only [invClose, run_bind, run_derefInvitation, hi]
  cases hstate : i.state with
  | openState => exact absurd hstate hopen
  | acceptedState =>
    dsimp only
    cases i.game <;> rfl
  | closedState => rfl

theorem invClose_run_resign {inv : InvitationPtr} {i : Invitation} {game : GamePtr} {g : Game}
    {role : GameRole} (hi : w.store.invitations.get? inv = some i)
    (hstate : i.state = .acceptedState) (hgame : i.game = some game)
    (hg : w.store.games.get? game = some g) (hrole : role ≠ .nullRole)
    : (invClose (some inv) role).run env w
        =
      .ok (0, { w with store := w.store.resign inv game role }) := by
  simp only [invClose, run_bind, run_derefInvitation, hi, hstate, hgame, hrole, ↓reduceIte,
    run_derefGame, hg, run_modifyStore, run_pure, Store.resign, Store.modifyGame]
  rw [Heap.modify_congr (g := fun g => (gameResign g role).2) hg rfl]
  rfl

theorem invClose_run_refused {inv : InvitationPtr} {i : Invitation} {role : GameRole}
    (hi : w.store.invitations.get? inv = some i) (hrole : role ≠ .nullRole)
    (hno : i.state ≠ .acceptedState ∨ i.game = none)
    : (invClose (some inv) role).run env w = .ok (-1, w) := by
  simp only [invClose, run_bind, run_derefInvitation, hi]
  cases hstate : i.state with
  | openState =>
    dsimp only
    rw [if_pos hrole]
    rfl
  | acceptedState =>
    cases hno with
    | inl hne => exact absurd hstate hne
    | inr hnone => simp only [hnone, run_pure]
  | closedState => rfl

end Jeux
