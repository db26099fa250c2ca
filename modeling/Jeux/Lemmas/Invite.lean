import Jeux.Lemmas.Operations

/-!
Making, revoking, declining and accepting invitations.
-/

namespace Jeux

open ServerM

variable {env : Env} {w : World} {extra : ClientPtr → Nat} {client : ClientPtr} {c : Client}
  {id : Int} {inv : InvitationPtr} {i : Invitation}

/-! ## `client_revoke_invitation` -/

theorem clientRevokeInvitation_run_refused (hv : w.store.Valid extra)
    (hc : w.store.clients.get? client = some c)
    (hno : ∀ inv i, w.store.invitationOf client id = some inv →
      w.store.invitations.get? inv = some i → i.state ≠ .openState)
    : (clientRevokeInvitation client id).run env w = .ok (-1, w) := by
  simp only [clientRevokeInvitation, run_bind, clientGetInvitation_run id hc]
  cases hid : w.store.invitationOf client id with
  | none => rfl
  | some inv =>
    obtain ⟨-, i, -, -, hi, -⟩ := hv.invitationOf hid
    simp only [invClose_run_not_open hi (hno inv i hid hi), ↓reduceIte, run_pure]

theorem clientRevokeInvitation_run_open (hv : w.store.Valid extra)
    (hid : w.store.invitationOf client id = some inv)
    (hi : w.store.invitations.get? inv = some i) (hopen : i.state = .openState)
    : (clientRevokeInvitation client id).run env w
        =
      (if env.sendOk w.trace.sent.length then removeBoth client i.target inv else pure (-1)).run env
        { store := w.store.close inv
          trace := w.trace.send env i.target (noticeOf env w .revoked i.target inv) none } := by
  obtain ⟨c, -, hc, -⟩ := hv.invitationOf hid
  have hgame : i.game = none := (hv.invitation inv i hi).game_eq_none hopen
  obtain ⟨ct, hct, -⟩ := (hv.invitation inv i hi).target
  have hi' : (w.store.close inv).invitations.get? inv = some { i with state := .closedState } := by
    simp [hi]
  simp only [clientRevokeInvitation, run_bind, clientGetInvitation_run id hc, hid,
    invClose_run_open hi hopen hgame, run_ite]
  rw [if_neg (by decide)]
  simp only [invGetTarget_run (w := { w with store := w.store.close inv }) hi', run_nonNull_some,
    clientGetInvitationId_run (w := { w with store := w.store.close inv }) inv hct, run_newHeader,
    clientSendPacket_run (w := { w with store := w.store.close inv }) _ none hct]
  have hidOf : (w.store.close inv).idOf i.target inv = w.store.idOf i.target inv := rfl
  rw [hidOf]
  change (if protoSendPacket _ (noticeOf env w .revoked i.target inv) none = -1 then _ else _) = _
  rw [protoSendPacket_none _ _ rfl]
  cases env.sendOk w.trace.sent.length with
  | false => rfl
  | true =>
    simp only [removeBoth, run_bind, run_ite, ↓reduceIte]
    rfl

theorem clientRevokeInvitation_run {ct : Client} (hv : w.store.Valid extra) (hl : w.store.Linked)
    (hheld : 0 < w.store.registered client + extra client)
    (hid : w.store.invitationOf client id = some inv)
    (hi : w.store.invitations.get? inv = some i) (hopen : i.state = .openState)
    (hsource : i.source = client) (hct : w.store.clients.get? i.target = some ct)
    (hsend : env.sendOk w.trace.sent.length = true)
    : (clientRevokeInvitation client id).run env w
        =
      if ct.refCount = 1 then .error .useAfterFree
      else .ok (0, {
        store := (w.store.close inv).dissolve client i.target inv
        trace := w.trace.send env i.target (noticeOf env w .revoked i.target inv) none }) := by
  have hstate : i.state ≠ .closedState ∨ i.game ≠ none := .inl (by simp [hopen])
  obtain ⟨c, hc, hmem, -⟩ := hl.participant hv hi hstate (.inl hsource)
  obtain ⟨ct', hct', hmemt, -⟩ := hl.participant hv hi hstate (.inr rfl)
  obtain rfl := Option.some.inj (hct.symm.trans hct')
  have href := hl.refCount_eq_two hv hi hstate
  have hkeep := hv.refCount_ne_one hc hi (.inl hsource) hheld
  have hi' : (w.store.close inv).invitations.get? inv = some { i with state := .closedState } := by
    simp [hi]
  rw [clientRevokeInvitation_run_open hv hid hi hopen, if_pos hsend]
  split
  . next hone =>
    exact removeBoth_run_orphan (hv.close inv) hc hct hi' href (.inl ⟨hsource, rfl⟩) hmem hmemt hkeep
      hone
  . next hkeept =>
    exact removeBoth_run (hv.close inv) hc hct hi' (.inl ⟨hsource, rfl⟩) hmem hmemt hkeep hkeept

/--
Revoked by its target, an open invitation is closed, but leaves the list of the target only.
-/
theorem clientRevokeInvitation_run_target (hv : w.store.Valid extra) (hl : w.store.Linked)
    (hid : w.store.invitationOf client id = some inv)
    (hi : w.store.invitations.get? inv = some i) (hopen : i.state = .openState)
    (htarget : i.target = client) (hsend : env.sendOk w.trace.sent.length = true)
    : (clientRevokeInvitation client id).run env w
        =
      .ok (-1, {
        store := (w.store.close inv).drop client inv
        trace := w.trace.send env client (noticeOf env w .revoked client inv) none }) := by
  have hstate : i.state ≠ .closedState ∨ i.game ≠ none := .inl (by simp [hopen])
  obtain ⟨c, hc, hmem, -⟩ := hl.participant hv hi hstate (.inr htarget)
  have hi' : (w.store.close inv).invitations.get? inv = some { i with state := .closedState } := by
    simp [hi]
  have href := hl.refCount_eq_two hv hi hstate
  rw [clientRevokeInvitation_run_open hv hid hi hopen, if_pos hsend, htarget]
  exact removeBoth_run_self (hv.close inv) hc hi' hmem (by simp [href])

theorem clientRevokeInvitation_run_unsent (hv : w.store.Valid extra)
    (hid : w.store.invitationOf client id = some inv)
    (hi : w.store.invitations.get? inv = some i) (hopen : i.state = .openState)
    (hsend : env.sendOk w.trace.sent.length = false)
    : (clientRevokeInvitation client id).run env w
        =
      .ok (-1, {
        store := w.store.close inv
        trace := w.trace.send env i.target (noticeOf env w .revoked i.target inv) none }) := by
  rw [clientRevokeInvitation_run_open hv hid hi hopen, hsend]
  rfl

/-! ## `client_decline_invitation` -/

theorem clientDeclineInvitation_run_refused (hv : w.store.Valid extra)
    (hc : w.store.clients.get? client = some c)
    (hno : ∀ inv i, w.store.invitationOf client id = some inv →
      w.store.invitations.get? inv = some i → i.state ≠ .openState)
    : (clientDeclineInvitation client id).run env w = .ok (-1, w) := by
  simp only [clientDeclineInvitation, run_bind, clientGetInvitation_run id hc]
  cases hid : w.store.invitationOf client id with
  | none => rfl
  | some inv =>
    obtain ⟨-, i, -, -, hi, -⟩ := hv.invitationOf hid
    simp only [invClose_run_not_open hi (hno inv i hid hi), ↓reduceIte, run_pure]

theorem clientDeclineInvitation_run_open (hv : w.store.Valid extra)
    (hid : w.store.invitationOf client id = some inv)
    (hi : w.store.invitations.get? inv = some i) (hopen : i.state = .openState)
    : (clientDeclineInvitation client id).run env w
        =
      (do
        let _ ← clientRemoveInvitation client inv
        let _ ← clientRemoveInvitation i.source inv
        return (0 : Int) : ServerM Int).run env
        { store := w.store.close inv
          trace := w.trace.send env i.source (noticeOf env w .declined i.source inv) none } := by
  obtain ⟨c, -, hc, -⟩ := hv.invitationOf hid
  have hgame : i.game = none := (hv.invitation inv i hi).game_eq_none hopen
  obtain ⟨cs, hcs, -⟩ := (hv.invitation inv i hi).source
  have hi' : (w.store.close inv).invitations.get? inv = some { i with state := .closedState } := by
    simp [hi]
  simp only [clientDeclineInvitation, run_bind, clientGetInvitation_run id hc, hid,
    invClose_run_open hi hopen hgame, run_ite]
  rw [if_neg (by decide)]
  simp only [invGetSource_run (w := { w with store := w.store.close inv }) hi', run_nonNull_some,
    clientGetInvitationId_run (w := { w with store := w.store.close inv }) inv hcs, run_newHeader,
    clientSendPacket_run (w := { w with store := w.store.close inv }) _ none hcs]
  rfl

theorem clientDeclineInvitation_run {cs : Client} (hv : w.store.Valid extra) (hl : w.store.Linked)
    (hheld : 0 < w.store.registered client + extra client)
    (hid : w.store.invitationOf client id = some inv)
    (hi : w.store.invitations.get? inv = some i) (hopen : i.state = .openState)
    (htarget : i.target = client) (hcs : w.store.clients.get? i.source = some cs)
    : (clientDeclineInvitation client id).run env w
        =
      if cs.refCount = 1 then .error .useAfterFree
      else .ok (0, {
        store := (w.store.close inv).dissolve client i.source inv
        trace := w.trace.send env i.source (noticeOf env w .declined i.source inv) none }) := by
  have hstate : i.state ≠ .closedState ∨ i.game ≠ none := .inl (by simp [hopen])
  obtain ⟨c, hc, hmem, -⟩ := hl.participant hv hi hstate (.inr htarget)
  obtain ⟨cs', hcs', hmems, -⟩ := hl.participant hv hi hstate (.inl rfl)
  obtain rfl := Option.some.inj (hcs.symm.trans hcs')
  have href := hl.refCount_eq_two hv hi hstate
  have hkeep := hv.refCount_ne_one hc hi (.inr htarget) hheld
  have hi' : (w.store.close inv).invitations.get? inv = some { i with state := .closedState } := by
    simp [hi]
  rw [clientDeclineInvitation_run_open hv hid hi hopen]
  split
  . next hone =>
    obtain ⟨id₁, -, hrun, hruns⟩ := clientRemoveInvitation_both_orphan env
      (w := { store := w.store.close inv
              trace := w.trace.send env i.source (noticeOf env w .declined i.source inv) none })
      (hv.close inv) hc hcs hi' href (.inr ⟨rfl, htarget⟩) hmem hmems hkeep hone
    simp only [run_bind, hrun, hruns]
  . next hkeeps =>
    obtain ⟨id₁, id₂, -, -, hrun, hruns⟩ := clientRemoveInvitation_both env
      (w := { store := w.store.close inv
              trace := w.trace.send env i.source (noticeOf env w .declined i.source inv) none })
      (hv.close inv) hc hcs hi' (.inr ⟨rfl, htarget⟩) hmem hmems hkeep hkeeps
    simp only [run_bind, hrun, hruns, run_pure]

/--
Declined by its source, an open invitation is closed, but leaves the list of the source only. The
caller is told that all went well.
-/
theorem clientDeclineInvitation_run_source (hv : w.store.Valid extra) (hl : w.store.Linked)
    (hid : w.store.invitationOf client id = some inv)
    (hi : w.store.invitations.get? inv = some i) (hopen : i.state = .openState)
    (hsource : i.source = client)
    : (clientDeclineInvitation client id).run env w
        =
      .ok (0, {
        store := (w.store.close inv).drop client inv
        trace := w.trace.send env client (noticeOf env w .declined client inv) none }) := by
  have hstate : i.state ≠ .closedState ∨ i.game ≠ none := .inl (by simp [hopen])
  obtain ⟨c, hc, hmem, -⟩ := hl.participant hv hi hstate (.inl hsource)
  have hi' : (w.store.close inv).invitations.get? inv = some { i with state := .closedState } := by
    simp [hi]
  have href := hl.refCount_eq_two hv hi hstate
  rw [clientDeclineInvitation_run_open hv hid hi hopen, hsource]
  obtain ⟨id₁, -, hrun, hagain⟩ := clientRemoveInvitation_twice env
    (w := { store := w.store.close inv
            trace := w.trace.send env client (noticeOf env w .declined client inv) none })
    (hv.close inv) hc hi' hmem (by simp [href])
  simp only [run_bind, hrun, hagain, run_pure]

/-! ## `client_accept_invitation` -/

theorem clientAcceptInvitation_run_refused (hv : w.store.Valid extra)
    (hc : w.store.clients.get? client = some c)
    (hno : ∀ inv i, w.store.invitationOf client id = some inv →
      w.store.invitations.get? inv = some i → i.target = client → i.state ≠ .openState)
    : (clientAcceptInvitation client id).run env w = .ok ((-1, none), w) := by
  simp only [clientAcceptInvitation, run_bind, clientGetInvitation_run id hc]
  cases hid : w.store.invitationOf client id with
  | none => rfl
  | some inv =>
    obtain ⟨-, i, -, -, hi, -⟩ := hv.invitationOf hid
    simp only [invGetTarget_run hi, run_ite, run_pure, ne_eq, Option.some.injEq]
    by_cases htarget : i.target = client
    . have hstate := hno inv i hid hi htarget
      simp [htarget, invAccept, hi, hstate]
    . simp [htarget]

/--
The text an `ACCEPTED` packet carries, and the text stored through `strp` for the `ACK`: the one who
moves first gets to see the board.
-/
def acceptTexts (i : Invitation) : Option CString × Option CString :=
  if i.targetRole ≠ .firstPlayerRole then (some (gameUnparseState gameCreate), none)
  else (none, some (gameUnparseState gameCreate))

def acceptedPacket (env : Env) (w : World) (inv : InvitationPtr) (i : Invitation) : PacketHeader :=
  createHeader (env.clock w.trace.sent.length) .accepted (w.store.idOf i.source inv) .nullRole
    ((acceptTexts i).1.getD []).length

theorem invAccept_run_open (hi : w.store.invitations.get? inv = some i)
    (hopen : i.state = .openState)
    : (invAccept (some inv)).run env w
        =
      .ok (if env.allocOk w.trace.allocs then
          (0, { store := w.store.accept inv
                trace := { w.trace with allocs := w.trace.allocs + 1 } })
        else
          (-1, { store := w.store.acceptFailed inv
                 trace := { w.trace with allocs := w.trace.allocs + 1 } })) := by
  simp only [invAccept, newGame, run_bind, run_derefInvitation, hi, hopen, ne_eq,
    not_true_eq_false, ↓reduceIte, run_modifyStore, run_allocate, run_ite]
  cases env.allocOk w.trace.allocs with
  | false =>
    simp only [Bool.false_eq_true, ↓reduceIte, run_pure, Store.acceptFailed, Store.modifyInvitation,
      Heap.modify_modify]
    rfl
  | true =>
    simp only [↓reduceIte, run_getStore, run_pure, Store.accept, Store.modifyInvitation,
      Heap.modify_modify]
    rfl

theorem clientAcceptInvitation_run_no_room (hid : w.store.invitationOf client id = some inv)
    (hc : w.store.clients.get? client = some c)
    (hi : w.store.invitations.get? inv = some i) (hopen : i.state = .openState)
    (htarget : i.target = client) (halloc : env.allocOk w.trace.allocs = false)
    : (clientAcceptInvitation client id).run env w
        =
      .ok ((-1, none), {
        store := w.store.acceptFailed inv
        trace := { w.trace with allocs := w.trace.allocs + 1 } }) := by
  simp only [clientAcceptInvitation, run_bind, clientGetInvitation_run id hc, hid,
    invGetTarget_run hi, htarget, ne_eq, not_true_eq_false, ↓reduceIte,
    invAccept_run_open hi hopen, halloc, Bool.false_eq_true, run_pure]

theorem clientAcceptInvitation_run (hv : w.store.Valid extra)
    (hid : w.store.invitationOf client id = some inv)
    (hi : w.store.invitations.get? inv = some i) (hopen : i.state = .openState)
    (htarget : i.target = client) (halloc : env.allocOk w.trace.allocs = true)
    : (clientAcceptInvitation client id).run env w
        =
      .ok ((if env.sendOk w.trace.sent.length then 0 else -1, (acceptTexts i).2), {
        store := w.store.accept inv
        trace := Trace.send { w.trace with allocs := w.trace.allocs + 1 } env i.source
          (acceptedPacket env w inv i) (acceptTexts i).1 }) := by
  obtain ⟨c, -, hc, -⟩ := hv.invitationOf hid
  obtain ⟨cs, hcs, -⟩ := (hv.invitation inv i hi).source
  have hi' : (w.store.accept inv).invitations.get? inv
      = some { i with state := .acceptedState, game := some w.store.games.next } := by
    simp [Store.accept, hi]
  have hg : (w.store.accept inv).games.get? w.store.games.next = some gameCreate := by
    simp [Store.accept]
  obtain ⟨w₁, hw₁⟩ : ∃ w₁ : World, { store := w.store.accept inv
                                     trace := { w.trace with allocs := w.trace.allocs + 1 } } = w₁ :=
    ⟨_, rfl⟩
  have hi₁ : w₁.store.invitations.get? inv
      = some { i with state := .acceptedState, game := some w.store.games.next } := by rw [← hw₁, hi']
  have hcs₁ : w₁.store.clients.get? i.source = some cs := by rw [← hw₁]; exact hcs
  have hg₁ : w₁.store.games.get? w.store.games.next = some gameCreate := by rw [← hw₁, hg]
  simp only [clientAcceptInvitation, run_bind, clientGetInvitation_run id hc, hid,
    invGetTarget_run hi, htarget, ne_eq, not_true_eq_false, ↓reduceIte,
    invAccept_run_open hi hopen, halloc, hw₁]
  rw [if_neg (by decide)]
  simp only [run_bind, invGetGame_run hi₁, run_nonNull_some, invGetSource_run hi₁,
    clientGetInvitationId_run inv hcs₁, invGetTargetRole, run_derefInvitation, hi₁, run_pure,
    run_derefGame, hg₁]
  have hidOf : w₁.store.idOf i.source inv = w.store.idOf i.source inv := by rw [← hw₁]; rfl
  rw [hidOf]
  by_cases hrole : i.targetRole = .firstPlayerRole
  . simp only [hrole, acceptTexts, acceptedPacket, ne_eq, not_true_eq_false, ↓reduceIte,
      run_newHeader, clientSendPacket_run _ _ hcs₁]
    rw [protoSendPacket_none _ _ rfl]
    subst hw₁
    cases env.sendOk w.trace.sent.length <;> rfl
  . simp only [hrole, acceptTexts, acceptedPacket, ne_eq, not_false_eq_true, ↓reduceIte,
      run_newHeader, clientSendPacket_run _ _ hcs₁, Option.getD_some, gameUnparseState_length]
    rw [protoSendPacket_some _ _ (by simp [createHeader])]
    subst hw₁
    cases env.sendOk w.trace.sent.length <;> rfl

/-! ## `client_make_invitation` -/

def Client.growth (c : Client) : Nat := if c.idUsage ≥ c.currentIdSize then 1 else 0

theorem getAvailableId_run (hc : w.store.clients.get? client = some c)
    : (getAvailableId client).run env w
        =
      if c.growth = 1 ∧ env.allocOk w.trace.allocs = false then
        .error .deadlock
      else
        .ok (c.nextId, {
          store := w.store.modifyClient client (·.grown.takeId.2)
          trace := { w.trace with allocs := w.trace.allocs + c.growth } }) := by
  by_cases hgrow : c.idUsage ≥ c.currentIdSize
  . have hgrowth : c.growth = 1 := by simp [Client.growth, hgrow]
    have hgrown : c.grown = c.growIds := by simp [Client.grown, hgrow]
    have hmodify : w.store.modifyClient client (·.grown.takeId.2)
        = w.store.modifyClient client (·.growIds.takeId.2) := by
      unfold Store.modifyClient
      rw [Heap.modify_congr hc (by rw [hgrown])]
    rw [hmodify]
    cases halloc : env.allocOk w.trace.allocs with
    | false =>
      simp only [getAvailableId, run_bind, run_derefClient, hc, hgrow, ↓reduceIte, run_allocate,
        halloc, Bool.false_eq_true, run_fault, hgrowth, and_self]
    | true =>
      simp only [getAvailableId, run_bind, run_derefClient, hc, hgrow, ↓reduceIte, run_allocate,
        halloc, run_modifyStore, run_pure, hgrowth, Client.nextId, hgrown, reduceCtorEq, and_false]
  . have hgrowth : c.growth = 0 := by simp [Client.growth, hgrow]
    have hgrown : c.grown = c := by simp [Client.grown, hgrow]
    have hmodify : w.store.modifyClient client (·.grown.takeId.2)
        = w.store.modifyClient client (·.takeId.2) := by
      unfold Store.modifyClient
      rw [Heap.modify_congr hc (by rw [hgrown])]
    rw [hmodify]
    simp only [getAvailableId, run_bind, run_derefClient, hc, hgrow, ↓reduceIte, run_modifyStore,
      run_pure, hgrowth, Client.nextId, hgrown, Nat.zero_ne_one, false_and, Nat.add_zero]

theorem clientAddInvitation_run (hc : w.store.clients.get? client = some c)
    (hi : w.store.invitations.get? inv = some i)
    : (clientAddInvitation client inv).run env w
        =
      if c.growth = 1 ∧ env.allocOk w.trace.allocs = false then
        .error .deadlock
      else
        .ok (c.nextId, {
          store := (w.store.modifyClient client (·.link inv)).modifyInvitation inv Invitation.addRef
          trace := { w.trace with allocs := w.trace.allocs + c.growth } }) := by
  have hlink : (w.store.clients.modify client (·.grown.takeId.2)).modify client (fun c' =>
        { c' with inviteHead := { id := c.nextId, invitation := inv } :: c'.inviteHead })
      = w.store.clients.modify client (·.link inv) := by
    rw [Heap.modify_modify]
    apply Heap.modify_congr hc
    simp [Client.link]
  simp only [clientAddInvitation, run_bind, getAvailableId_run hc]
  by_cases hstuck : c.growth = 1 ∧ env.allocOk w.trace.allocs = false
  . simp only [if_pos hstuck]
  . simp only [if_neg hstuck]
    have hi' : (w.store.modifyClient client (·.grown.takeId.2)).invitations.get? inv = some i := hi
    simp only [invRef_run (w := { store := w.store.modifyClient client (·.grown.takeId.2)
                                  trace := { w.trace with allocs := w.trace.allocs + c.growth } }) hi']
    simp only [run_modifyStore, run_pure, Store.modifyClient, Store.modifyInvitation, hlink]

def World.created (w : World) (source target : ClientPtr) (sourceRole targetRole : GameRole)
    : World where
  store :=
    { w.store with
      clients := (w.store.clients.modify source Client.addRef).modify target Client.addRef
      invitations := w.store.invitations.push (newInvitation source target sourceRole targetRole) }
  trace := { w.trace with allocs := w.trace.allocs + 1 }

theorem invCreate_run {source target : ClientPtr} {cs ct : Client} {sourceRole targetRole : GameRole}
    (hs : w.store.clients.get? source = some cs) (ht : w.store.clients.get? target = some ct)
    (hne : source ≠ target)
    : (invCreate source target sourceRole targetRole).run env w
        =
      .ok (if env.allocOk w.trace.allocs then
          (some w.store.invitations.next, w.created source target sourceRole targetRole)
        else
          (none, { w with trace.allocs := w.trace.allocs + 1 })) := by
  simp only [invCreate, run_bind, run_allocate, run_ite]
  cases env.allocOk w.trace.allocs with
  | false => rfl
  | true =>
    simp only [↓reduceIte, run_getStore, run_modifyStore, clientRef, run_bind, run_derefClient, hs,
      Store.modifyClient_clients, Heap.get?_modify_ne hne.symm, ht]
    rfl

def makeStuck (env : Env) (w : World) (cs ct : Client) : Bool :=
  (cs.growth = 1 ∧ env.allocOk (w.trace.allocs + 1) = false)
    ∨ (ct.growth = 1 ∧ env.allocOk (w.trace.allocs + 1 + cs.growth) = false)

def invitedPacket (env : Env) (w : World) (ct : Client) (targetRole : GameRole) (name : CString)
    : PacketHeader :=
  createHeader (env.clock w.trace.sent.length) .invited ct.nextId targetRole name.length

theorem clientMakeInvitation_run_no_room {source target : ClientPtr} {cs ct : Client}
    {sourceRole targetRole : GameRole} (hs : w.store.clients.get? source = some cs)
    (ht : w.store.clients.get? target = some ct) (hne : source ≠ target)
    (halloc : env.allocOk w.trace.allocs = false)
    : (clientMakeInvitation source target sourceRole targetRole).run env w
        =
      .ok (-1, { w with trace.allocs := w.trace.allocs + 1 }) := by
  simp only [clientMakeInvitation, run_bind, invCreate_run hs ht hne, halloc, Bool.false_eq_true,
    ↓reduceIte, run_pure]

section Make

variable {source target : ClientPtr} {cs ct : Client} {sourceRole targetRole : GameRole}

theorem created_spec (sourceRole targetRole : GameRole)
    (hs : w.store.clients.get? source = some cs)
    (ht : w.store.clients.get? target = some ct) (hne : source ≠ target)
    : (w.created source target sourceRole targetRole).store.clients.get? source = some cs.addRef
        ∧ (w.created source target sourceRole targetRole).store.clients.get? target = some ct.addRef
        ∧ (w.created source target sourceRole targetRole).store.invitations.get?
          w.store.invitations.next
            = some (newInvitation source target sourceRole targetRole) := by
  simp [World.created, hs, ht, hne, hne.symm]

theorem linked_store (w : World) (source target : ClientPtr) (sourceRole targetRole : GameRole)
    (hne : source ≠ target)
    : ((((w.created source target sourceRole targetRole).store.modifyClient source
          (·.link w.store.invitations.next)).modifyInvitation w.store.invitations.next
          Invitation.addRef).modifyClient target
          (·.link w.store.invitations.next)).modifyInvitation w.store.invitations.next
          Invitation.addRef
        =
      { w.store.invite source target sourceRole targetRole with
        invitations := w.store.invitations.push
          { newInvitation source target sourceRole targetRole with refCount := 3 } } := by
  have hclients : ((((w.store.clients.modify source Client.addRef).modify target
        Client.addRef).modify source (·.link w.store.invitations.next)).modify target
        (·.link w.store.invitations.next))
      = (w.store.clients.modify source fun c => (c.link w.store.invitations.next).addRef).modify
          target fun c => (c.link w.store.invitations.next).addRef := by
    rw [Heap.modify_comm (p := target) (q := source) hne.symm, Heap.modify_modify,
      Heap.modify_modify]
    congr 2
    . funext c
      simp
    . funext c
      simp
  simp only [World.created, Store.modifyClient, Store.modifyInvitation, Store.invite, hclients,
    Heap.modify_push_next]
  rfl

def World.linked (w : World) (source target : ClientPtr) (cs ct : Client)
    (sourceRole targetRole : GameRole) : World where
  store :=
    { w.store.invite source target sourceRole targetRole with
      invitations := w.store.invitations.push
        { newInvitation source target sourceRole targetRole with refCount := 3 } }
  trace := { w.trace with allocs := w.trace.allocs + 1 + cs.growth + ct.growth }

theorem clientMakeInvitation_run_linked (hv : w.store.Valid extra)
    (hs : w.store.clients.get? source = some cs) (ht : w.store.clients.get? target = some ct)
    (hne : source ≠ target) (halloc : env.allocOk w.trace.allocs = true)
    : (clientMakeInvitation source target sourceRole targetRole).run env w
        =
      if makeStuck env w cs ct then
        .error .deadlock
      else
        (do
          let playername ← playerGetName (← nonNull (← derefClient source).player)
          let pkt ← newHeader .invited ct.nextId targetRole playername.length
          let _ ← clientSendPacket target pkt (some playername)
          invUnref w.store.invitations.next
          return cs.nextId : ServerM Int).run env
          (w.linked source target cs ct sourceRole targetRole) := by
  obtain ⟨hs₁, ht₁, hi₁⟩ := created_spec sourceRole targetRole hs ht hne
  have hgs : cs.addRef.growth = cs.growth := rfl
  have hgt : ct.addRef.growth = ct.growth := rfl
  have hids : cs.nextId ≠ -1 := by
    have := (hv.client source cs hs).ids.nextId_spec.1
    omega
  have hidt : ct.nextId ≠ -1 := by
    have := (hv.client target ct ht).ids.nextId_spec.1
    omega
  have hallocs : (w.created source target sourceRole targetRole).trace.allocs = w.trace.allocs + 1 :=
    rfl
  simp only [clientMakeInvitation, run_bind, invCreate_run hs ht hne, halloc, ↓reduceIte,
    clientAddInvitation_run hs₁ hi₁, hgs, hallocs, Client.addRef_nextId]
  by_cases hstucks : cs.growth = 1 ∧ env.allocOk (w.trace.allocs + 1) = false
  . simp [makeStuck, hstucks]
  . simp only [if_neg hstucks, hids, ↓reduceIte, run_bind]
    generalize hw₂ : World.mk _ _ = w₂
    have ht₂ : w₂.store.clients.get? target = some ct.addRef := by
      rw [← hw₂, Store.modifyInvitation_clients, Store.modifyClient_clients,
        Heap.get?_modify_ne hne.symm, ht₁]
    have hi₂ : w₂.store.invitations.get? w.store.invitations.next
        = some (newInvitation source target sourceRole targetRole).addRef := by
      rw [← hw₂, Store.modifyInvitation_invitations, Store.modifyClient_invitations,
        Heap.get?_modify_self, hi₁]
      rfl
    have hallocs₂ : w₂.trace.allocs = w.trace.allocs + 1 + cs.growth := by rw [← hw₂]
    simp only [clientAddInvitation_run ht₂ hi₂, hgt, hallocs₂, Client.addRef_nextId]
    by_cases hstuckt : ct.growth = 1 ∧ env.allocOk (w.trace.allocs + 1 + cs.growth) = false
    . simp [makeStuck, hstuckt]
    . have hstuck : makeStuck env w cs ct = false := by
        simp only [makeStuck, decide_eq_false_iff_not, not_or]
        exact ⟨hstucks, hstuckt⟩
      simp only [if_neg hstuckt, hidt, hstuck, ↓reduceIte, run_bind, Bool.false_eq_true]
      subst hw₂
      rw [linked_store w source target sourceRole targetRole hne]
      rfl

theorem clientMakeInvitation_run (hv : w.store.Valid extra)
    (hs : w.store.clients.get? source = some cs) (ht : w.store.clients.get? target = some ct)
    (hne : source ≠ target) {player : PlayerPtr} {p : Player} (hplayer : cs.player = some player)
    (hp : w.store.players.get? player = some p) (halloc : env.allocOk w.trace.allocs = true)
    : (clientMakeInvitation source target sourceRole targetRole).run env w
        =
      if makeStuck env w cs ct then
        .error .deadlock
      else
        .ok (cs.nextId, {
          store := w.store.invite source target sourceRole targetRole
          trace := Trace.send
            { w.trace with allocs := w.trace.allocs + 1 + cs.growth + ct.growth } env target
            (invitedPacket env w ct targetRole p.name) (some p.name) }) := by
  rw [clientMakeInvitation_run_linked hv hs ht hne halloc]
  split
  . rfl
  . obtain ⟨w₃, hw₃⟩ : ∃ w₃, w.linked source target cs ct sourceRole targetRole = w₃ := ⟨_, rfl⟩
    have hs₃ : w₃.store.clients.get? source
        = some (cs.link w.store.invitations.next).addRef := by
      simp [← hw₃, World.linked, Store.invite, hne, hs]
    have ht₃ : w₃.store.clients.get? target
        = some (ct.link w.store.invitations.next).addRef := by
      simp [← hw₃, World.linked, Store.invite, hne.symm, ht]
    have hp₃ : w₃.store.players.get? player = some p := by
      rw [← hw₃]
      exact hp
    have hi₃ : w₃.store.invitations.get? w.store.invitations.next
        = some { newInvitation source target sourceRole targetRole with refCount := 3 } := by
      simp [← hw₃, World.linked]
    rw [hw₃]
    simp only [run_bind, run_derefClient, hs₃, Client.addRef_player, Client.link_player, hplayer,
      run_nonNull_some, playerGetName, run_derefPlayer, hp₃, run_pure, run_newHeader,
      clientSendPacket_run _ _ ht₃]
    generalize hw₄ : World.mk _ _ = w₄
    have hi₄ : w₄.store.invitations.get? w.store.invitations.next
        = some { newInvitation source target sourceRole targetRole with refCount := 3 } := by
      rw [← hw₄, hi₃]
    rw [invUnref_run hi₄ (by simp)]
    subst hw₄ hw₃
    simp only [World.linked, Store.modifyInvitation, Heap.modify_push_next]
    rfl

/--
A source that has never been logged in has no name to send, and the call does not return.
-/
theorem clientMakeInvitation_run_no_player (hv : w.store.Valid extra)
    (hs : w.store.clients.get? source = some cs) (ht : w.store.clients.get? target = some ct)
    (hne : source ≠ target) (hplayer : cs.player = none)
    (halloc : env.allocOk w.trace.allocs = true)
    : (clientMakeInvitation source target sourceRole targetRole).run env w
        =
      .error (if makeStuck env w cs ct then .deadlock else .nullDereference) := by
  rw [clientMakeInvitation_run_linked hv hs ht hne halloc]
  have hs₃ : (w.linked source target cs ct sourceRole targetRole).store.clients.get? source
      = some (cs.link w.store.invitations.next).addRef := by
    simp [World.linked, Store.invite, hne, hs]
  split
  . rfl
  . simp only [run_bind, run_derefClient, hs₃, Client.addRef_player, Client.link_player, hplayer,
      run_nonNull_none]

end Make

end Jeux
