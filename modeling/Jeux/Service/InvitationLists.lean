import Jeux.Lemmas.Numbers
import Jeux.Service.Machine

/-!
`client_add_invitation` and `client_remove_invitation` on the list of one client, one call after the
other. The array of free ids, the counter and the list agree after every call, and each call does to
the list what it should.
-/

namespace Jeux

open ServerM

inductive ListCall where
  | add (inv : InvitationPtr)
  | remove (inv : InvitationPtr)
  deriving DecidableEq, Repr

def ListCall.call (client : ClientPtr) : ListCall → ServerM Int
  | .add inv => clientAddInvitation client inv
  | .remove inv => clientRemoveInvitation client inv

def ListCall.machine (env : Env) (client : ClientPtr) : Machine World ListCall where
  step w call := ((call.call client).run env w).toOption.map Prod.snd

/--
A client with the ids and the list that `client_create` gives it, and invitations that somebody
refers to.
-/
structure Store.Unlisted (s : Store) (client : ClientPtr) : Prop where
  client : ∃ c, s.clients.get? client = some c
    ∧ c.availableIds = (newClient c.fd).availableIds ∧ c.idUsage = (newClient c.fd).idUsage
    ∧ c.currentIdSize = (newClient c.fd).currentIdSize ∧ c.inviteHead = (newClient c.fd).inviteHead
  invitations : ∀ inv i, s.invitations.get? inv = some i → 0 < i.refCount

structure Client.IdsAgree (c : Client) : Prop where
  length : c.availableIds.length = c.currentIdSize
  slots : ∀ i < c.currentIdSize,
    c.availableIds[i]? = some (i : Int) ∨ c.availableIds[i]? = some (-1)
  taken : ∀ i : Nat, c.availableIds[i]? = some (-1) ↔ (i : Int) ∈ c.ids
  ids : ∀ id ∈ c.ids, ∃ i < c.currentIdSize, id = (i : Int)
  distinct : c.ids.Nodup
  usage : c.idUsage = c.inviteHead.length
  room : c.idUsage ≤ c.currentIdSize

/--
What the next call does to the list of a client. An invitation that is still there can be added; any
pointer can be tried to be removed.
-/
structure ListsSound (env : Env) (client : ClientPtr) (w : World) (c : Client) : Prop where
  live : w.store.clients.get? client = some c
  agree : c.IdsAgree
  add : ∀ inv i, w.store.invitations.get? inv = some i → ∃ (id : Int) (w' : World) (c' : Client),
    (clientAddInvitation client inv).run env w = .ok (id, w')
      ∧ w'.store.clients.get? client = some c'
      ∧ c'.inviteHead = { id := id, invitation := inv } :: c.inviteHead
      ∧ 0 ≤ id ∧ id ∉ c.ids ∧ ∀ j, 0 ≤ j → j < id → j ∈ c.ids
  absent : ∀ inv, inv ∉ c.invitations →
    (clientRemoveInvitation client inv).run env w = .ok (-1, w)
  remove : ∀ inv ∈ c.invitations, ∃ (before after : List InvitationNode) (node : InvitationNode)
    (w' : World) (c' : Client), (clientRemoveInvitation client inv).run env w = .ok (node.id, w')
      ∧ w'.store.clients.get? client = some c'
      ∧ c.inviteHead = before ++ node :: after ∧ c'.inviteHead = before ++ after
      ∧ node.invitation = inv ∧ inv ∉ before.map (·.invitation)
  inverse : c.invitations.Nodup → ∀ (id : Int) (inv : InvitationPtr),
    (clientGetInvitation client id).run env w = .ok (some inv, w)
      ↔
    inv ∈ c.invitations ∧ (clientGetInvitationId client inv).run env w = .ok (id, w)

variable {env : Env} {w w' w₀ : World} {client : ClientPtr} {c : Client} {inv : InvitationPtr}
  {i : Invitation} {node : InvitationNode}

namespace Client

theorem IdsOk.agree (h : c.IdsOk) : c.IdsAgree where
  length := h.length_eq
  slots := by
    intro i hi
    rw [h.slot i hi]
    split
    . exact .inr rfl
    . exact .inl rfl
  taken := by
    intro i
    by_cases hlt : i < c.currentIdSize
    . rw [h.slot i hlt]
      split
      . next hmem => simp [hmem]
      . next hmem =>
        simp only [hmem, Option.some.injEq, iff_false]
        omega
    . have hnone : c.availableIds[i]? = none := by
        rw [List.getElem?_eq_none]
        rw [h.length_eq]
        omega
      rw [hnone]
      simp only [reduceCtorEq, false_iff]
      intro hmem
      have := (h.range _ hmem).2
      omega
  ids := by
    intro id hid
    have := h.range id hid
    exact ⟨id.toNat, by omega, by omega⟩
  distinct := h.nodup
  usage := by
    rw [h.usage, ids, List.length_map]
  room := by
    rw [h.usage]
    exact_mod_cast h.room

theorem nodeFor?_first (h : c.nodeFor? inv = some node)
    : ∃ before after, c.inviteHead = before ++ node :: after
        ∧ (c.unlink inv).inviteHead = before ++ after ∧ node.invitation = inv
        ∧ inv ∉ before.map (·.invitation) := by
  have hfind := h
  unfold nodeFor? at hfind
  obtain ⟨hinv, before, after, hsplit, hbefore⟩ := List.find?_eq_some_iff_append.mp hfind
  simp only [decide_eq_true_eq] at hinv
  refine ⟨before, after, hsplit, ?_, hinv, ?_⟩
  . rw [unlink_inviteHead, hsplit, List.eraseP_append_right _ (by simpa using hbefore),
      List.eraseP_cons_of_pos (by simpa using hinv)]
  . intro hmem
    obtain ⟨other, hother, heq⟩ := List.mem_map.mp hmem
    simpa [heq] using hbefore other hother

end Client

/-! ## What holds between two calls -/

structure Store.Lists (s : Store) (client : ClientPtr) (c : Client) : Prop where
  client : s.clients.get? client = some c
  ids : c.IdsOk
  live : ∀ inv ∈ c.invitations, ∃ i, s.invitations.get? inv = some i
  refs : ∀ inv i, s.invitations.get? inv = some i → (c.invitations.count inv : Int) < i.refCount

namespace Store.Lists

theorem of_unlisted (h : w₀.store.Unlisted client) : ∃ c, w₀.store.Lists client c := by
  obtain ⟨c, hc, hids, husage, hsize, hlist⟩ := h.client
  have hempty : c.invitations = [] := by
    simp [Client.invitations, hlist, newClient]
  refine ⟨c, hc, ?_, ?_, ?_⟩
  . exact (newClient_idsOk c.fd).congr hids husage hsize hlist
  . simp [hempty]
  . intro inv i hi
    rw [hempty]
    exact h.invitations inv i hi

theorem add (h : w.store.Lists client c) (halloc : ∀ n, env.allocOk n = true)
    (hi : w.store.invitations.get? inv = some i)
    : ∃ w', (clientAddInvitation client inv).run env w = .ok (c.nextId, w')
        ∧ w'.store.Lists client (c.link inv) := by
  refine ⟨_, by rw [clientAddInvitation_run h.client hi, if_neg (by simp [halloc])], ?_⟩
  constructor
  . simp [h.client]
  . exact h.ids.link inv
  . intro u hu
    rw [Client.link_invitations, List.mem_cons] at hu
    obtain ⟨iu, hiu⟩ : ∃ iu, w.store.invitations.get? u = some iu := by
      rcases hu with rfl | hu
      . exact ⟨i, hi⟩
      . exact h.live u hu
    exact ⟨_, Heap.get?_modify_eq_some.mpr ⟨iu, hiu, rfl⟩⟩
  . intro u iu hiu
    obtain ⟨iu', hiu', rfl⟩ := Heap.get?_modify_eq_some.mp hiu
    have hlt := h.refs u iu' hiu'
    rw [Client.link_invitations]
    by_cases heq : u = inv
    . subst heq
      rw [if_pos rfl, List.count_cons_self, Invitation.addRef_refCount]
      omega
    . rw [if_neg heq, List.count_cons_of_ne (Ne.symm heq)]
      exact hlt

theorem remove (env : Env) (h : w.store.Lists client c) (hnode : c.nodeFor? inv = some node)
    : (clientRemoveInvitation client inv).run env w
          = .ok (node.id, { w with store := w.store.unlink client inv })
        ∧ (w.store.unlink client inv).Lists client (c.unlink inv) := by
  have hmem : inv ∈ c.invitations := by
    refine Classical.byContradiction fun hno => ?_
    rw [Client.nodeFor?_eq_none.mpr hno] at hnode
    cases hnode
  have hcount := List.count_pos_iff.mpr hmem
  obtain ⟨i, hi⟩ := h.live inv hmem
  have href := h.refs inv i hi
  refine ⟨clientRemoveInvitation_run_kept h.client h.ids hnode hi (by omega), ?_⟩
  constructor
  . simp [h.client]
  . exact h.ids.unlink inv
  . intro u hu
    rw [Client.unlink_invitations] at hu
    obtain ⟨iu, hiu⟩ := h.live u (List.mem_of_mem_erase hu)
    exact ⟨_, by rw [unlink_invitations]; exact Heap.get?_modify_eq_some.mpr ⟨iu, hiu, rfl⟩⟩
  . intro u iu hiu
    rw [unlink_invitations] at hiu
    obtain ⟨iu', hiu', rfl⟩ := Heap.get?_modify_eq_some.mp hiu
    have hlt := h.refs u iu' hiu'
    rw [Client.unlink_invitations]
    by_cases heq : u = inv
    . subst heq
      rw [if_pos rfl, List.count_erase_self, Invitation.dropRef_refCount]
      omega
    . rw [if_neg heq, List.count_erase_of_ne heq]
      exact hlt

theorem inverse (h : w.store.Lists client c) (hnodup : c.invitations.Nodup) (id : Int)
    (inv : InvitationPtr)
    : (clientGetInvitation client id).run env w = .ok (some inv, w)
        ↔
      inv ∈ c.invitations ∧ (clientGetInvitationId client inv).run env w = .ok (id, w) := by
  simp only [clientGetInvitation_run _ h.client, clientGetInvitationId_run _ h.client,
    Except.ok.injEq, Prod.mk.injEq, and_true, invitationOf, idOf, h.client, Option.bind_some]
  constructor
  . intro hfound
    obtain ⟨node, hfind, rfl⟩ := Option.map_eq_some_iff.mp hfound
    have hmem := List.mem_of_find?_eq_some hfind
    have hid := List.find?_some hfind
    simp only [decide_eq_true_eq] at hid
    refine ⟨List.mem_map_of_mem hmem, ?_⟩
    simp only [Client.nodeFor?_of_mem hnodup hmem]
    exact hid
  . rintro ⟨hmem, hid⟩
    obtain ⟨node, hnode⟩ := Client.exists_nodeFor? hmem
    simp only [hnode] at hid
    rw [← hid, h.ids.nodeWithId?_of_mem (List.mem_of_find?_eq_some hnode), Option.map_some,
      (Client.nodeFor?_eq_some hnode).1]

theorem sound (h : w.store.Lists client c) (halloc : ∀ n, env.allocOk n = true)
    : ListsSound env client w c where
  live := h.client
  agree := h.ids.agree
  add := by
    intro inv i hi
    obtain ⟨w', hrun, hlists⟩ := h.add halloc hi
    exact ⟨_, w', _, hrun, hlists.client, rfl, h.ids.nextId_spec⟩
  absent := fun inv hinv => clientRemoveInvitation_run_of_not_mem env h.client hinv
  remove := by
    intro inv hinv
    obtain ⟨node, hnode⟩ := Client.exists_nodeFor? hinv
    obtain ⟨hrun, hlists⟩ := h.remove env hnode
    obtain ⟨before, after, hsplit, hlist, hfirst⟩ := Client.nodeFor?_first hnode
    exact ⟨before, after, node, _, _, hrun, hlists.client, hsplit, hlist, hfirst⟩
  inverse := h.inverse

end Store.Lists

/-! ## Every sequence of calls -/

namespace ListCall

variable {call : ListCall}

theorem lists (h : w.store.Lists client c) (halloc : ∀ n, env.allocOk n = true)
    (hstep : (machine env client).step w call = some w') : ∃ c', w'.store.Lists client c' := by
  unfold machine at hstep
  dsimp only at hstep
  cases call with
  | add inv =>
    cases hi : w.store.invitations.get? inv with
    | some i =>
      obtain ⟨w₁, hrun, hlists⟩ := h.add halloc hi
      simp only [ListCall.call, hrun, Except.toOption, Option.map_some, Option.some.injEq] at hstep
      exact ⟨_, hstep ▸ hlists⟩
    | none =>
      -- a pointer to an invitation that is gone: the call does not return
      simp [ListCall.call, clientAddInvitation, getAvailableId_run h.client, halloc, invRef,
        run_bind, hi, Except.toOption] at hstep
  | remove inv =>
    cases hnode : c.nodeFor? inv with
    | some node =>
      obtain ⟨hrun, hlists⟩ := h.remove env hnode
      simp only [ListCall.call, hrun, Except.toOption, Option.map_some, Option.some.injEq] at hstep
      subst hstep
      exact ⟨_, hlists⟩
    | none =>
      have hrun := clientRemoveInvitation_run_of_not_mem env h.client
        (Client.nodeFor?_eq_none.mp hnode)
      simp only [ListCall.call, hrun, Except.toOption, Option.map_some, Option.some.injEq] at hstep
      exact ⟨c, hstep ▸ h⟩

end ListCall

/--
Whatever has been added and removed, the list, the array and the counter of a client agree, and the
next call does what it should.
-/
theorem listsSound_of_reach (halloc : ∀ n, env.allocOk n = true) (h₀ : w₀.store.Unlisted client)
    (h : (ListCall.machine env client).Reach (fun _ _ => True) w₀ w)
    : ∃ c, ListsSound env client w c := by
  have hlists : ∃ c, w.store.Lists client c := by
    apply h.invariant (fun w => ∃ c, w.store.Lists client c) (Store.Lists.of_unlisted h₀)
    rintro w call w' ⟨c, hlists⟩ - hstep
    exact ListCall.lists hlists halloc hstep
  obtain ⟨c, hlists⟩ := hlists
  exact ⟨c, hlists.sound halloc⟩

def listWorld : World where
  store := { initialStore with
    clients := Heap.empty.push (newClient 4)
    invitations := (Heap.empty.push { newInvitation 1 2 .firstPlayerRole .secondPlayerRole with
      refCount := 1 }).push { newInvitation 2 1 .firstPlayerRole .secondPlayerRole with
      refCount := 1 } }
  trace := initialWorld.trace

theorem listWorld_unlisted : listWorld.store.Unlisted 0 where
  client := ⟨newClient 4, rfl, rfl, rfl, rfl, rfl⟩
  invitations := by
    intro inv i hi
    simp only [listWorld, Heap.get?_push] at hi
    split at hi
    . rw [← Option.some.inj hi]
      decide
    . split at hi
      . rw [← Option.some.inj hi]
        decide
      . simp at hi

/--
The first invitation is there twice, and the second has been removed again, which leaves a gap.
-/
theorem listsSound_of_calls
    : ∃ w, (ListCall.machine calmEnv 0).Reach (fun _ _ => True) listWorld w
      ∧ (w.store.clients.get? 0).map (·.inviteHead)
        = some [{ id := 2, invitation := 0 }, { id := 0, invitation := 0 }]
      ∧ ∃ c, ListsSound calmEnv 0 w c := by
  obtain ⟨w, hreach, hcheck⟩ := Machine.Reach.of_any_run (ListCall.machine calmEnv 0)
    (fun _ _ => True) listWorld [.add 0, .add 1, .add 0, .remove 1]
    (fun w => decide ((w.store.clients.get? 0).map (·.inviteHead)
      = some [{ id := 2, invitation := 0 }, { id := 0, invitation := 0 }])) (by decide +kernel)
  exact ⟨w, hreach, of_decide_eq_true hcheck,
    listsSound_of_reach (fun _ => rfl) listWorld_unlisted hreach⟩

end Jeux
