import Mathlib.Data.List.Perm.Subperm
import Jeux.Lemmas.References

/-!
The invitation ids of a client: the array of free ids, the usage counter and the list of nodes say
the same thing, and adding or removing an invitation keeps it so.
-/

namespace Jeux

open ServerM

namespace Client

def ids (c : Client) : List Int := c.inviteHead.map (·.id)

def invitations (c : Client) : List InvitationPtr := c.inviteHead.map (·.invitation)

structure IdsOk (c : Client) : Prop where
  length_eq : c.availableIds.length = c.currentIdSize
  size_pos : 0 < c.currentIdSize
  slot : ∀ i < c.currentIdSize, c.availableIds[i]? = some (if (i : Int) ∈ c.ids then -1 else (i : Int))
  range : ∀ id ∈ c.ids, 0 ≤ id ∧ id < c.currentIdSize
  nodup : c.ids.Nodup
  usage : c.idUsage = c.ids.length

def grown (c : Client) : Client := if c.idUsage ≥ c.currentIdSize then c.growIds else c

def nextId (c : Client) : Int := c.grown.takeId.1

def link (c : Client) (inv : InvitationPtr) : Client :=
  { c.grown.takeId.2 with inviteHead := { id := c.nextId, invitation := inv } :: c.inviteHead }

def unlink (c : Client) (inv : InvitationPtr) : Client :=
  match c.nodeFor? inv with
  | some node => (c.eraseNode inv).putId node.id
  | none => c

variable {c : Client} {inv : InvitationPtr}

theorem IdsOk.congr {c' : Client} (h : c.IdsOk) (hids : c'.availableIds = c.availableIds)
    (husage : c'.idUsage = c.idUsage) (hsize : c'.currentIdSize = c.currentIdSize)
    (hlist : c'.inviteHead = c.inviteHead) : c'.IdsOk := by
  constructor
  all_goals simp only [ids, hids, husage, hsize, hlist]
  . exact h.length_eq
  . exact h.size_pos
  . exact h.slot
  . exact h.range
  . exact h.nodup
  . exact h.usage

theorem IdsOk.growIds (h : c.IdsOk) : c.growIds.IdsOk := by
  have hpos := h.size_pos
  constructor
  . simp [Client.growIds, h.length_eq]
    omega
  . simp only [Client.growIds]
    omega
  . intro i hi
    simp only [Client.growIds] at hi ⊢
    cases Nat.lt_or_ge i c.currentIdSize with
    | inl hlt =>
      rw [List.getElem?_append_left (by rw [h.length_eq]; exact hlt)]
      exact h.slot i hlt
    | inr hge =>
      rw [List.getElem?_append_right (by rw [h.length_eq]; exact hge)]
      have hfree : (i : Int) ∉ c.ids := by
        intro hmem
        have := (h.range _ hmem).2
        omega
      rw [List.getElem?_map, List.getElem?_range' (by rw [h.length_eq]; omega), h.length_eq]
      simp only [Option.map_some, Option.some.injEq]
      change _ = if (i : Int) ∈ c.ids then -1 else (i : Int)
      rw [if_neg hfree]
      simp only [Int.ofNat_eq_natCast]
      omega
  . intro id hid
    have := h.range id hid
    simp only [Client.growIds]
    omega
  . exact h.nodup
  . exact h.usage

theorem IdsOk.grown (h : c.IdsOk) : c.grown.IdsOk := by
  unfold Client.grown
  split
  . exact h.growIds
  . exact h

@[simp]
theorem grown_inviteHead : c.grown.inviteHead = c.inviteHead := by
  unfold grown
  split <;> rfl

@[simp]
theorem grown_ids : c.grown.ids = c.ids := by
  simp [ids]

@[simp]
theorem grown_player : c.grown.player = c.player := by
  unfold grown
  split <;> rfl

@[simp]
theorem grown_loggedIn : c.grown.loggedIn = c.loggedIn := by
  unfold grown
  split <;> rfl

@[simp]
theorem grown_refCount : c.grown.refCount = c.refCount := by
  unfold grown
  split <;> rfl

@[simp]
theorem takeId_player : c.takeId.2.player = c.player := by
  unfold takeId
  split <;> rfl

@[simp]
theorem takeId_loggedIn : c.takeId.2.loggedIn = c.loggedIn := by
  unfold takeId
  split <;> rfl

@[simp]
theorem takeId_refCount : c.takeId.2.refCount = c.refCount := by
  unfold takeId
  split <;> rfl

@[simp]
theorem takeId_inviteHead : c.takeId.2.inviteHead = c.inviteHead := by
  unfold takeId
  split <;> rfl

@[simp]
theorem link_player : (c.link inv).player = c.player := by simp [link]

@[simp]
theorem link_loggedIn : (c.link inv).loggedIn = c.loggedIn := by simp [link]

@[simp]
theorem link_refCount : (c.link inv).refCount = c.refCount := by simp [link]

@[simp]
theorem link_invitations : (c.link inv).invitations = inv :: c.invitations := rfl

@[simp]
theorem unlink_player : (c.unlink inv).player = c.player := by
  unfold unlink
  split <;> rfl

@[simp]
theorem unlink_loggedIn : (c.unlink inv).loggedIn = c.loggedIn := by
  unfold unlink
  split <;> rfl

@[simp]
theorem unlink_refCount : (c.unlink inv).refCount = c.refCount := by
  unfold unlink
  split <;> rfl

@[simp]
theorem addRef_grown : c.addRef.grown = c.grown.addRef := by
  unfold grown
  rw [addRef_idUsage, addRef_currentIdSize]
  split <;> rfl

@[simp]
theorem addRef_takeId : c.addRef.takeId = (c.takeId.1, c.takeId.2.addRef) := by
  unfold takeId
  rw [addRef_availableIds]
  cases c.availableIds.findIdx? (· ≠ -1) <;> rfl

@[simp]
theorem addRef_nextId : c.addRef.nextId = c.nextId := by simp [nextId]

@[simp]
theorem addRef_link : c.addRef.link inv = (c.link inv).addRef := by
  unfold link
  rw [addRef_grown, addRef_takeId, addRef_nextId]
  rfl

theorem IdsOk.room (h : c.IdsOk) : c.ids.length ≤ c.currentIdSize := by
  have hsub : c.ids ⊆ (List.range c.currentIdSize).map Int.ofNat := by
    intro id hid
    have := h.range id hid
    rw [List.mem_map]
    exact ⟨id.toNat, by rw [List.mem_range]; omega, by simp only [Int.ofNat_eq_natCast]; omega⟩
  simpa using (h.nodup.subperm hsub).length_le

theorem IdsOk.grown_usage_lt (h : c.IdsOk) : c.grown.ids.length < c.grown.currentIdSize := by
  have hu := h.usage
  have hpos := h.size_pos
  have hle := h.room
  rw [grown_ids]
  unfold Client.grown
  split
  . simp only [Client.growIds]
    omega
  . omega

theorem IdsOk.takeId_spec (h : c.IdsOk) (hlt : c.ids.length < c.currentIdSize)
    : ∃ i : Nat, i < c.currentIdSize
        ∧ (i : Int) ∉ c.ids
        ∧ (∀ j < i, (j : Int) ∈ c.ids)
        ∧ c.takeId = ((i : Int),
            { c with availableIds := c.availableIds.set i (-1), idUsage := c.idUsage + 1 }) := by
  have hfree : ∃ i, c.availableIds.findIdx? (· ≠ -1) = some i := by
    rw [← Option.isSome_iff_exists, List.findIdx?_isSome, List.any_eq_true]
    -- otherwise all numbers below the size are ids in use, which are too few
    refine Classical.byContradiction fun hnone => ?_
    have hsub : (List.range c.currentIdSize).map Int.ofNat ⊆ c.ids := by
      intro id hid
      rw [List.mem_map] at hid
      obtain ⟨i, hi, rfl⟩ := hid
      rw [List.mem_range] at hi
      have hslot := h.slot i hi
      refine Classical.byContradiction fun hmem => hnone ?_
      simp only [Int.ofNat_eq_natCast] at hmem
      rw [if_neg hmem] at hslot
      exact ⟨i, List.mem_of_getElem? hslot, by simp⟩
    have hnodup : ((List.range c.currentIdSize).map Int.ofNat).Nodup :=
      List.Pairwise.map Int.ofNat (by intro a b hne heq; apply hne; injection heq)
        List.nodup_range
    have := (hnodup.subperm hsub).length_le
    simp at this
    omega
  obtain ⟨i, hi⟩ := hfree
  have hspec := List.findIdx?_eq_some_iff_getElem.mp hi
  obtain ⟨hlen, hne, hbefore⟩ := hspec
  rw [h.length_eq] at hlen
  have hslot := h.slot i hlen
  rw [List.getElem?_eq_getElem (by rw [h.length_eq]; exact hlen), Option.some.injEq] at hslot
  have hnotin : (i : Int) ∉ c.ids := by
    intro hmem
    rw [if_pos hmem] at hslot
    simp [hslot] at hne
  refine ⟨i, hlen, hnotin, ?_, ?_⟩
  . intro j hj
    have hslotj := h.slot j (by omega)
    rw [List.getElem?_eq_getElem (by rw [h.length_eq]; omega), Option.some.injEq] at hslotj
    refine Classical.byContradiction fun hmem => ?_
    rw [if_neg hmem] at hslotj
    specialize hbefore j hj
    simp [hslotj] at hbefore
  . unfold takeId
    rw [hi]
    simp only [List.getD_eq_getElem?_getD, Prod.mk.injEq, and_true]
    rw [List.getElem?_eq_getElem (by rw [h.length_eq]; exact hlen), Option.getD_some, hslot,
      if_neg hnotin]

theorem IdsOk.nextId_spec (h : c.IdsOk)
    : 0 ≤ c.nextId ∧ c.nextId ∉ c.ids ∧ ∀ j, 0 ≤ j → j < c.nextId → j ∈ c.ids := by
  obtain ⟨i, -, hi, hleast, htake⟩ := h.grown.takeId_spec h.grown_usage_lt
  have hnext : c.nextId = i := by
    unfold nextId
    rw [htake]
  rw [hnext]
  rw [grown_ids] at hi
  refine ⟨by omega, hi, ?_⟩
  intro j hj hlt
  have := hleast j.toNat (by omega)
  rw [grown_ids] at this
  rwa [Int.toNat_of_nonneg hj] at this

theorem IdsOk.link (h : c.IdsOk) (inv : InvitationPtr) : (c.link inv).IdsOk := by
  obtain ⟨i, hi, hfree, -, htake⟩ := h.grown.takeId_spec h.grown_usage_lt
  have hids : (c.link inv).ids = (i : Int) :: c.ids := by
    simp [Client.link, ids, nextId, htake]
  constructor
  . simp [Client.link, htake, h.grown.length_eq]
  . simpa [Client.link, htake] using h.grown.size_pos
  . intro j hj
    simp only [Client.link, htake] at hj
    rw [hids]
    simp only [Client.link, htake, List.getElem?_set]
    split
    . next heq =>
      subst heq
      simp [h.grown.length_eq, hi]
    . next hne =>
      rw [h.grown.slot j hj, grown_ids]
      have : (j : Int) ≠ i := by omega
      simp [this]
  . intro id hid
    rw [hids, List.mem_cons] at hid
    simp only [Client.link, htake]
    cases hid with
    | inl heq => omega
    | inr hmem =>
      rw [← grown_ids] at hmem
      exact h.grown.range id hmem
  . rw [hids, List.nodup_cons]
    rw [grown_ids] at hfree
    exact ⟨hfree, h.nodup⟩
  . rw [hids]
    have hu := h.grown.usage
    rw [grown_ids] at hu
    simp only [Client.link, htake, List.length_cons]
    omega

/-! ## Removing -/

theorem nodeFor?_eq_some {node : InvitationNode} (h : c.nodeFor? inv = some node)
    : node.invitation = inv ∧ ∃ before after, c.inviteHead = before ++ node :: after
        ∧ c.inviteHead.eraseP (·.invitation = inv) = before ++ after := by
  unfold nodeFor? at h
  rw [List.find?_eq_some_iff_append] at h
  obtain ⟨hp, before, after, hsplit, hbefore⟩ := h
  simp only [decide_eq_true_eq] at hp
  refine ⟨hp, before, after, hsplit, ?_⟩
  rw [hsplit, List.eraseP_append_right _ (by simpa using hbefore),
    List.eraseP_cons_of_pos (by simpa using hp)]

theorem nodeFor?_eq_none : c.nodeFor? inv = none ↔ inv ∉ c.invitations := by
  simp [nodeFor?, invitations]

theorem exists_nodeFor? (h : inv ∈ c.invitations) : ∃ node, c.nodeFor? inv = some node := by
  rw [← Option.isSome_iff_exists, Option.isSome_iff_ne_none, ne_eq, nodeFor?_eq_none]
  simpa using h

theorem IdsOk.node_id_nonneg (h : c.IdsOk) {node : InvitationNode}
    (hnode : c.nodeFor? inv = some node) : 0 ≤ node.id :=
  (h.range node.id (List.mem_map_of_mem (List.mem_of_find?_eq_some hnode))).1

theorem unlink_of_not_mem (h : inv ∉ c.invitations) : c.unlink inv = c := by
  unfold unlink
  rw [nodeFor?_eq_none.mpr h]

@[simp]
theorem unlink_inviteHead
    : (c.unlink inv).inviteHead = c.inviteHead.eraseP (·.invitation = inv) := by
  unfold unlink
  split
  . rfl
  . next h =>
    rw [nodeFor?_eq_none] at h
    rw [List.eraseP_of_forall_not]
    intro node hnode
    simp only [decide_eq_true_eq]
    intro heq
    exact h (List.mem_map.mpr ⟨node, hnode, heq⟩)

theorem unlink_invitations : (c.unlink inv).invitations = c.invitations.erase inv := by
  unfold invitations
  rw [unlink_inviteHead]
  generalize c.inviteHead = l
  induction l with
  | nil => rfl
  | cons node l ih =>
    by_cases heq : node.invitation = inv
    . simp [heq]
    . rw [List.eraseP_cons_of_neg (by simpa using heq), List.map_cons, List.map_cons, ih,
        List.erase_cons_tail (by simpa using heq)]

theorem IdsOk.unlink (h : c.IdsOk) (inv : InvitationPtr) : (c.unlink inv).IdsOk := by
  cases hnode : c.nodeFor? inv with
  | none =>
    rw [unlink_of_not_mem (nodeFor?_eq_none.mp hnode)]
    exact h
  | some node =>
    obtain ⟨-, before, after, hsplit, herase⟩ := nodeFor?_eq_some hnode
    have hold : c.ids = before.map (·.id) ++ node.id :: after.map (·.id) := by
      simp [ids, hsplit]
    have hmem : node.id ∈ c.ids := by simp [hold]
    have hperm : c.ids.Perm (node.id :: (before.map (·.id) ++ after.map (·.id))) := by
      rw [hold]
      exact List.perm_middle
    have hnodup := hperm.nodup_iff.mp h.nodup
    rw [List.nodup_cons] at hnodup
    have hnode' := h.range node.id hmem
    have hnew : (c.unlink inv).ids = before.map (·.id) ++ after.map (·.id) := by
      simp [ids, herase]
    have hunlink : c.unlink inv =
        { c with inviteHead := before ++ after }.putId node.id := by
      simp [Client.unlink, eraseNode, hnode, herase]
    constructor
    . simp [hunlink, putId, h.length_eq]
    . simpa [hunlink, putId] using h.size_pos
    . intro i hi
      rw [hnew]
      simp only [hunlink, putId] at hi ⊢
      rw [List.getElem?_set]
      split
      . next heq =>
        subst heq
        rw [if_pos (by rw [h.length_eq]; exact hi), Int.toNat_of_nonneg hnode'.1,
          if_neg hnodup.1]
      . next hne =>
        have hmem' : (i : Int) ∈ c.ids ↔ (i : Int) ∈ before.map (·.id) ++ after.map (·.id) := by
          rw [hperm.mem_iff, List.mem_cons]
          have : (i : Int) ≠ node.id := by omega
          simp only [this, false_or]
        rw [h.slot i hi]
        simp only [hmem']
    . intro id hid
      rw [hnew] at hid
      simp only [hunlink, putId]
      exact h.range id (hperm.mem_iff.mpr (List.mem_cons_of_mem _ hid))
    . rw [hnew]
      exact hnodup.2
    . rw [hnew]
      have hlen := hperm.length_eq
      have hu := h.usage
      simp only [List.length_cons] at hlen
      simp only [hunlink, putId]
      omega

end Client

end Jeux
