import Jeux.Lemmas.Logout

/-!
The ids that packets carry. A node keeps its id as long as it is in the list, so a packet that named
an invitation once names it until it leaves the list, if the id fits into the header.
-/

namespace Jeux

open ServerM

namespace Client

variable {c : Client} {inv : InvitationPtr} {node : InvitationNode}

theorem IdsOk.nodeWithId?_of_mem (h : c.IdsOk) (hnode : node ∈ c.inviteHead)
    : c.nodeWithId? node.id = some node := by
  have hsome : (c.inviteHead.find? (·.id = node.id)).isSome := by
    rw [List.find?_isSome]
    exact ⟨node, hnode, by simp⟩
  obtain ⟨node', hfind⟩ := Option.isSome_iff_exists.mp hsome
  have hmem := List.mem_of_find?_eq_some hfind
  have hid := List.find?_some hfind
  simp only [decide_eq_true_eq] at hid
  unfold nodeWithId?
  rw [hfind, List.inj_on_of_nodup_map h.nodup hmem hnode hid]

theorem IdsOk.byte_iff (h : c.IdsOk) (hnodup : c.invitations.Nodup) (hnode : node ∈ c.inviteHead)
    : (c.nodeWithId? (UInt8.ofInt node.id).toNat).map (·.invitation) = some node.invitation
        ↔
      node.id < 256 := by
  have hnonneg := (h.range node.id (List.mem_map_of_mem hnode)).1
  have hbyte : ((UInt8.ofInt node.id).toNat : Int) = node.id % 256 := by
    simp only [UInt8.ofInt, UInt8.toNat_ofNat']
    omega
  rw [hbyte]
  constructor
  . intro hfound
    obtain ⟨node', hfind, hsame⟩ := Option.map_eq_some_iff.mp hfound
    have hmem := List.mem_of_find?_eq_some hfind
    have hid := List.find?_some hfind
    simp only [decide_eq_true_eq] at hid
    have heq : node' = node := List.inj_on_of_nodup_map hnodup hmem hnode hsame
    rw [heq] at hid
    omega
  . intro hlt
    rw [Int.emod_eq_of_lt hnonneg hlt, h.nodeWithId?_of_mem hnode, Option.map_some]

theorem nodeFor?_of_mem (hnodup : c.invitations.Nodup) (hnode : node ∈ c.inviteHead)
    : c.nodeFor? node.invitation = some node := by
  obtain ⟨node', hfind⟩ := exists_nodeFor? (c := c) (List.mem_map_of_mem hnode)
  have hmem := List.mem_of_find?_eq_some hfind
  have hsame := (nodeFor?_eq_some hfind).1
  rw [hfind, List.inj_on_of_nodup_map hnodup hmem hnode hsame]

end Client

namespace Store

variable {s s' s'' : Store} {extra : ClientPtr → Nat} {client : ClientPtr} {inv : InvitationPtr}
  {c : Client} {node : InvitationNode}

/--
The id of an invitation in the list of a client. When it is not in the list, the id it would get.
-/
def numberFor (s : Store) (client : ClientPtr) (inv : InvitationPtr) : Int :=
  match s.clients.get? client with
  | some c =>
    match c.nodeFor? inv with
    | some node => node.id
    | none => c.nextId
  | none => -1

theorem mem_nodesOf
    : node ∈ s.nodesOf client inv
        ↔
      ∃ c, s.clients.get? client = some c ∧ node ∈ c.inviteHead ∧ node.invitation = inv := by
  unfold nodesOf
  cases hc : s.clients.get? client with
  | none => simp
  | some c => simp [Client.mem_nodesFor]

theorem Valid.numberFor_node (hv : s.Valid extra) (hnode : node ∈ s.nodesOf client inv)
    : s.numberFor client inv = node.id ∧ s.idOf client inv = node.id := by
  obtain ⟨c, hc, hmem, rfl⟩ := mem_nodesOf.mp hnode
  have hfind := Client.nodeFor?_of_mem (hv.client client c hc).nodup hmem
  constructor
  . simp only [numberFor, hc, hfind]
  . simp only [idOf, hc, Option.bind_some, hfind]

theorem Valid.node_of_invitationOf (hv : s.Valid extra) {id : Int}
    (hid : s.invitationOf client id = some inv) : s.idOf client inv = id := by
  obtain ⟨c, hc, hnode⟩ := Option.bind_eq_some_iff.mp hid
  obtain ⟨node, hfind, rfl⟩ := Option.map_eq_some_iff.mp hnode
  have hmem := List.mem_of_find?_eq_some hfind
  have heq := List.find?_some hfind
  simp only [decide_eq_true_eq] at heq
  rw [← heq]
  exact (hv.numberFor_node (mem_nodesOf.mpr ⟨c, hc, hmem, rfl⟩)).2

theorem Valid.numberFor_fresh (hv : s.Valid extra) (hc : s.clients.get? client = some c)
    : s.numberFor client s.invitations.next = c.nextId := by
  have hnot : s.invitations.next ∉ c.invitations := by
    intro hmem
    obtain ⟨i, hi, -⟩ := (hv.client client c hc).mine _ hmem
    simp at hi
  simp only [numberFor, hc, Client.nodeFor?_eq_none.mpr hnot]

/-! ## Lists in the course of time -/

structure Ages (s s' : Store) : Prop where
  next : s.invitations.next ≤ s'.invitations.next
  nodes : ∀ x inv, inv < s.invitations.next → s'.nodesOf x inv ⊆ s.nodesOf x inv

theorem Ages.refl (s : Store) : s.Ages s := ⟨Nat.le_refl _, fun _ _ _ => List.Subset.refl _⟩

theorem Ages.trans (h : s.Ages s') (h' : s'.Ages s'') : s.Ages s'' where
  next := Nat.le_trans h.next h'.next
  nodes := fun x inv hinv =>
    List.Subset.trans (h'.nodes x inv (Nat.lt_of_lt_of_le hinv h.next)) (h.nodes x inv hinv)

theorem Ages.of_lists (hnext : s.invitations.next ≤ s'.invitations.next)
    (hlists : ∀ x c', s'.clients.get? x = some c' →
      c'.inviteHead ⊆ ((s.clients.get? x).map (·.inviteHead)).getD []) : s.Ages s' where
  next := hnext
  nodes := by
    intro x inv _ node hnode
    obtain ⟨c', hc', hmem, hinv⟩ := mem_nodesOf.mp hnode
    have hold := hlists x c' hc' hmem
    cases hc : s.clients.get? x with
    | none => simp [hc] at hold
    | some c =>
      simp only [hc, Option.map_some, Option.getD_some] at hold
      exact mem_nodesOf.mpr ⟨c, hc, hold, hinv⟩

theorem Ages.of_clients (hnext : s.invitations.next ≤ s'.invitations.next)
    (hclients : s'.clients = s.clients) : s.Ages s' := by
  apply Ages.of_lists hnext
  intro x c' hc'
  rw [hclients] at hc'
  rw [hc', Option.map_some, Option.getD_some]
  exact List.Subset.refl _

theorem Ages.modify (s : Store) (client : ClientPtr) (f : Client → Client)
    (hf : ∀ c, (f c).inviteHead ⊆ c.inviteHead) : s.Ages (s.modifyClient client f) := by
  refine Ages.of_lists (by exact Nat.le_refl _) fun x c' hc' => ?_
  rw [modifyClient_clients] at hc'
  obtain ⟨c, hc, rfl⟩ := Heap.get?_modify_eq_some.mp hc'
  rw [hc, Option.map_some, Option.getD_some]
  split
  . exact hf c
  . exact List.Subset.refl _

theorem ages_unlink (s : Store) (client : ClientPtr) (inv : InvitationPtr)
    : s.Ages (s.unlink client inv) := by
  refine (Ages.modify s client (·.unlink inv) fun c => ?_).trans (Ages.of_clients ?_ rfl)
  . rw [Client.unlink_inviteHead]
    exact List.eraseP_subset
  . simp

theorem ages_free (s : Store) (client : ClientPtr) (f : Client → Client)
    : s.Ages { s with clients := (s.clients.modify client f).free client } := by
  refine Ages.of_lists (by exact Nat.le_refl _) fun x c' hc' => ?_
  dsimp only at hc'
  by_cases heq : x = client
  . subst heq
    simp at hc'
  . rw [Heap.get?_free_ne heq, Heap.get?_modify_ne heq] at hc'
    rw [hc', Option.map_some, Option.getD_some]
    exact List.Subset.refl _

theorem ages_release (s : Store) (inv : InvitationPtr) (i : Invitation)
    : s.Ages (s.release inv i) := by
  have hdrop (client : ClientPtr) (s : Store) : s.Ages (s.modifyClient client Client.dropRef) :=
    Ages.modify s client _ fun _ => List.Subset.refl _
  refine ((hdrop i.source s).trans (hdrop i.target _)).trans (Ages.of_clients ?_ rfl)
  simp [release]

theorem ages_drop (s : Store) (client : ClientPtr) (inv : InvitationPtr)
    : s.Ages (s.drop client inv) := by
  unfold drop
  split
  . split
    . exact (ages_unlink s client inv).trans (ages_release _ inv _)
    . exact ages_unlink s client inv
  . exact .refl s

theorem ages_dissolve (s : Store) (client opponent : ClientPtr) (inv : InvitationPtr)
    : s.Ages (s.dissolve client opponent inv) :=
  (ages_drop s client inv).trans (ages_drop _ opponent inv)

theorem ages_close (s : Store) (inv : InvitationPtr) : s.Ages (s.close inv) :=
  .of_clients (by simp) rfl

theorem ages_post (s : Store) (expected : Int → Rat) (result : PostedResult)
    : s.Ages (s.post expected result) := .of_clients (by simp) (by simp)

theorem ages_invite (s : Store) (source target : ClientPtr) (sourceRole targetRole : GameRole)
    : s.Ages (s.invite source target sourceRole targetRole) where
  next := by simp [invite]
  nodes := by
    intro x inv hinv
    rw [(sameAt_invite s source target sourceRole targetRole (Nat.ne_of_lt hinv)).nodes x]
    exact List.Subset.refl _

theorem Valid.node_of_invite (hv : s.Valid extra) {source target x : ClientPtr}
    {sourceRole targetRole : GameRole} (hne : source ≠ target) (hx : x = source ∨ x = target)
    (hc : s.clients.get? x = some c)
    (hnode : node ∈ (s.invite source target sourceRole targetRole).nodesOf x s.invitations.next)
    : node.id = c.nextId := by
  have hnot : s.invitations.next ∉ c.invitations := by
    intro hmem
    obtain ⟨i, hi, -⟩ := (hv.client x c hc).mine _ hmem
    simp at hi
  have hlinked : (s.invite source target sourceRole targetRole).clients.get? x
      = some (c.link s.invitations.next).addRef := by
    unfold Store.invite
    dsimp only
    rcases hx with rfl | rfl
    . rw [Heap.get?_modify_ne hne, Heap.get?_modify_self, hc, Option.map_some]
    . rw [Heap.get?_modify_self, Heap.get?_modify_ne hne.symm, hc, Option.map_some]
  obtain ⟨c', hc', hmem, hinv⟩ := mem_nodesOf.mp hnode
  obtain rfl := Option.some.inj (hlinked.symm.trans hc')
  have hlist : node ∈ { id := c.nextId, invitation := s.invitations.next } :: c.inviteHead := hmem
  rcases List.mem_cons.mp hlist with rfl | hold
  . rfl
  . exact absurd (hinv ▸ List.mem_map_of_mem hold) hnot

theorem ages_resign (s : Store) (inv : InvitationPtr) (game : GamePtr) (role : GameRole)
    : s.Ages (s.resign inv game role) := .of_clients (by simp) rfl

end Store

def World.sentSince (w w' : World) : List SentPacket := w'.trace.sent.drop w.trace.sent.length

section

variable {env : Env} {w w' : World} {extra : ClientPtr → Nat} {client : ClientPtr} {op : Operation}
  {r : Int} {sent : SentPacket}

theorem Effect.ages (h : Effect env w client op r w') : w.store.Ages w'.store := by
  cases h with
  | refused => exact .refl _
  | made => exact Store.ages_invite ..
  | revokeUnsent => exact Store.ages_close ..
  | revoked => exact (Store.ages_close ..).trans (Store.ages_dissolve ..)
  | revokedByTarget => exact (Store.ages_close ..).trans (Store.ages_drop ..)
  | declined => exact (Store.ages_close ..).trans (Store.ages_dissolve ..)
  | declinedBySource => exact (Store.ages_close ..).trans (Store.ages_drop ..)
  | acceptNoRoom => exact .of_clients (by simp) rfl
  | accepted => exact .of_clients (by simp [Store.accept]) rfl
  | resignUnsent => exact Store.ages_resign ..
  | resigned =>
    exact ((Store.ages_resign ..).trans (Store.ages_post ..)).trans (Store.ages_dissolve ..)
  | moveUnsent => exact .of_clients (by simp [World.moved]) rfl
  | moved => exact .of_clients (by simp [World.moved]) rfl
  | endUnsent => exact .of_clients (by simp [endedOnce, World.ended, World.moved]) rfl
  | endUnsentSelf =>
    exact .of_clients (by simp [endedTwice, endedOnce, World.ended, World.moved]) rfl
  | @finished id text inv i game g move c co player playero =>
    have hplay : w.store.Ages (w.store.play game move) := .of_clients (by simp) rfl
    exact (hplay.trans (Store.ages_post ..)).trans (Store.ages_dissolve ..)

theorem Effect.made_of_ne {target : ClientPtr} {sourceRole targetRole : GameRole}
    (h : Effect env w client (.make target sourceRole targetRole) r w')
    (hdone : r ≠ -1 ∨ w.sentSince w' ≠ [])
    : ∃ cs ct, w.store.clients.get? client = some cs ∧ w.store.clients.get? target = some ct
        ∧ r = cs.nextId ∧ w'.store = w.store.invite client target sourceRole targetRole := by
  cases h with
  | refused => simp [World.sentSince] at hdone
  | made n halloc hcs hct => exact ⟨_, _, hcs, hct, rfl, rfl⟩

/--
A packet that an operation sends carries the id its receiver has for the invitation. For a new
invitation this is the id it gets.
-/
theorem Effect.notice (h : Effect env w client op r w') (hv : w.store.Valid extra)
    (hsent : sent ∈ w.sentSince w')
    : ∃ inv, op.subject? w.store client = some inv
        ∧ ((∃ target sourceRole targetRole ct, op = .make target sourceRole targetRole
              ∧ sent.receiver = target ∧ w.store.clients.get? target = some ct
              ∧ sent.hdr.id = UInt8.ofInt ct.nextId)
          ∨ (inv < w.store.invitations.next
              ∧ sent.hdr.id = UInt8.ofInt (w.store.idOf sent.receiver inv))) := by
  unfold World.sentSince at hsent
  have hnext : ∀ inv i, w.store.invitations.get? inv = some i → inv < w.store.invitations.next :=
    fun inv i hi => Heap.lt_next_of_get? hi
  cases h with
  | refused => simp at hsent
  | @made target cs ct sourceRole targetRole player p n halloc hcs hct hplayer hp =>
    simp only [Trace.send, List.drop_left, List.mem_singleton] at hsent
    subst hsent
    exact ⟨_, rfl, .inl ⟨target, sourceRole, targetRole, ct, rfl, rfl, hct, rfl⟩⟩
  | revokeUnsent hopen | revoked hopen | revokedByTarget hopen | declined hopen
  | declinedBySource hopen | accepted hopen =>
    simp only [Trace.send, List.drop_left, List.mem_singleton] at hsent
    subst hsent
    exact ⟨_, hopen.named, .inr ⟨hnext _ _ hopen.invitation, rfl⟩⟩
  | acceptNoRoom => simp at hsent
  | resignUnsent hplay | resigned hplay =>
    simp only [World.conclude, Trace.send, List.drop_left, List.mem_singleton] at hsent
    subst hsent
    exact ⟨_, hplay.named, .inr ⟨hnext _ _ hplay.invitation, rfl⟩⟩
  | moveUnsent hmove | moved hmove =>
    simp only [World.moved, Trace.send, List.drop_left, List.mem_singleton] at hsent
    subst hsent
    exact ⟨_, hmove.named, .inr ⟨hnext _ _ hmove.invitation, rfl⟩⟩
  | endUnsent hmove =>
    simp only [endedOnce, World.ended, World.moved, Trace.send, List.append_assoc, List.drop_left,
      List.mem_append, List.mem_singleton] at hsent
    rcases hsent with rfl | rfl
    all_goals exact ⟨_, hmove.named, .inr ⟨hnext _ _ hmove.invitation, rfl⟩⟩
  | endUnsentSelf hmove | finished hmove =>
    -- the copy for the client itself carries the id of the request
    have hself := hv.node_of_invitationOf hmove.named
    simp only [World.conclude, endedTwice, endedOnce, World.ended, World.moved, Trace.send,
      List.append_assoc, List.drop_left, List.mem_append, List.mem_singleton] at hsent
    rcases hsent with rfl | rfl | rfl
    . exact ⟨_, hmove.named, .inr ⟨hnext _ _ hmove.invitation, rfl⟩⟩
    . exact ⟨_, hmove.named, .inr ⟨hnext _ _ hmove.invitation, rfl⟩⟩
    . exact ⟨_, hmove.named, .inr ⟨hnext _ _ hmove.invitation, by rw [hself]⟩⟩

end

end Jeux
