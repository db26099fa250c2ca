import Jeux.Concurrent.HandlersSound
import Jeux.Lemmas.News

/-!
The order in which a client that invites somebody hears of its invitation: first the ACK that tells
it the id, then what becomes of the invitation. Since the invitee can answer as soon as
`client_make_invitation` has returned, the threads have to be lucky.
-/

namespace Jeux

open ServerM

/-! ## The order -/

structure Entry.Announces (e : Entry) (inv : InvitationPtr) (inviter : ClientPtr) (id : Byte)
    : Prop where
  about : e.about = some (inv, inviter)
  receiver : e.packet.receiver = inviter
  type : e.packet.hdr.type = PacketType.ack.toByte
  id : e.packet.hdr.id = id
  written : e.packet.written = true

def Told (history : List Entry) (inv : InvitationPtr) (inviter : ClientPtr) (id : Byte) : Prop :=
  ∃ e ∈ history, e.Announces inv inviter id

/--
News of an invitation reaches the client that made it after the ACK.
-/
def AckFirst (history : List Entry) : Prop :=
  ∀ (k : Nat) e inv inviter, history[k]? = some e → e.about = some (inv, inviter) →
    e.packet.receiver = inviter → IsNews e.packet.hdr.type → e.packet.written = true →
    Told (history.take k) inv inviter e.packet.hdr.id

def Entry.Timely (history : List Entry) (e : Entry) : Prop :=
  ∀ inv inviter, e.about = some (inv, inviter) → e.packet.receiver = inviter →
    IsNews e.packet.hdr.type → Told history inv inviter e.packet.hdr.id

theorem Told.mono {history : List Entry} {inv : InvitationPtr} {inviter : ClientPtr} {id : Byte}
    (h : Told history inv inviter id) (entries : List Entry)
    : Told (history ++ entries) inv inviter id := by
  obtain ⟨e, he, hannounces⟩ := h
  exact ⟨e, List.mem_append_left _ he, hannounces⟩

theorem AckFirst.append {history entries : List Entry} (h : AckFirst history)
    (hentries : ∀ e ∈ entries, e.Timely history) : AckFirst (history ++ entries) := by
  intro k e inv inviter hk habout hreceiver hnews hwritten
  by_cases hlt : k < history.length
  . rw [List.getElem?_append_left hlt] at hk
    rw [List.take_append_of_le_length (Nat.le_of_lt hlt)]
    exact h k e inv inviter hk habout hreceiver hnews hwritten
  . have hle : history.length ≤ k := by omega
    rw [List.getElem?_append_right hle] at hk
    have htold := hentries e (List.mem_of_getElem? hk) inv inviter habout hreceiver hnews
    rw [List.take_append, List.take_of_length_le hle]
    exact htold.mono _

/-! ## Waiting for the ACK -/

namespace Interleaved

def Awaiting (threads : ClientPtr → Option Thread) (client : ClientPtr) (inv : InvitationPtr)
    (id : Int) : Prop :=
  ∃ t, threads client = some t ∧ t.phase = .acknowledge (some inv) id

def awaits (σ : Interleaved) (inv : InvitationPtr) : Bool :=
  match σ.world.store.invitations.get? inv with
  | some i =>
    match σ.threads i.source with
    | some ⟨_, .acknowledge (some inv') _⟩ => i.state = .openState ∧ inv' = inv
    | _ => false
  | none => false

/--
An event does not disturb a client that waits for the ACK of its invitation: nobody answers the
invitation or ends the session in which it was received, and the ACK can be written.
-/
def Patient (env : Env) (σ : Interleaved) : HandlerEvent → Prop
  | .go client =>
    match σ.threads client with
    | some ⟨_, .operation (.accept id)⟩ | some ⟨_, .operation (.decline id)⟩ =>
      ∀ inv ∈ σ.world.store.invitationOf client id, σ.awaits inv = false
    | some ⟨_, .logout⟩ =>
      ∀ node ∈ σ.world.store.logoutNodes client, σ.awaits node.invitation = false
    | some ⟨_, .acknowledge (some _) _⟩ => env.sendOk σ.world.trace.sent.length = true
    | _ => True
  | _ => True

instance (env : Env) (σ : Interleaved) (e : HandlerEvent) : Decidable (σ.Patient env e) := by
  unfold Patient
  split
  . split <;> infer_instance
  . infer_instance

/--
What holds when nobody is disturbed. The source of an invitation has been sent the ACK, or is about to
be, and until then nobody has answered.
-/
structure Ordered (σ : Interleaved) : Prop where
  awaited : ∀ client inv id, Awaiting σ.threads client inv id →
    inv < σ.world.store.invitations.next ∧ ∀ i, σ.world.store.invitations.get? inv = some i →
      i.source = client ∧ i.game = none
  told : ∀ inv i node, σ.world.store.invitations.get? inv = some i →
    node ∈ σ.world.store.nodesOf i.source inv →
    Told σ.history inv i.source (UInt8.ofInt node.id) ∨ Awaiting σ.threads i.source inv node.id
  first : AckFirst σ.history

variable {env : Env} {σ σ' : Interleaved} {e : HandlerEvent} {client : ClientPtr}
  {inv : InvitationPtr} {i : Invitation}

theorem Ordered.next (h : σ.Ordered) (hages : σ.world.store.Ages σ'.world.store)
    (hends : σ.world.store.KeepsEnds σ'.world.store fun u => ¬ ∃ c id, Awaiting σ.threads c u id)
    (hhistory : ∃ entries, σ'.history = σ.history ++ entries ∧ ∀ e ∈ entries, e.Timely σ.history)
    (hnow : ∀ c u id, Awaiting σ'.threads c u id → Awaiting σ.threads c u id
      ∨ (u = σ.world.store.invitations.next ∧ u < σ'.world.store.invitations.next
        ∧ ∀ i, σ'.world.store.invitations.get? u = some i → i.source = c ∧ i.game = none))
    (hthen : ∀ c u id, Awaiting σ.threads c u id →
      Awaiting σ'.threads c u id ∨ Told σ'.history u c (UInt8.ofInt id))
    (hnew : ∀ u i node, σ.world.store.invitations.next ≤ u →
      σ'.world.store.invitations.get? u = some i → node ∈ σ'.world.store.nodesOf i.source u →
      Awaiting σ'.threads i.source u node.id)
    : σ'.Ordered := by
  obtain ⟨entries, hentries, htimely⟩ := hhistory
  constructor
  . intro c u id hawaiting
    rcases hnow c u id hawaiting with hold | ⟨-, hlt, hfresh⟩
    . obtain ⟨hlt, hsource⟩ := h.awaited c u id hold
      refine ⟨Nat.lt_of_lt_of_le hlt hages.next, fun i' hi' => ?_⟩
      obtain ⟨i, hi, hsame, -, hgame⟩ := hends.ends u i' hlt hi'
      obtain ⟨hc, hnone⟩ := hsource i hi
      refine ⟨hsame.trans hc, Classical.byContradiction fun hne => ?_⟩
      rcases hgame hne with hne' | hno
      . exact hne' hnone
      . exact hno ⟨c, id, hold⟩
    . exact ⟨hlt, hfresh⟩
  . intro u i' node hi' hnode
    by_cases hlt : u < σ.world.store.invitations.next
    . obtain ⟨i, hi, hsame, -, -⟩ := hends.ends u i' hlt hi'
      rw [hsame] at hnode ⊢
      rcases h.told u i node hi (hages.nodes _ u hlt hnode) with htold | hawaiting
      . rw [hentries]
        exact .inl (htold.mono entries)
      . exact (hthen _ u _ hawaiting).symm
    . exact .inr (hnew u i' node (by omega) hi' hnode)
  . rw [hentries]
    exact h.first.append htimely

theorem Ordered.quiet (h : σ.Ordered) (hages : σ.world.store.Ages σ'.world.store)
    (hinvitations : σ'.world.store.invitations = σ.world.store.invitations)
    (hhistory : ∃ entries, σ'.history = σ.history ++ entries ∧ ∀ e ∈ entries, e.about = none)
    (hthreads : ∀ c u id, Awaiting σ'.threads c u id ↔ Awaiting σ.threads c u id)
    : σ'.Ordered := by
  apply h.next hages (.of_eq hinvitations)
  . obtain ⟨entries, hentries, hnone⟩ := hhistory
    refine ⟨entries, hentries, fun e he inv inviter habout => ?_⟩
    rw [hnone e he] at habout
    cases habout
  . exact fun c u id hawaiting => .inl ((hthreads c u id).mp hawaiting)
  . exact fun c u id hawaiting => .inl ((hthreads c u id).mpr hawaiting)
  . intro u i node hle hi _
    rw [hinvitations] at hi
    have := Heap.lt_next_of_get? hi
    omega

end Interleaved

def Phase.Elsewhere (phase : Phase) : Prop := ∀ inv id, phase ≠ .acknowledge (some inv) id

theorem Phase.Early.elsewhere {phase : Phase} (h : phase.Early) : phase.Elsewhere := by
  rintro inv id rfl
  exact h

def Phase.Inviting : Phase → Prop
  | .invite _ _ | .acknowledge _ _ | .operation _ | .logout => True
  | _ => False

theorem Stepped.quiet {env : Env} {client : ClientPtr} {w w' : World} {t : Thread}
    {t' : Option Thread} (h : Stepped env client w t t' w') (hphase : ¬ t.phase.Inviting)
    : w'.store.invitations = w.store.invitations ∧ w.store.Ages w'.store
        ∧ t.phase.entries env client w w' = entriesAbout (w.sentSince w') none
        ∧ t.phase.Elsewhere ∧ ∀ t'' ∈ t', t''.phase.Elsewhere := by
  have hold : t.phase.Elsewhere := by
    rintro inv id heq
    rw [heq] at hphase
    exact hphase trivial
  cases h with
  | refused | taken | listed | unfound | waits | nacked | acked =>
    exact ⟨rfl, .refl _, rfl, hold, by simp [Phase.Elsewhere]⟩
  | noRoom hstore =>
    rcases hstore with h | ⟨p, h⟩
    . rw [h]
      exact ⟨rfl, .refl _, rfl, hold, by simp [Phase.Elsewhere]⟩
    . rw [h]
      exact ⟨rfl, .of_clients (by exact Nat.le_refl _) rfl, rfl, hold, by simp [Phase.Elsewhere]⟩
  | enlisted =>
    exact ⟨Store.enlist_invitations .., Store.ages_enlist .., rfl, hold, by simp [Phase.Elsewhere]⟩
  | entered => exact ⟨by simp, Store.ages_login .., rfl, hold, by simp [Phase.Elsewhere]⟩
  | found =>
    exact ⟨rfl, Store.Ages.modify _ _ _ fun _ => List.Subset.refl _, rfl, hold,
      by simp [Phase.Elsewhere]⟩
  | unreffed =>
    exact ⟨(Store.unrefClient_registry _ _).2.2, Store.ages_unrefClient .., rfl, hold,
      by simp [Phase.Elsewhere]⟩
  | unregistered =>
    exact ⟨(Store.unrefClient_registry _ _).2.2, Store.ages_unregister .., rfl, hold, by simp⟩
  | uninvited | invited | acknowledged | operated | loggedOut => exact absurd trivial hphase

namespace Interleaved

variable {env : Env} {σ σ' : Interleaved} {e : HandlerEvent} {client : ClientPtr} {t : Thread}
  {t' : Option Thread} {w w' : World} {inv : InvitationPtr} {i : Invitation}

theorem awaiting_update {threads : ClientPtr → Option Thread}
    (hbefore : ∀ t, threads client = some t → t.phase.Elsewhere)
    (hafter : ∀ t'' ∈ t', t''.phase.Elsewhere) (c : ClientPtr) (u : InvitationPtr) (id : Int)
    : Awaiting (Function.update threads client t') c u id ↔ Awaiting threads c u id := by
  unfold Awaiting
  by_cases heq : c = client
  . subst heq
    rw [Function.update_self]
    constructor
    . rintro ⟨t, ht, hphase⟩
      exact absurd hphase (hafter t ht u id)
    . rintro ⟨t, ht, hphase⟩
      exact absurd hphase (hbefore t ht u id)
  . rw [Function.update_of_ne heq]

theorem about_of_mem_entriesAbout {sent : List SentPacket}
    {about : Option (InvitationPtr × ClientPtr)} {e : Entry} (he : e ∈ entriesAbout sent about)
    : e.packet ∈ sent ∧ e.about = about := by
  obtain ⟨packet, hpacket, rfl⟩ := List.mem_map.mp he
  exact ⟨hpacket, rfl⟩

theorem withInviter_eq_some {s : Store} {inviter : ClientPtr} {u : InvitationPtr}
    (h : s.withInviter u = some (inv, inviter))
    : u = inv ∧ ∃ i, s.invitations.get? inv = some i ∧ i.source = inviter := by
  obtain ⟨i, hi, heq⟩ := Option.map_eq_some_iff.mp h
  obtain ⟨rfl, rfl⟩ := Prod.mk.inj heq
  exact ⟨rfl, i, hi, rfl⟩

theorem logoutEntries_news {extra : ClientPtr → Nat} {c : Client} {nodes : List InvitationNode}
    (hholds : w.store.Holds extra client) (hc : w.store.clients.get? client = some c)
    (hnodes : ∀ node ∈ nodes, node ∈ c.inviteHead) (hnodup : (nodes.map (·.invitation)).Nodup)
    (hrun : (logoutLoop client nodes).run env w = .ok ((), w'))
    : ∀ e ∈ logoutEntries env client nodes w, IsNews e.packet.hdr.type →
        ∀ inv inviter, e.about = some (inv, inviter) → inv ∈ nodes.map (·.invitation)
          ∧ (∃ i, w.store.invitations.get? inv = some i ∧ i.source = inviter
            ∧ (i.state = .openState ∨ i.game ≠ none))
          ∧ ∃ node ∈ w.store.nodesOf e.packet.receiver inv,
            e.packet.hdr.id = UInt8.ofInt node.id := by
  induction nodes generalizing w c with
  | nil => simp [logoutEntries]
  | cons node rest ih =>
    rw [logoutLoop, run_bind] at hrun
    split at hrun
    . next w₁ hrun₁ =>
      obtain ⟨i, r, hi, heffect, -⟩ := logoutNode_holds hholds hrun₁
      have hholds₁ := heffect.holds hholds (hholds.allowed (logoutOp_ne_make client i node.id))
      obtain ⟨c₁, hc₁, hrest⟩ := heffect.nodes_mem hholds.valid hholds.linked hc hnodes hnodup
      have hnode := hnodes node (List.mem_cons_self ..)
      have hsubject : (logoutOp client i node.id).subject? w.store client
          = some node.invitation := by
        rw [subject?_logoutOp, hholds.valid.invitationOf_node hc hnode]
      have hnodup' := List.nodup_cons.mp hnodup
      intro e he hnews inv inviter habout
      simp only [logoutEntries, hrun₁, List.mem_append] at he
      rcases he with he | he
      . obtain ⟨hsent, heq⟩ := about_of_mem_entriesAbout he
        rw [heq] at habout
        obtain ⟨rfl, i', hi', hsource⟩ := withInviter_eq_some habout
        obtain ⟨u, iu, node', hsubject', hiu, hnode', hid, hanswer⟩ :=
          heffect.news hholds.valid hholds.linked hsent hnews
        obtain rfl := Option.some.inj (hsubject.symm.trans hsubject')
        obtain rfl := Option.some.inj (hi'.symm.trans hiu)
        exact ⟨List.mem_cons_self .., ⟨i', hi', hsource, hanswer.imp_left And.right⟩, node', hnode',
          hid⟩
      . obtain ⟨hmem, ⟨i', hi', hstate⟩, node', hnode', hid⟩ :=
          ih hholds₁ hc₁ hrest hnodup'.2 hrun e he hnews inv inviter habout
        have hsame : w.store.SameAt w₁.store inv := by
          apply heffect.sameAt hholds.valid hholds.linked
          rw [hsubject]
          rintro heq
          obtain rfl := Option.some.inj heq
          exact hnodup'.1 hmem
        rw [hsame.invitation] at hi'
        rw [hsame.nodes] at hnode'
        exact ⟨List.mem_cons_of_mem _ hmem, ⟨i', hi', hstate⟩, node', hnode', hid⟩
    . simp at hrun

theorem Ordered.not_awaiting (h : σ.Ordered) (hi : σ.world.store.invitations.get? inv = some i)
    (hopen : i.state = .openState) (hno : σ.awaits inv = false)
    : ¬ ∃ c id, Awaiting σ.threads c inv id := by
  rintro ⟨c, id, hawaiting⟩
  obtain ⟨hsource, -⟩ := (h.awaited c inv id hawaiting).2 i hi
  obtain ⟨⟨gate, phase⟩, ht, hphase⟩ := hawaiting
  dsimp only at hphase
  subst hphase hsource
  simp [awaits, hi, hopen, ht] at hno

def went (env : Env) (σ : Interleaved) (client : ClientPtr) (t : Thread) (t' : Option Thread)
    (w' : World) : Interleaved where
  world := w'
  threads := Function.update σ.threads client t'
  history := σ.history ++ t.phase.entries env client σ.world w'

theorem Ordered.went_quiet (h : σ.Ordered) (ht : σ.threads client = some t)
    (hstep : Stepped env client σ.world t t' w') (hphase : ¬ t.phase.Inviting)
    : (σ.went env client t t' w').Ordered := by
  obtain ⟨hinvitations, hages, hentries, hbefore, hafter⟩ := hstep.quiet hphase
  apply h.quiet hages hinvitations
  . refine ⟨_, rfl, fun e he => ?_⟩
    rw [hentries] at he
    exact (about_of_mem_entriesAbout he).2
  . intro c u id
    apply awaiting_update _ hafter
    intro t₁ ht₁
    obtain rfl := Option.some.inj (ht.symm.trans ht₁)
    exact hbefore

theorem Ordered.went_refused (h : σ.Ordered) {gate : Int} {invitee : ClientPtr} {hdr : PacketHeader}
    (ht : σ.threads client = some ⟨gate, .invite invitee hdr⟩) (n : Nat) {t'' : Thread}
    (hafter : t''.phase.Elsewhere)
    : (σ.went env client ⟨gate, .invite invitee hdr⟩ (some t'')
        { σ.world with trace.allocs := n }).Ordered := by
  refine h.quiet ?_ ?_ ?_ ?_
  . exact .refl _
  . rfl
  . refine ⟨_, rfl, fun e he => ?_⟩
    simp [Phase.entries, entriesAbout, World.sentSince] at he
  . intro c u id
    apply awaiting_update
    . intro t₁ ht₁
      obtain rfl := Option.some.inj (ht.symm.trans ht₁)
      simp [Phase.Elsewhere]
    . rintro t₁ ⟨⟩
      exact hafter

theorem Ordered.went_acknowledged (h : σ.Ordered) {gate : Int} {o : Option InvitationPtr} {id : Int}
    (ht : σ.threads client = some ⟨gate, .acknowledge o id⟩)
    (hsend : o ≠ none → env.sendOk σ.world.trace.sent.length = true)
    : (σ.went env client ⟨gate, .acknowledge o id⟩ (some ⟨gate, .respond []⟩)
        (σ.world.acked env client id none)).Ordered := by
  have hentries : (Phase.acknowledge o id).entries env client σ.world
      (σ.world.acked env client id none)
        = entriesAbout [⟨client, ackPacket env σ.world id 0, none,
            env.sendOk σ.world.trace.sent.length⟩] (o.map fun inv => (inv, client)) := by
    simp [Phase.entries, World.sentSince, World.acked, Trace.send]
  refine h.next ?_ ?_ ?_ ?_ ?_ ?_
  . exact .refl _
  . exact .of_eq rfl
  . refine ⟨_, rfl, fun e he inv inviter _ _ hnews => ?_⟩
    rw [hentries] at he
    have hsent := (about_of_mem_entriesAbout he).1
    rw [List.mem_singleton] at hsent
    rw [hsent] at hnews
    exact absurd (show IsNews PacketType.ack.toByte from hnews) (by decide)
  . rintro c u id' ⟨t, hthread, hphase⟩
    dsimp only [went] at hthread
    by_cases heq : c = client
    . subst heq
      rw [Function.update_self] at hthread
      obtain rfl := Option.some.inj hthread
      simp at hphase
    . rw [Function.update_of_ne heq] at hthread
      exact .inl ⟨t, hthread, hphase⟩
  . rintro c u id' ⟨t, hthread, hphase⟩
    by_cases heq : c = client
    . subst heq
      obtain rfl := Option.some.inj (ht.symm.trans hthread)
      obtain ⟨rfl, rfl⟩ := Phase.acknowledge.inj hphase
      let packet : SentPacket :=
        ⟨c, ackPacket env σ.world id 0, none, env.sendOk σ.world.trace.sent.length⟩
      refine .inr ⟨⟨packet, some (u, c)⟩, ?_, rfl, rfl, rfl, rfl, hsend (by simp)⟩
      apply List.mem_append_right
      dsimp only
      rw [hentries]
      exact List.mem_singleton_self _
    . refine .inl ⟨t, ?_, hphase⟩
      dsimp only [went]
      rw [Function.update_of_ne heq]
      exact hthread
  . intro u i node hle hi _
    have : u < σ.world.store.invitations.next := Heap.lt_next_of_get? hi
    omega

theorem Ordered.went_made (h : σ.Ordered) (hsound : σ.Sound) {gate : Int} {invitee : ClientPtr}
    {hdr : PacketHeader} {cs : Client} {sourceRole targetRole : GameRole}
    (ht : σ.threads client = some ⟨gate, .invite invitee hdr⟩)
    (hcs : σ.world.store.clients.get? client = some cs) (hne : client ≠ invitee)
    (hstore : w'.store = σ.world.store.invite client invitee sourceRole targetRole)
    (hsent : ∀ sent ∈ σ.world.sentSince w', sent.hdr.type = PacketType.invited.toByte)
    : (σ.went env client ⟨gate, .invite invitee hdr⟩
        (some ⟨gate, .acknowledge (some σ.world.store.invitations.next) cs.nextId⟩) w').Ordered := by
  obtain ⟨held, hv, -⟩ := hsound.valid
  have hother : ∀ t, σ.threads client = some t → t.phase.Elsewhere := by
    intro t hthread
    obtain rfl := Option.some.inj (ht.symm.trans hthread)
    simp [Phase.Elsewhere]
  -- the invitation that has been added
  have hinvitations : w'.store.invitations = σ.world.store.invitations.push
      { newInvitation client invitee sourceRole targetRole with refCount := 2 } := by
    rw [hstore]
    rfl
  have hfresh : ∀ i, w'.store.invitations.get? σ.world.store.invitations.next = some i →
      i.source = client ∧ i.game = none := by
    intro i hi
    rw [hinvitations, Heap.get?_push, if_pos rfl] at hi
    rw [← Option.some.inj hi]
    exact ⟨rfl, rfl⟩
  refine h.next ?_ ?_ ?_ ?_ ?_ ?_
  . rw [went, hstore]
    exact Store.ages_invite ..
  . rw [went, hstore]
    exact Store.keepsEnds_invite ..
  . refine ⟨_, rfl, fun e he inv inviter _ _ hnews => ?_⟩
    rw [hsent _ (about_of_mem_entriesAbout he).1] at hnews
    exact absurd hnews (by decide)
  . rintro c u id ⟨t, hthread, hphase⟩
    dsimp only [went] at hthread ⊢
    by_cases heq : c = client
    . subst heq
      rw [Function.update_self] at hthread
      obtain rfl := Option.some.inj hthread
      obtain rfl := Option.some.inj (Phase.acknowledge.inj hphase).1
      refine .inr ⟨rfl, ?_, hfresh⟩
      simp [hinvitations]
    . rw [Function.update_of_ne heq] at hthread
      exact .inl ⟨t, hthread, hphase⟩
  . rintro c u id ⟨t, hthread, hphase⟩
    by_cases heq : c = client
    . subst heq
      exact absurd hphase (hother t hthread u id)
    . refine .inl ⟨t, ?_, hphase⟩
      dsimp only [went]
      rw [Function.update_of_ne heq]
      exact hthread
  . intro u i node hle hi hnode
    dsimp only [went] at hi hnode ⊢
    obtain rfl : u = σ.world.store.invitations.next := by
      have hlt := Heap.lt_next_of_get? hi
      simp only [hinvitations, Heap.next_push] at hlt
      omega
    rw [(hfresh i hi).1] at hnode ⊢
    rw [hstore] at hnode
    rw [hv.node_of_invite hne (.inl rfl) hcs hnode]
    exact ⟨_, Function.update_self .., rfl⟩

theorem Ordered.timely (h : σ.Ordered) {e : Entry} {node : InvitationNode}
    (hi : σ.world.store.invitations.get? inv = some i)
    (hnode : node ∈ σ.world.store.nodesOf i.source inv) (hid : e.packet.hdr.id = UInt8.ofInt node.id)
    (hno : (i.state = .openState ∧ σ.awaits inv = false) ∨ i.game ≠ none)
    : Told σ.history inv i.source e.packet.hdr.id := by
  rcases h.told inv i node hi hnode with htold | hawaiting
  . rw [hid]
    exact htold
  . rcases hno with ⟨hopen, hno⟩ | hgame
    . exact absurd ⟨_, _, hawaiting⟩ (h.not_awaiting hi hopen hno)
    . exact absurd ((h.awaited _ _ _ hawaiting).2 i hi).2 hgame

theorem Ordered.went_between (h : σ.Ordered) (ht : σ.threads client = some t)
    (hbefore : t.phase.Elsewhere) (hafter : ∀ t'' ∈ t', t''.phase.Elsewhere)
    (hages : σ.world.store.Ages w'.store)
    (hends : σ.world.store.KeepsEnds w'.store fun u => ¬ ∃ c id, Awaiting σ.threads c u id)
    (hnext : w'.store.invitations.next = σ.world.store.invitations.next)
    (htimely : ∀ e ∈ t.phase.entries env client σ.world w', e.Timely σ.history)
    : (σ.went env client t t' w').Ordered := by
  have hthreads : ∀ c u id, Awaiting (σ.went env client t t' w').threads c u id
      ↔ Awaiting σ.threads c u id := by
    intro c u id
    apply awaiting_update _ hafter
    intro t₁ ht₁
    obtain rfl := Option.some.inj (ht.symm.trans ht₁)
    exact hbefore
  apply h.next hages hends ⟨_, rfl, htimely⟩
  . exact fun c u id hawaiting => .inl ((hthreads c u id).mp hawaiting)
  . exact fun c u id hawaiting => .inl ((hthreads c u id).mpr hawaiting)
  . intro u i node hle hi _
    have hlt : u < w'.store.invitations.next := Heap.lt_next_of_get? hi
    omega

/--
An operation. The guard is about ACCEPT and DECLINE; the others need an invitation with a game, and
nobody has answered an invitation whose source waits for the ACK.
-/
theorem Ordered.went_operated (h : σ.Ordered) (hsound : σ.Sound) {gate : Int} {op : Operation}
    {r : Int} {responses : List Response}
    (ht : σ.threads client = some ⟨gate, .operation op⟩)
    (hpatient : σ.Patient env (.go client)) (heffect : Effect env σ.world client op r w')
    : (σ.went env client ⟨gate, .operation op⟩ (some ⟨gate, .respond responses⟩) w').Ordered := by
  obtain ⟨held, hv, -⟩ := hsound.valid
  have hop := hsound.phases client _ ht
  have hguard : op.IsAnswer → ∀ inv, op.subject? σ.world.store client = some inv →
      σ.awaits inv = false := by
    intro hanswer inv hsubject
    unfold Patient at hpatient
    cases op with
    | accept id | decline id =>
      simp only [ht] at hpatient
      exact hpatient inv hsubject
    | _ => exact hanswer.elim
  apply h.went_between ht (by simp [Phase.Elsewhere]) (by simp [Phase.Elsewhere]) heffect.ages
  . apply heffect.keepsEnds.mono
    rintro u ⟨id, i, rfl, hopen⟩
    exact h.not_awaiting hopen.invitation hopen.state (hguard trivial u hopen.named)
  . exact heffect.invitations_next hop
  . intro e he inv inviter habout hreceiver hnews
    obtain ⟨hsent, heq⟩ := about_of_mem_entriesAbout he
    obtain ⟨u, hsubject, hu⟩ := Option.bind_eq_some_iff.mp (heq.symm.trans habout)
    obtain ⟨rfl, i, hi, rfl⟩ := withInviter_eq_some hu
    obtain ⟨u', i', node, hsubject', hi', hnode, hid, hanswer⟩ :=
      heffect.news hv hsound.linked hsent hnews
    obtain rfl := Option.some.inj (hsubject.symm.trans hsubject')
    obtain rfl := Option.some.inj (hi.symm.trans hi')
    rw [hreceiver] at hnode
    exact h.timely hi hnode hid
      (hanswer.imp_left fun hanswer => ⟨hanswer.2, hguard hanswer.1 u hsubject⟩)

theorem Sound.logout_loop (h : σ.Sound) {gate : Int} {c : Client}
    (hc : σ.world.store.clients.get? client = some c) (hin : c.loggedIn = .loggedIn)
    (hrun : ((Thread.mk gate .logout).step client).run env σ.world = .ok (t', w'))
    : ∃ w₁, (logoutLoop client c.inviteHead).run env σ.world = .ok ((), w₁)
        ∧ w'.trace.sent = w₁.trace.sent := by
  obtain ⟨held, hv, -⟩ := h.valid
  simp only [Thread.step, run_bind] at hrun
  cases hlogout : (clientLogout client).run env σ.world with
  | ok p =>
    obtain ⟨r, w₂⟩ := p
    obtain ⟨player, w₁, -, hloop, -, -, heq⟩ := clientLogout_left hv h.linked hc hin hlogout
    simp only [hlogout, run_pure, Except.ok.injEq, Prod.mk.injEq] at hrun
    exact ⟨w₁, hloop, by rw [← hrun.2, heq]⟩
  | error f => simp [hlogout] at hrun

theorem Ordered.went_loggedOut (h : σ.Ordered) (hsound : σ.Sound) {gate : Int}
    (ht : σ.threads client = some ⟨gate, .logout⟩) (hpatient : σ.Patient env (.go client))
    (hrun : ((Thread.mk gate .logout).step client).run env σ.world = .ok (t', w'))
    (hlogout : LogsOut env client σ.world w')
    : (σ.went env client ⟨gate, .logout⟩ (some ⟨gate, .unregister⟩) w').Ordered := by
  obtain ⟨held, hv, -⟩ := hsound.valid
  unfold Patient at hpatient
  simp only [ht] at hpatient
  cases hlogout with
  | @out c hc hout =>
    apply h.went_between ht (by simp [Phase.Elsewhere]) (by simp [Phase.Elsewhere]) (.refl _)
      (.of_eq rfl) rfl
    simp [Phase.entries, Store.logoutNodes, hc, hout, logoutEntries]
  | @left c player w₁ hc hin hplayer hloop =>
    have hnodes : σ.world.store.logoutNodes client = c.inviteHead := by
      simp [Store.logoutNodes, hc, hin]
    apply h.went_between ht (by simp [Phase.Elsewhere]) (by simp [Phase.Elsewhere])
    . exact hloop.ages.trans (Store.ages_leave ..)
    . exact (hloop.keepsEnds.mono (fun _ => False.elim)).trans (.of_eq (by simp))
    . simp [hloop.invitations_next]
    . intro e he inv inviter habout hreceiver hnews
      obtain ⟨w₂, hrun₂, -⟩ := hsound.logout_loop hc hin hrun
      have hholds : σ.world.store.Holds (refsOf held) client :=
        ⟨hv, hsound.linked, (hv.client client c hc).held hin⟩
      dsimp only [Phase.entries] at he
      rw [hnodes] at he hpatient
      obtain ⟨hmem, ⟨i, hi, rfl, hstate⟩, node, hnode, hid⟩ := logoutEntries_news hholds hc
        (fun _ hnode => hnode) (hv.client client c hc).nodup hrun₂ e he hnews inv inviter habout
      obtain ⟨node', hnode', rfl⟩ := List.mem_map.mp hmem
      rw [hreceiver] at hnode
      exact h.timely hi hnode hid (hstate.imp_left fun hopen => ⟨hopen, hpatient node' hnode'⟩)

/-! ## The history and the connections -/

theorem entriesAbout_packets (sent : List SentPacket) (about : Option (InvitationPtr × ClientPtr))
    : (entriesAbout sent about).map (·.packet) = sent := by
  rw [entriesAbout, List.map_map]
  exact List.map_id sent

theorem logoutEntries_packets {extra : ClientPtr → Nat} {nodes : List InvitationNode}
    (hholds : w.store.Holds extra client)
    (hrun : (logoutLoop client nodes).run env w = .ok ((), w'))
    : w.trace.sent ++ (logoutEntries env client nodes w).map (·.packet) = w'.trace.sent := by
  induction nodes generalizing w with
  | nil =>
    rw [logoutLoop, run_pure, Except.ok.injEq, Prod.mk.injEq] at hrun
    simp [logoutEntries, hrun.2]
  | cons node rest ih =>
    rw [logoutLoop, run_bind] at hrun
    split at hrun
    . next w₁ hrun₁ =>
      obtain ⟨i, r, -, heffect, -⟩ := logoutNode_holds hholds hrun₁
      have hholds₁ := heffect.holds hholds (hholds.allowed (logoutOp_ne_make client i node.id))
      rw [← ih hholds₁ hrun, ← World.append_sentSince heffect.sent_prefix]
      simp [logoutEntries, hrun₁, entriesAbout_packets]
    . simp at hrun

theorem Sound.packets (h : σ.Sound) (ht : σ.threads client = some t)
    (hrun : (t.step client).run env σ.world = .ok (t', w')) (hstep : Stepped env client σ.world t t' w')
    : σ.world.trace.sent ++ (t.phase.entries env client σ.world w').map (·.packet)
        = w'.trace.sent := by
  obtain ⟨held, hv, -⟩ := h.valid
  have hof : σ.world.trace.sent <+: w'.trace.sent → ∀ about,
      σ.world.trace.sent ++ (entriesAbout (σ.world.sentSince w') about).map (·.packet)
        = w'.trace.sent := by
    intro hprefix about
    rw [entriesAbout_packets, World.append_sentSince hprefix]
  cases hstep with
  | noRoom _ hsent => exact hof (hsent ▸ List.prefix_rfl) _
  | invited _ _ heffect => exact hof heffect.sent_prefix _
  | operated _ heffect => exact hof heffect.sent_prefix _
  | acknowledged | nacked | acked => exact hof (by simp [Trace.send]) _
  | loggedOut hlogout =>
    dsimp only [Phase.entries]
    cases hlogout with
    | out hc hout => simp [Store.logoutNodes, hc, hout, logoutEntries]
    | @left c player w₁ hc hin hplayer hloop =>
      have hnodes : σ.world.store.logoutNodes client = c.inviteHead := by
        simp [Store.logoutNodes, hc, hin]
      have hholds : σ.world.store.Holds (refsOf held) client :=
        ⟨hv, h.linked, (hv.client client c hc).held hin⟩
      obtain ⟨w₂, hrun₂, htrace⟩ := h.logout_loop hc hin hrun
      rw [hnodes, logoutEntries_packets hholds hrun₂, htrace]
  | _ => exact hof List.prefix_rfl _

/-! ## Every run -/

theorem Ordered.went (h : σ.Ordered) (hsound : σ.Sound) (hpatient : σ.Patient env (.go client))
    (ht : σ.threads client = some t)
    (hrun : (t.step client).run env σ.world = .ok (t', w')) (hstep : Stepped env client σ.world t t' w')
    : (σ.went env client t t' w').Ordered := by
  have hstep' := hstep
  cases hstep with
  | uninvited =>
    exact h.went_refused ht σ.world.trace.allocs (by simp [Phase.Elsewhere])
  | invited hne hroles heffect =>
    obtain ⟨held, hv, -⟩ := hsound.valid
    cases heffect with
    | refused _ n => exact h.went_refused ht n (by simp [Phase.Elsewhere])
    | @made _ cs ct _ _ player p n halloc hcs hct =>
      have hid := (hv.client client cs hcs).ids.nextId_spec.1
      rw [if_neg (by omega)]
      apply h.went_made hsound ht hcs hne rfl
      simp [World.sentSince, Trace.send, invitedPacket, createHeader]
  | acknowledged =>
    apply h.went_acknowledged ht
    intro hne
    obtain ⟨inv, rfl⟩ := Option.ne_none_iff_exists'.mp hne
    simpa [Patient, ht] using hpatient
  | operated _ heffect => exact h.went_operated hsound ht hpatient heffect
  | loggedOut hlogout => exact h.went_loggedOut hsound ht hpatient hrun hlogout
  | _ => exact h.went_quiet ht hstep' (by simp [Phase.Inviting])

theorem Ordered.goto (h : σ.Ordered) (hages : σ.world.store.Ages w'.store)
    (hinvitations : w'.store.invitations = σ.world.store.invitations)
    (hbefore : ∀ t, σ.threads client = some t → t.phase.Elsewhere) (hafter : t.phase.Elsewhere)
    : (Interleaved.goto { σ with world := w' } client t).Ordered := by
  apply h.quiet hages hinvitations ⟨[], by simp [Interleaved.goto], by simp⟩
  exact awaiting_update hbefore (by simpa using hafter)

theorem ordered_initial : initial.Ordered where
  awaited := by simp [Awaiting, initial]
  told := by simp [initial, initialWorld, initialStore]
  first := by simp [AckFirst, initial]

theorem Steps.ordered (hstep : Steps env σ e σ') (hsound : σ.Sound) (hpatient : σ.Patient env e)
    (h : σ.Ordered) : σ'.Ordered := by
  cases hstep with
  | nothing => exact h
  | @turnedAway fd w' hconnects =>
    obtain ⟨hages, hinvitations⟩ : σ.world.store.Ages w'.store
        ∧ w'.store.invitations = σ.world.store.invitations := by
      cases hconnects with
      | refused => exact ⟨.refl _, rfl⟩
      | failed => exact ⟨.of_clients (Nat.le_refl _) rfl, rfl⟩
    exact h.quiet hages hinvitations ⟨[], by simp, by simp⟩ fun _ _ _ => .rfl
  | connected hconnects =>
    cases hconnects with
    | connected n hqueue =>
      refine h.goto ?_ ?_ ?_ ?_
      . exact Store.ages_connect ..
      . rfl
      . intro t ht
        -- no thread has served a client that has only now been created
        obtain ⟨c, hc⟩ := hsound.live ht
        exact absurd (Heap.lt_next_of_get? hc) (Nat.lt_irrefl _)
      . simp [Phase.Elsewhere]
  | @received client gate pkt ht =>
    apply h.goto (.refl _) rfl _ (Phase.early_received gate pkt).elsewhere
    intro t ht'
    obtain rfl := Option.some.inj (ht.symm.trans ht')
    simp [Phase.Elsewhere]
  | hungUp ht =>
    apply h.goto (.refl _) rfl _ (by simp [Phase.Elsewhere])
    intro t ht'
    obtain rfl := Option.some.inj (ht.symm.trans ht')
    simp [Phase.Elsewhere]
  | went ht hrun hstep => exact Ordered.went h hsound hpatient ht hrun hstep

/--
The history is what has been sent.
-/
theorem history_packets (h : (machine env).Reach (fun _ _ => True) initial σ)
    : σ.history.map (·.packet) = σ.world.trace.sent := by
  have hboth : σ.Sound ∧ σ.history.map (·.packet) = σ.world.trace.sent := by
    apply h.invariant (fun σ => σ.Sound ∧ σ.history.map (·.packet) = σ.world.trace.sent)
    . exact ⟨sound_initial, rfl⟩
    . rintro σ e σ' ⟨hsound, heq⟩ - hstep
      have hsteps := hsound.steps hstep
      refine ⟨hsteps.sound hsound, ?_⟩
      cases hsteps with
      | nothing | received | hungUp => exact heq
      | turnedAway hconnects =>
        cases hconnects with
        | refused | failed => exact heq
      | connected hconnects =>
        cases hconnects with
        | connected => exact heq
      | went ht hrun hstepped =>
        dsimp only
        rw [List.map_append, heq, hsound.packets ht hrun hstepped]
  exact hboth.2

/--
Whoever makes an invitation hears of it first by the ACK, in every run in which nobody is disturbed
who waits for that ACK.
-/
theorem ackFirst_of_patient (h : (machine env).Reach (fun σ e => σ.Patient env e) initial σ)
    : AckFirst σ.history := by
  have hboth : σ.Sound ∧ σ.Ordered := by
    apply h.invariant (fun σ => σ.Sound ∧ σ.Ordered)
    . exact ⟨sound_initial, ordered_initial⟩
    . rintro σ e σ' ⟨hsound, hordered⟩ hpatient hstep
      have hsteps := hsound.steps hstep
      exact ⟨hsteps.sound hsound, hsteps.ordered hsound hpatient hordered⟩
  exact hboth.2.first

def inviteEvents : List HandlerEvent := [
  .connect 4, .packet 0 (request .login 0 .nullRole [65] fits_A), .go 0, .go 0, .go 0,
  .connect 5, .packet 1 (request .login 0 .nullRole [66] fits_B), .go 1, .go 1, .go 1,
  .packet 0 (request .invite 0 .secondPlayerRole [66] fits_B), .go 0, .go 0, .go 0]

def acceptEvents : List HandlerEvent :=
  [.packet 1 (request .accept 0 .nullRole [] fits_nil), .go 1]

theorem ackFirst_of_patient_accepted
    : ∃ σ, (machine calmEnv).Reach (fun σ e => σ.Patient calmEnv e) initial σ
      ∧ (∃ e ∈ σ.history, e.about = some (0, 0) ∧ e.packet.receiver = 0
        ∧ IsNews e.packet.hdr.type ∧ e.packet.written = true)
      ∧ AckFirst σ.history := by
  obtain ⟨σ, hreach, hcheck⟩ := Machine.Reach.of_any_run (machine calmEnv)
    (fun σ e => σ.Patient calmEnv e) initial (inviteEvents ++ .go 0 :: acceptEvents)
    (fun σ => decide (∃ e ∈ σ.history, e.about = some (0, 0) ∧ e.packet.receiver = 0
      ∧ IsNews e.packet.hdr.type ∧ e.packet.written = true)) (by decide +kernel)
  exact ⟨σ, hreach, of_decide_eq_true hcheck, ackFirst_of_patient hreach⟩

/--
`B` is faster than the thread of `A`.
-/
theorem not_ackFirst
    : ∃ σ, (machine calmEnv).Reach (fun _ _ => True) initial σ ∧ ¬ AckFirst σ.history := by
  obtain ⟨σ, hreach, hcheck⟩ := Machine.Reach.of_any_run (machine calmEnv) (fun _ _ => True)
    initial (inviteEvents ++ acceptEvents)
    (fun σ => decide ((σ.history[3]?.any fun e => e.about = some (0, 0) ∧ e.packet.receiver = 0
        ∧ IsNews e.packet.hdr.type ∧ e.packet.written = true)
      ∧ ∀ e ∈ σ.history, e.about = some (0, 0) → e.packet.hdr.type ≠ PacketType.ack.toByte))
    (by decide +kernel)
  obtain ⟨hany, hnone⟩ := of_decide_eq_true hcheck
  obtain ⟨e, he, hnews⟩ := (Option.any_eq_true ..).mp hany
  obtain ⟨habout, hreceiver, hnews, hwritten⟩ := of_decide_eq_true hnews
  refine ⟨σ, hreach, fun hfirst => ?_⟩
  obtain ⟨e', he', hannounces⟩ := hfirst 3 e 0 0 he habout hreceiver hnews hwritten
  exact hnone e' (List.mem_of_mem_take he') hannounces.about hannounces.type

end Interleaved

end Jeux
