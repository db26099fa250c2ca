import Jeux.Concurrent.InviteOrder
import Jeux.Service.Departure

/-!
INVITE against the end of a session. `process_invite` gives back the reference of `creg_lookup` before
it calls `client_make_invitation`, and `creg_lookup` still finds a client that has logged out, so the
client invited may be on its way out or gone.
-/

namespace Jeux

open ServerM

variable {env : Env} {w w' : World} {s s' : Store} {extra : ClientPtr → Nat} {client x : ClientPtr}
  {c c' : Client} {t t'' : Thread} {t' : Option Thread} {op : Operation} {r : Int}
  {nodes : List InvitationNode} {inv : InvitationPtr} {i : Invitation}

/-! ## Those who take part are logged in -/

namespace Store

theorem isLoggedIn_iff
    : s.isLoggedIn x = true ↔ ∃ c, s.clients.get? x = some c ∧ c.loggedIn = .loggedIn := by
  unfold isLoggedIn
  cases s.clients.get? x with
  | none => simp
  | some c => simp

theorem KeepsSessions.isLoggedIn (h : s.KeepsSessions s') (hin : s.isLoggedIn x = true)
    : s'.isLoggedIn x = true := by
  obtain ⟨c, hc, hstate⟩ := isLoggedIn_iff.mp hin
  obtain ⟨c', hc', -, hstate'⟩ := h.get? hc
  exact isLoggedIn_iff.mpr ⟨c', hc', hstate'.trans hstate⟩

def Attended (s : Store) : Prop :=
  ∀ inv i, s.invitations.get? inv = some i → ∀ x, i.source = x ∨ i.target = x →
    s.isLoggedIn x = true

theorem Attended.settled (h : s.Attended) (hl : s.Linked) : s.Settled where
  both := hl.both
  positive := hl.positive
  online := by
    intro inv i hi _ x c hor hc
    obtain ⟨c', hc', hin⟩ := isLoggedIn_iff.mp (h inv i hi x hor)
    obtain rfl := Option.some.inj (hc.symm.trans hc')
    exact hin

theorem Attended.of_keepsEnds {fresh : InvitationPtr → Prop} (h : s.Attended)
    (hends : s.KeepsEnds s' fresh)
    (hnew : ∀ inv i, s.invitations.next ≤ inv → s'.invitations.get? inv = some i →
      ∀ x, i.source = x ∨ i.target = x → s.isLoggedIn x = true)
    (hstay : ∀ inv i x, s'.invitations.get? inv = some i → (i.source = x ∨ i.target = x) →
      s.isLoggedIn x = true → s'.isLoggedIn x = true)
    : s'.Attended := by
  intro inv i' hi' x hor
  apply hstay inv i' x hi' hor
  by_cases hold : inv < s.invitations.next
  . obtain ⟨i, hi, hsource, htarget, -⟩ := hends.ends inv i' hold hi'
    rw [hsource, htarget] at hor
    exact h inv i hi x hor
  . exact hnew inv i' (Nat.le_of_not_lt hold) hi' x hor

end Store

theorem Effect.attended (h : Effect env w client op r w') (hattended : w.store.Attended)
    (hsession : ∀ c, w.store.clients.get? client = some c → c.player ≠ none → c.loggedIn = .loggedIn)
    (hmake : ∀ target sourceRole targetRole, op = .make target sourceRole targetRole →
      w.store.isLoggedIn target = true)
    : w'.store.Attended := by
  apply hattended.of_keepsEnds h.keepsEnds
  . intro inv i hnew hi x hor
    have hlt := Heap.lt_next_of_get? hi
    cases op with
    | make target sourceRole targetRole =>
      cases h with
      | refused => exact absurd hlt (Nat.not_lt.mpr hnew)
      | made n halloc hcs hct hplayer =>
        rcases Store.get?_invite_invitations hi with ⟨-, rfl⟩ | ⟨-, hi'⟩
        . rcases hor with rfl | rfl
          . exact Store.isLoggedIn_iff.mpr ⟨_, hcs, hsession _ hcs (by simp [hplayer])⟩
          . exact hmake _ _ _ rfl
        . exact absurd (Heap.lt_next_of_get? hi') (Nat.not_lt.mpr hnew)
    | _ =>
      rw [h.invitations_next (by simp)] at hlt
      omega
  . intro _ _ x _ _ hin
    exact h.keepsSessions.isLoggedIn hin

/-! ## Leaving -/

/--
A client that logs out now is part of nothing any more: all it takes part in is in its list, and can
be revoked, declined or resigned.
-/
def Store.CanDepart (s : Store) (env : Env) (client : ClientPtr) (n : Nat) : Prop :=
  (∀ inv < s.invitations.next, ∀ i ∈ s.invitations.get? inv, (i.source = client ∨ i.target = client) →
      0 < s.listed client inv)
    ∧ ∀ c ∈ s.clients.get? client, s.CanLeave env client n c.inviteHead

instance (i : Invitation) : Decidable i.Active := inferInstanceAs (Decidable (_ ∨ _ ∧ _))

instance (env : Env) (client : ClientPtr) (n : Nat) (i : Invitation)
    : Decidable (i.Leavable env client n) := inferInstanceAs (Decidable (i.Active ∧ _))

instance decidableCanLeave (s : Store) (env : Env) (client : ClientPtr)
    : (n : Nat) → (nodes : List InvitationNode) → Decidable (s.CanLeave env client n nodes)
  | _, [] => .isTrue trivial
  | n, node :: nodes =>
    have := decidableCanLeave s env client (n + 1) nodes
    inferInstanceAs (Decidable ((∃ i ∈ s.invitations.get? node.invitation, _) ∧ _))

instance (s : Store) (env : Env) (client : ClientPtr) (n : Nat)
    : Decidable (s.CanDepart env client n) := by
  unfold Store.CanDepart
  infer_instance

theorem LogsOut.parted (h : LogsOut env client w w') (hserves : w.store.Serves extra client)
    (hundecided : w.store.Undecided) (hattended : w.store.Attended)
    (hcan : w.store.CanDepart env client w.trace.sent.length)
    : ∀ inv i, w'.store.invitations.get? inv = some i → i.source ≠ client ∧ i.target ≠ client := by
  intro inv i' hi'
  rw [← not_or]
  intro hor
  cases h with
  | out hc hout =>
    obtain ⟨c', hc', hin⟩ := Store.isLoggedIn_iff.mp (hattended inv i' hi' client hor)
    obtain rfl := Option.some.inj (hc.symm.trans hc')
    rw [hout] at hin
    cases hin
  | @left c player w₁ hc hin hplayer hrun =>
    have hnodup : (c.inviteHead.map (·.invitation)).Nodup :=
      (hserves.valid.client client c hc).nodup
    have hall := hrun.leavesAll hserves hundecided hnodup (hcan.2 c hc)
    have hold : inv < w.store.invitations.next := by
      rw [← hrun.invitations_next]
      exact Heap.lt_next_of_get? hi'
    obtain ⟨i, hi, hsource, htarget, -⟩ := hrun.keepsEnds.ends inv i' hold hi'
    rw [hsource, htarget] at hor
    have hmem := Store.mem_of_listed hc (hcan.1 inv hold i hi hor)
    obtain ⟨node, hnode, rfl⟩ := List.mem_map.mp hmem
    -- it has been freed on the way
    have hgone := (hall.closed node hnode).1
    simp [Store.leave] at hi'
    simp [hgone] at hi'

/-! ## Steps of the threads -/

def Phase.invites? (client : ClientPtr) : Phase → Option ClientPtr
  | .unref invitee hdr | .invite invitee hdr =>
    if client ≠ invitee ∧ (inviteRoles? hdr).isSome then some invitee else none
  | _ => none

theorem Phase.Early.invites? {phase : Phase} (h : phase.Early) : phase.invites? client = none := by
  cases phase with
  | unref | invite => exact h.elim
  | _ => rfl

theorem Stepped.own (h : Stepped env client w t (some t'') w') (hne : t.phase ≠ .logout)
    (hc' : w'.store.clients.get? client = some c')
    : ∃ c, w.store.clients.get? client = some c ∧ (c.loggedIn = .loggedIn → c'.loggedIn = .loggedIn)
      ∧ (c'.player ≠ none → c.player ≠ none ∨ c'.loggedIn = .loggedIn) := by
  have hof : ∀ c, w.store.clients.get? client = some c → c'.player = c.player →
      c'.loggedIn = c.loggedIn → ∃ c, w.store.clients.get? client = some c
        ∧ (c.loggedIn = .loggedIn → c'.loggedIn = .loggedIn)
        ∧ (c'.player ≠ none → c.player ≠ none ∨ c'.loggedIn = .loggedIn) := by
    intro c hc hplayer hin
    exact ⟨c, hc, fun h => hin.trans h, fun h => .inl (hplayer ▸ h)⟩
  cases h with
  | refused | taken | listed | unfound | uninvited | acknowledged | waits | nacked | acked =>
    exact hof c' hc' rfl rfl
  | noRoom hstore =>
    rcases hstore with heq | ⟨p, heq⟩
    all_goals
      rw [heq] at hc'
      exact hof c' hc' rfl rfl
  | enlisted =>
    rw [Store.enlist_clients] at hc'
    exact hof c' hc' rfl rfl
  | entered =>
    rw [Store.login_clients] at hc'
    obtain ⟨c, hc, rfl⟩ := Heap.get?_modify_eq_some.mp hc'
    rw [if_pos rfl]
    exact ⟨c, hc, fun _ => rfl, fun _ => .inr rfl⟩
  | found =>
    rw [Store.modifyClient_clients] at hc'
    obtain ⟨c, hc, rfl⟩ := Heap.get?_modify_eq_some.mp hc'
    apply hof c hc
    . split <;> rfl
    . split <;> rfl
  | unreffed =>
    obtain ⟨c, hc, hplayer, hin, -⟩ := Store.get?_of_unrefClient hc'
    exact hof c hc hplayer hin
  | invited _ _ heffect | operated _ heffect =>
    obtain ⟨c, hc, hplayer, hin⟩ := heffect.keepsSessions.get?_of_get? hc'
    exact hof c hc hplayer hin
  | loggedOut => exact absurd rfl hne

theorem Stepped.invites? (h : Stepped env client w t (some t'') w')
    (hinvites : t''.phase.invites? client = some x)
    : t.phase.invites? client = some x
      ∨ ∃ user hdr, t.phase = .lookup user hdr ∧ w.store.lookup user = some x
        ∧ (Phase.unref x hdr).invites? client = some x := by
  cases h with
  | found hlookup =>
    have hx := hinvites
    unfold Phase.invites? at hx
    dsimp only at hx
    split at hx
    . rw [Option.some.injEq] at hx
      subst hx
      exact .inr ⟨_, _, rfl, hlookup, hinvites⟩
    . simp at hx
  | unreffed => exact .inl hinvites
  | _ => simp [Phase.invites?] at hinvites

theorem LogoutRun.undecided (h : LogoutRun env client w nodes w') (hundecided : w.store.Undecided)
    : w'.store.Undecided := by
  induction h with
  | nil => exact hundecided
  | cons _ _ _ heffect _ ih => exact ih (heffect.undecided hundecided)

theorem Stepped.undecided (h : Stepped env client w t t' w') (hundecided : w.store.Undecided)
    : w'.store.Undecided := by
  cases h with
  | invited _ _ heffect | operated _ heffect => exact heffect.undecided hundecided
  | noRoom hstore =>
    rcases hstore with heq | ⟨p, heq⟩
    all_goals exact hundecided.congr (by rw [heq])
  | enlisted => exact hundecided.congr (Store.quiet_enlist _ _).games
  | unreffed => exact hundecided.congr (Store.unrefClient_games _ _)
  | unregistered => exact hundecided.congr (Store.quiet_unregister _ _ _).games
  | loggedOut hlogout =>
    cases hlogout with
    | out => exact hundecided
    | left _ _ _ hrun => exact (hrun.undecided hundecided).congr rfl
  | _ => exact hundecided.congr rfl

theorem LogsOut.invitations_next (h : LogsOut env client w w')
    : w'.store.invitations.next = w.store.invitations.next := by
  cases h with
  | out => rfl
  | left _ _ _ hrun => exact hrun.invitations_next

theorem LogsOut.keepsEnds (h : LogsOut env client w w')
    : w.store.KeepsEnds w'.store fun _ => False := by
  cases h with
  | out => exact .of_eq rfl
  | left _ _ _ hrun => exact hrun.keepsEnds.trans (.of_eq rfl)

theorem Store.isLoggedIn_connect (fd : Int) (h : s.isLoggedIn x = true)
    : (s.connect fd).isLoggedIn x = true := by
  obtain ⟨c, hc, hstate⟩ := Store.isLoggedIn_iff.mp h
  exact Store.isLoggedIn_iff.mpr ⟨c, Heap.get?_push_of_get? hc, hstate⟩

theorem Store.get?_of_connect {fd : Int} (hc : (s.connect fd).clients.get? x = some c)
    (hplayer : c.player ≠ none) : s.clients.get? x = some c := by
  unfold Store.connect at hc
  dsimp only at hc
  rw [Heap.get?_push] at hc
  split at hc
  . rw [← Option.some.inj hc] at hplayer
    simp [newClient] at hplayer
  . exact hc

namespace Interleaved

variable {σ σ' : Interleaved} {e : HandlerEvent}

structure Attended (σ : Interleaved) : Prop where
  sound : σ.Sound
  undecided : σ.world.store.Undecided
  attended : σ.world.store.Attended
  invitees : ∀ client t x, σ.threads client = some t → t.phase.invites? client = some x →
    σ.world.store.isLoggedIn x = true
  session : ∀ client t, σ.threads client = some t → t.phase ≠ .unregister →
    ∀ c, σ.world.store.clients.get? client = some c → c.player ≠ none → c.loggedIn = .loggedIn

/--
The event does not take away a client that somebody is about to invite, and leaves nothing behind: a
client that is looked up for an INVITE has not logged out, and one that logs out is not being invited
and can leave everything it takes part in.
-/
def Orderly (env : Env) (σ : Interleaved) : HandlerEvent → Prop
  | .go client =>
    match σ.threads client with
    | some ⟨_, .lookup user hdr⟩ => ∀ x ∈ σ.world.store.lookup user,
      (Phase.unref x hdr).invites? client = some x → σ.world.store.isLoggedIn x = true
    | some ⟨_, .logout⟩ =>
      (∀ other < σ.world.store.clients.next, ∀ t ∈ σ.threads other,
          t.phase.invites? other ≠ some client)
        ∧ σ.world.store.CanDepart env client σ.world.trace.sent.length
    | _ => True
  | _ => True

instance (env : Env) (σ : Interleaved) (e : HandlerEvent) : Decidable (Orderly env σ e) :=
  match e with
  | .go client => by
    dsimp only [Orderly]
    refine Option.casesOn (σ.threads client) (.isTrue trivial) fun t => ?_
    cases t with
    | mk gate phase => cases phase <;> dsimp only <;> infer_instance
  | .connect _ | .packet _ _ | .hangUp _ => .isTrue trivial

theorem Attended.serves (h : σ.Attended) (ht : σ.threads client = some t)
    (hne : t.phase ≠ .unregister)
    : ∃ extra, σ.world.store.Serves extra client := by
  obtain ⟨held, hv, -⟩ := h.sound.valid
  exact ⟨_, hv, h.attended.settled h.sound.linked, h.sound.registered client t ht,
    h.session client t ht hne⟩

theorem Sound.stays {history : List Entry} (h : σ.Sound) (hstep : Stepped env client σ.world t t' w')
    (hsound : Sound ⟨w', Function.update σ.threads client t', history⟩)
    (hne : x = client → t.phase ≠ .logout) (hin : σ.world.store.isLoggedIn x = true)
    : w'.store.isLoggedIn x = true := by
  obtain ⟨c, hc, hstate⟩ := Store.isLoggedIn_iff.mp hin
  obtain ⟨held, hv, -⟩ := h.valid
  obtain ⟨held', hv', -⟩ := hsound.valid
  have hregistered := h.session x c hc hstate
  have halong := hstep.alongside hv
  by_cases heq : x = client
  . subst heq
    cases t' with
    | none =>
      -- `creg_unregister` is called for those who have logged out
      obtain ⟨gate, phase⟩ := t
      cases hstep with
      | unregistered _ hc₁ hout =>
        obtain rfl := Option.some.inj (hc.symm.trans hc₁)
        rw [hout] at hstate
        cases hstate
    | some t'' =>
      rw [← hstep.registered] at hregistered
      obtain ⟨c', hc'⟩ := hv'.held_live x (by dsimp only; omega)
      obtain ⟨c₁, hc₁, hstays, -⟩ := hstep.own (hne rfl) hc'
      obtain rfl := Option.some.inj (hc.symm.trans hc₁)
      exact Store.isLoggedIn_iff.mpr ⟨c', hc', hstays hstate⟩
  . rw [← halong.registered x heq] at hregistered
    obtain ⟨c', hc'⟩ := hv'.held_live x (by dsimp only; omega)
    obtain ⟨c₁, hc₁, -, hsame⟩ := halong.clients x c' (Heap.lt_next_of_get? hc) hc'
    obtain rfl := Option.some.inj (hc.symm.trans hc₁)
    exact Store.isLoggedIn_iff.mpr ⟨c', hc', (hsame heq).2.trans hstate⟩

theorem Orderly.lookup {gate : Int} {user : CString} {hdr : PacketHeader}
    (h : Orderly env σ (.go client)) (ht : σ.threads client = some ⟨gate, .lookup user hdr⟩)
    (hlookup : σ.world.store.lookup user = some x)
    (hinvites : (Phase.unref x hdr).invites? client = some x)
    : σ.world.store.isLoggedIn x = true := by
  simp only [Orderly, ht] at h
  exact h x hlookup hinvites

theorem Orderly.logout {gate : Int} (h : Orderly env σ (.go client)) (hsound : σ.Sound)
    (ht : σ.threads client = some ⟨gate, .logout⟩)
    : (∀ other t, σ.threads other = some t → t.phase.invites? other ≠ some client)
      ∧ σ.world.store.CanDepart env client σ.world.trace.sent.length := by
  simp only [Orderly, ht] at h
  refine ⟨fun other t hthread => ?_, h.2⟩
  obtain ⟨c, hc⟩ := hsound.live hthread
  exact h.1 other (Heap.lt_next_of_get? hc) t hthread

theorem Phase.ne_of_invites? {phase : Phase} (h : phase.invites? client = some x) : client ≠ x := by
  unfold Phase.invites? at h
  split at h
  . split at h
    . next hcond => exact Option.some.inj h ▸ hcond.1
    . simp at h
  . split at h
    . next hcond => exact Option.some.inj h ▸ hcond.1
    . simp at h
  . simp at h

theorem Attended.attendedAfter {history : List Entry} (h : σ.Attended)
    (hguard : Orderly env σ (.go client)) (ht : σ.threads client = some t)
    (hstep : Stepped env client σ.world t t' w')
    (hsound : Sound ⟨w', Function.update σ.threads client t', history⟩) : w'.store.Attended := by
  have hstay := fun x => h.sound.stays (x := x) hstep hsound
  have hsame : t.phase ≠ .logout → w'.store.invitations = σ.world.store.invitations →
      w'.store.Attended := by
    intro hne heq inv i hi x hor
    rw [heq] at hi
    exact hstay x (fun _ => hne) (h.attended inv i hi x hor)
  cases hstep with
  | noRoom hstore =>
    apply hsame (by simp)
    rcases hstore with heq | ⟨p, heq⟩
    . rw [heq]
    . rw [heq]
  | enlisted => exact hsame (by simp) (Store.enlist_invitations _ _)
  | unreffed => exact hsame (by simp) (Store.unrefClient_invitations _ _)
  | unregistered =>
    apply hsame (by simp)
    rw [Store.unregister_invitations, Store.unrefClient_invitations]
  | invited hne hroles heffect =>
    apply heffect.attended h.attended (h.session client _ ht (by simp))
    intro target sourceRole targetRole heq
    obtain ⟨rfl, -, -⟩ := Operation.make.inj heq
    apply h.invitees client _ _ ht
    simp [Phase.invites?, hne, hroles]
  | operated response heffect =>
    apply heffect.attended h.attended (h.session client _ ht (by simp))
    intro target sourceRole targetRole heq
    exact absurd heq (h.sound.phases client _ ht target sourceRole targetRole)
  | loggedOut hlogout =>
    obtain ⟨-, hcan⟩ := hguard.logout h.sound ht
    obtain ⟨extra, hserves⟩ := h.serves ht (by simp)
    have hparted := hlogout.parted hserves h.undecided h.attended hcan
    apply h.attended.of_keepsEnds hlogout.keepsEnds
    . intro inv i hnew hi
      have hlt := Heap.lt_next_of_get? hi
      rw [hlogout.invitations_next] at hlt
      omega
    . intro inv i x hi hor
      apply hstay x
      intro heq
      subst heq
      obtain ⟨hsource, htarget⟩ := hparted inv i hi
      rcases hor with hor | hor
      . exact absurd hor hsource
      . exact absurd hor htarget
  | _ => exact hsame (by simp) rfl

theorem Sound.invitees_after {history : List Entry} (h : σ.Sound) (ht : σ.threads client = some t)
    (hstep : Stepped env client σ.world t t' w')
    (hsound : Sound ⟨w', Function.update σ.threads client t', history⟩)
    (hlookup : ∀ user hdr, t.phase = .lookup user hdr → σ.world.store.lookup user = some x →
      (Phase.unref x hdr).invites? client = some x → σ.world.store.isLoggedIn x = true)
    (hlogout : t.phase = .logout → ∀ other t₁, σ.threads other = some t₁ →
      t₁.phase.invites? other ≠ some client)
    (hinvitees : ∀ other t₁, σ.threads other = some t₁ → t₁.phase.invites? other = some x →
      σ.world.store.isLoggedIn x = true)
    {other : ClientPtr} {t₁ : Thread} (hthread : Function.update σ.threads client t' other = some t₁)
    (hinvites : t₁.phase.invites? other = some x) : w'.store.isLoggedIn x = true := by
  have hstay := h.stays (x := x) hstep hsound
  by_cases heq : other = client
  . subst heq
    rw [Function.update_self] at hthread
    subst hthread
    have hne := Phase.ne_of_invites? hinvites
    apply hstay (fun heq => absurd heq.symm hne)
    rcases hstep.invites? hinvites with hold | ⟨user, hdr, hphase, hfound, hunref⟩
    . exact hinvitees other t ht hold
    . exact hlookup user hdr hphase hfound hunref
  . rw [Function.update_of_ne heq] at hthread
    apply hstay _ (hinvitees other t₁ hthread hinvites)
    rintro rfl hphase
    -- a client that is being invited does not log out
    exact hlogout hphase other t₁ hthread hinvites

theorem Sound.session_after (h : σ.Sound) (ht : σ.threads client = some t)
    (hstep : Stepped env client σ.world t t' w')
    (hsession : ∀ other t₁, σ.threads other = some t₁ → t₁.phase ≠ .unregister →
      ∀ c, σ.world.store.clients.get? other = some c → c.player ≠ none → c.loggedIn = .loggedIn)
    {other : ClientPtr} {t₁ : Thread} (hthread : Function.update σ.threads client t' other = some t₁)
    (hne : t₁.phase ≠ .unregister) {c' : Client} (hc' : w'.store.clients.get? other = some c')
    (hplayer : c'.player ≠ none) : c'.loggedIn = .loggedIn := by
  obtain ⟨held, hv, -⟩ := h.valid
  by_cases heq : other = client
  . subst heq
    rw [Function.update_self] at hthread
    subst hthread
    have hlogout : t.phase ≠ .logout := by
      intro hphase
      cases hstep <;> simp at hphase hne
    have hold : t.phase ≠ .unregister := by
      intro hphase
      cases hstep <;> simp at hphase
    obtain ⟨c, hc, hstays, hgets⟩ := hstep.own hlogout hc'
    rcases hgets hplayer with hplayer | hin
    . exact hstays (hsession other t ht hold c hc hplayer)
    . exact hin
  . rw [Function.update_of_ne heq] at hthread
    obtain ⟨c₁, hc₁⟩ := h.live hthread
    obtain ⟨c, hc, -, hsame⟩ :=
      (hstep.alongside hv).clients other c' (Heap.lt_next_of_get? hc₁) hc'
    obtain ⟨hplayer', hin⟩ := hsame heq
    rw [hin]
    exact hsession other t₁ hthread hne c hc (hplayer' ▸ hplayer)

theorem Attended.after {history : List Entry} (h : σ.Attended) (hguard : Orderly env σ (.go client))
    (ht : σ.threads client = some t) (hstep : Stepped env client σ.world t t' w')
    : Attended ⟨w', Function.update σ.threads client t', history⟩ := by
  have hsound := h.sound.after ht hstep history
  refine ⟨hsound, hstep.undecided h.undecided, h.attendedAfter hguard ht hstep hsound, ?_, ?_⟩
  . intro other t₁ x hthread hinvites
    apply h.sound.invitees_after ht hstep hsound _ _ (fun other t => h.invitees other t x) hthread
      hinvites
    . intro user hdr hphase
      obtain ⟨gate, phase⟩ := t
      subst hphase
      exact hguard.lookup ht
    . intro hphase
      obtain ⟨gate, phase⟩ := t
      subst hphase
      exact (hguard.logout h.sound ht).1
  . intro other t₁ hthread hne c hc hplayer
    exact h.sound.session_after ht hstep h.session hthread hne hc hplayer

theorem goto_invitees (hnone : t.phase.invites? client = none)
    (h : ∀ other t₁ x, σ.threads other = some t₁ → t₁.phase.invites? other = some x →
      σ.world.store.isLoggedIn x = true)
    {other x : ClientPtr} {t₁ : Thread} (hthread : (σ.goto client t).threads other = some t₁)
    (hinvites : t₁.phase.invites? other = some x) : σ.world.store.isLoggedIn x = true := by
  rcases goto_threads hthread with ⟨rfl, rfl⟩ | hold
  . rw [hnone] at hinvites
    cases hinvites
  . exact h other t₁ x hold hinvites

theorem goto_session (hsession : ∀ c, σ.world.store.clients.get? client = some c →
      c.player ≠ none → c.loggedIn = .loggedIn)
    (h : ∀ other t₁, σ.threads other = some t₁ → t₁.phase ≠ .unregister →
      ∀ c, σ.world.store.clients.get? other = some c → c.player ≠ none → c.loggedIn = .loggedIn)
    {other : ClientPtr} {t₁ : Thread} (hthread : (σ.goto client t).threads other = some t₁)
    (hne : t₁.phase ≠ .unregister) {c : Client}
    (hc : σ.world.store.clients.get? other = some c) (hplayer : c.player ≠ none)
    : c.loggedIn = .loggedIn := by
  rcases goto_threads hthread with ⟨rfl, rfl⟩ | hold
  . exact hsession c hc hplayer
  . exact h other t₁ hold hne c hc hplayer

theorem Attended.goto (h : σ.Attended) (hsound : (σ.goto client t).Sound)
    (hinvites : t.phase.invites? client = none)
    (hsession : ∀ c, σ.world.store.clients.get? client = some c → c.player ≠ none →
      c.loggedIn = .loggedIn)
    : (σ.goto client t).Attended where
  sound := hsound
  undecided := h.undecided
  attended := h.attended
  invitees _ _ _ := goto_invitees hinvites h.invitees
  session _ _ hthread hne _ := goto_session hsession h.session hthread hne

theorem Attended.connects {fd : Int} {o : Option ClientPtr} (h : σ.Attended)
    (hconnects : Connects fd σ.world o w')
    : Attended { σ with world := w' }
      ∧ ∀ client ∈ o, (Interleaved.goto { σ with world := w' } client ⟨0, .respond []⟩).Attended := by
  obtain ⟨hsound, hgoto⟩ := h.sound.connected hconnects
  cases hconnects with
  | refused => exact ⟨h, by simp⟩
  | failed n hqueue =>
    exact ⟨⟨hsound, h.undecided, h.attended, h.invitees, h.session⟩, by simp⟩
  | connected n hqueue =>
    have hattended : Attended { σ with world := {
        store := σ.world.store.connect fd, trace := { σ.world.trace with allocs := n } } } := by
      refine ⟨hsound, h.undecided, ?_, ?_, ?_⟩
      . intro inv i hi x hor
        exact Store.isLoggedIn_connect fd (h.attended inv i hi x hor)
      . intro other t x hthread hinvites
        exact Store.isLoggedIn_connect fd (h.invitees other t x hthread hinvites)
      . intro other t hthread hne c hc hplayer
        exact h.session other t hthread hne c (Store.get?_of_connect hc hplayer) hplayer
    refine ⟨hattended, fun client hclient => ?_⟩
    apply hattended.goto (hgoto client hclient) rfl
    obtain rfl := Option.some.inj hclient
    intro c hc hplayer
    have hgone := Store.get?_of_connect hc hplayer
    simp at hgone

theorem Attended.steps (h : σ.Attended) (hguard : Orderly env σ e) (hstep : Steps env σ e σ')
    : σ'.Attended := by
  have hsound := hstep.sound h.sound
  cases hstep with
  | nothing => exact h
  | turnedAway hconnects => exact (h.connects hconnects).1
  | connected hconnects => exact (h.connects hconnects).2 _ rfl
  | @received client gate pkt ht =>
    apply h.goto hsound
    . exact (Phase.early_received gate pkt).invites?
    . exact h.session client _ ht (by simp)
  | hungUp ht => exact h.goto hsound rfl (h.session _ _ ht (by simp))
  | went ht hrun hstep => exact h.after hguard ht hstep

theorem attended_of_orderly (h : (machine env).Reach (Orderly env) initial σ) : σ.Attended := by
  apply h.invariant Attended
  . refine ⟨sound_initial, ?_, ?_, ?_, ?_⟩
    . intro game g hg
      simp [initial, initialWorld, initialStore] at hg
    . intro inv i hi
      simp [initial, initialWorld, initialStore] at hi
    . simp [initial]
    . simp [initial]
  . intro σ e σ' hattended hguard hstep
    exact hattended.steps hguard (hattended.sound.steps hstep)

end Interleaved

/-! ## What has been freed is not used -/

theorem Store.Attended.kept (h : s.Attended) (hv : s.Valid extra)
    (hi : s.invitations.get? inv = some i) (hor : i.source = x ∨ i.target = x)
    (hc : s.clients.get? x = some c) : c.refCount ≠ 1 := by
  obtain ⟨c', hc', hin⟩ := isLoggedIn_iff.mp (h inv i hi x hor)
  obtain rfl := Option.some.inj (hc.symm.trans hc')
  exact hv.refCount_ne_one hc hi hor ((hv.client x c hc).held hin)

theorem Outcome.not_freed {id : Int} {y : Except Fault (Int × World)}
    (h : Outcome env w client op id y) (hv : w.store.Valid extra) (hattended : w.store.Attended)
    : y ≠ .error .useAfterFree := by
  have hopponent : ∀ {inv i co}, w.store.invitationOf client id = some inv →
      w.store.invitations.get? inv = some i →
      w.store.clients.get? (i.opponentOf client) = some co → co.refCount ≠ 1 := by
    intro inv i co hnamed hi hco
    obtain ⟨-, i', -, -, hi', hor⟩ := hv.invitationOf hnamed
    obtain rfl := Option.some.inj (hi.symm.trans hi')
    exact hattended.kept hv hi (opponentOf_or hor) hco
  cases h with
  | returns => simp
  | orphaned horphan =>
    obtain ⟨inv, i, co, hnamed, hi, -, hco, hone⟩ := horphan
    exact absurd hone (hopponent hnamed hi hco)
  | stranded _ hmove hco hone => exact absurd hone (hopponent hmove.named hmove.invitation hco)

theorem Operation.perform_not_freed (env : Env) (hv : w.store.Valid extra) (hl : w.store.Linked)
    (hheld : 0 < w.store.registered client + extra client) (hattended : w.store.Attended)
    (hop : ∀ target sourceRole targetRole, op ≠ .make target sourceRole targetRole)
    : (op.perform client).run env w ≠ .error .useAfterFree := by
  have hcall : ∀ id, (∀ id', op ≠ .accept id') →
      Outcome env w client op id ((op.call client).run env w) →
      (op.perform client).run env w ≠ .error .useAfterFree := by
    intro id haccept houtcome
    have hsafe := houtcome.not_freed hv hattended
    rw [Operation.perform, run_bind]
    . cases hrun : (op.call client).run env w with
      | ok p => simp
      | error f =>
        rw [hrun] at hsafe
        simpa using hsafe
    . exact haccept
  cases op with
  | make => exact absurd rfl (hop _ _ _)
  | accept id =>
    obtain ⟨r, w', state, hrun, -⟩ := run_accept env id hv hheld
    rw [Operation.perform, hrun]
    simp
  | revoke id => exact hcall id (by simp) (outcome_revoke env id hv hl hheld)
  | decline id => exact hcall id (by simp) (outcome_decline env id hv hl hheld)
  | resign id => exact hcall id (by simp) (outcome_resign env id hv hl hheld)
  | move id text => exact hcall id (by simp) (outcome_move env id text hv hl hheld)

theorem clientMakeInvitation_not_freed {target : ClientPtr} {cs ct : Client} (env : Env)
    (sourceRole targetRole : GameRole) (hv : w.store.Valid extra) (hcs : w.store.clients.get? client = some cs)
    (hct : w.store.clients.get? target = some ct) (hne : client ≠ target)
    : (clientMakeInvitation client target sourceRole targetRole).run env w
      ≠ .error .useAfterFree := by
  cases halloc : env.allocOk w.trace.allocs with
  | false =>
    rw [clientMakeInvitation_run_no_room hcs hct hne halloc]
    simp
  | true =>
    cases hplayer : cs.player with
    | none =>
      rw [clientMakeInvitation_run_no_player hv hcs hct hne hplayer halloc]
      split <;> simp
    | some player =>
      obtain ⟨p, hp⟩ := hv.player_live hcs hplayer
      rw [clientMakeInvitation_run hv hcs hct hne hplayer hp halloc]
      split <;> simp

namespace Interleaved

variable {σ σ' : Interleaved} {e : HandlerEvent}

theorem Attended.step_not_freed (env : Env) (h : σ.Attended) (ht : σ.threads client = some t)
    : (t.step client).run env σ.world ≠ .error .useAfterFree := by
  obtain ⟨held, hv, -⟩ := h.sound.valid
  obtain ⟨c, hc⟩ := h.sound.live ht
  have hl := h.sound.linked
  have hregistered := h.sound.registered client t ht
  have hheld : 0 < σ.world.store.registered client + refsOf held client := by omega
  have hok := h.sound.phases client t ht
  have hlooked := fun invitee hdr (hphase : t.phase = .unref invitee hdr) =>
    h.sound.looked_up ht hphase
  have hserves : t.phase ≠ .unregister → ∃ extra, σ.world.store.Serves extra client := h.serves ht
  have hinvitee := h.invitees client t
  obtain ⟨gate, phase⟩ := t
  dsimp only at hok hlooked hserves hinvitee
  cases phase with
  | login payload =>
    by_cases hrefused : LoginRefused c payload
    . rw [Thread.step_login_refused gate hc hrefused]
      simp
    . obtain ⟨name, rfl⟩ : ∃ name, payload = some name := by
        cases payload with
        | none => exact absurd (.inr (.inl rfl)) hrefused
        | some name => exact ⟨name, rfl⟩
      by_cases havail : PlayerAvailable env σ.world name
      . rw [Thread.step_login_enlisted gate hv hc hrefused havail]
        simp
      . obtain ⟨w₁, hrun, -⟩ := Thread.step_login_no_room gate hv hc hrefused havail
        rw [hrun]
        simp
  | logIn player =>
    obtain ⟨hplayer, hknown⟩ := hok
    have hout : c.loggedIn = .loggedOut := by
      cases hin : c.loggedIn with
      | loggedOut => rfl
      | loggedIn => exact absurd (hplayer c hc) ((hv.client client c hc).player hin)
    obtain ⟨p, hp, -⟩ := hv.player player hknown
    simp only [Thread.step, run_bind]
    by_cases hsem : σ.world.store.loginSem = 0
    . rw [Thread.clientLogin_run_deadlock player hsem]
      simp
    . rw [clientLogin_run hv.slotsLive hc hout hp hsem]
      cases env.allocOk σ.world.trace.allocs with
      | false => simp
      | true => cases (σ.world.store.lookup p.name).isSome <;> simp
  | users =>
    rw [Thread.step_users hv]
    split
    . split <;> simp
    . simp
  | lookup user hdr =>
    simp only [Thread.step, run_bind, cregLookup_run user hv]
    cases σ.world.store.lookup user with
    | none => simp
    | some invitee => simp
  | unref invitee hdr =>
    obtain ⟨ci, hci, hout⟩ := hlooked invitee hdr rfl
    simp only [Thread.step, run_bind, clientUnref_run_loggedOut hci hout, run_pure]
    simp
  | invite invitee hdr =>
    simp only [Thread.step]
    split
    . simp
    . next hne =>
      cases hroles : inviteRoles? hdr with
      | none => simp
      | some roles =>
        have hin := hinvitee invitee ht (by simp [Phase.invites?, hne, hroles])
        obtain ⟨ct, hct, -⟩ := Store.isLoggedIn_iff.mp hin
        have hsafe := clientMakeInvitation_not_freed env roles.1 roles.2 hv hc hct hne
        simp only [run_bind, run_getStore]
        cases hmake : (clientMakeInvitation client invitee roles.1 roles.2).run env σ.world with
        | ok p => simp
        | error f =>
          rw [hmake] at hsafe
          simpa using hsafe
  | acknowledge inv id =>
    simp only [Thread.step, run_bind, run_newHeader, clientSendPacket_run _ _ hc, run_pure]
    simp
  | operation op =>
    have hsafe := Operation.perform_not_freed env hv hl hheld h.attended hok
    simp only [Thread.step, run_bind]
    cases hperform : (op.perform client).run env σ.world with
    | ok p =>
      simp only [run_ite, run_pure]
      split <;> simp
    | error f =>
      rw [hperform] at hsafe
      simpa using hsafe
  | respond responses =>
    cases responses with
    | nil => simp [Thread.step]
    | cons response rest =>
      cases response with
      | nack =>
        simp only [Thread.step, run_bind, Response.send, clientSendNack_run hc, run_pure]
        simp
      | ack data =>
        obtain ⟨r, hack⟩ := clientSendAck_run env data hc
        simp only [Thread.step, run_bind, Response.send, hack, run_pure]
        simp
  | logout =>
    obtain ⟨extra, hserves⟩ := hserves (by simp)
    cases hstate : c.loggedIn with
    | loggedOut =>
      simp only [Thread.step, run_bind, clientLogout_run_loggedOut hc hstate, run_pure]
      simp
    | loggedIn =>
      obtain ⟨w₁, player, -, -, hrun⟩ := clientLogout_run env hserves hc hstate
      simp only [Thread.step, run_bind, hrun, run_pure]
      simp
  | unregister =>
    obtain ⟨i, hi⟩ := slotOf?_of_registered hregistered
    simp only [Thread.step, run_bind, cregUnregister_run hi hc (hok c hc), run_pure]
    simp

theorem Attended.exec_not_freed (h : σ.Attended) (e : HandlerEvent)
    : exec env σ e ≠ .error .useAfterFree := by
  cases e with
  | connect fd =>
    obtain ⟨held, hv, -⟩ := h.sound.valid
    obtain ⟨o, w', hrun, -⟩ := cregRegister_run env hv.registry fd
    rw [exec, hrun]
    cases o <;> simp
  | packet client pkt =>
    rw [exec]
    split <;> simp
  | hangUp client =>
    rw [exec]
    split <;> simp
  | go client =>
    rw [exec]
    split
    . next t ht =>
      have hsafe := h.step_not_freed env ht
      unfold go
      cases hrun : (t.step client).run env σ.world with
      | ok p => simp
      | error f =>
        rw [hrun] at hsafe
        simpa using hsafe
    . simp

/-! ## Invitations between those who are there -/

end Interleaved

def Store.Present (s : Store) (x : ClientPtr) : Prop :=
  ∃ c, s.clients.get? x = some c ∧ 0 < c.refCount ∧ 0 < s.registered x ∧ c.loggedIn = .loggedIn

namespace Interleaved

/--
`client_make_invitation` is handed a client that is present, so are both participants of every
invitation in a list, and nothing that has been freed is used in the next step.
-/
structure InvitesPresent (env : Env) (σ : Interleaved) : Prop where
  target : ∀ client gate invitee hdr, σ.threads client = some ⟨gate, .invite invitee hdr⟩ →
    client ≠ invitee → inviteRoles? hdr ≠ none → σ.world.store.Present invitee
  participants : ∀ x c node, σ.world.store.clients.get? x = some c → node ∈ c.inviteHead →
    ∃ i, σ.world.store.invitations.get? node.invitation = some i
      ∧ σ.world.store.Present i.source ∧ σ.world.store.Present i.target
  safe : ∀ e, exec env σ e ≠ .error .useAfterFree

variable {σ : Interleaved}

theorem Attended.present (h : σ.Attended) (hin : σ.world.store.isLoggedIn x = true)
    : σ.world.store.Present x := by
  obtain ⟨c, hc, hstate⟩ := Store.isLoggedIn_iff.mp hin
  obtain ⟨held, hv, -⟩ := h.sound.valid
  have hregistered := h.sound.session x c hc hstate
  have hcount := (hv.client x c hc).refCount
  exact ⟨c, hc, by omega, hregistered, hstate⟩

/--
In an orderly run everybody who is invited, or takes part in an invitation, is present.
-/
theorem invitesPresent_of_orderly (h : (machine env).Reach (Orderly env) initial σ)
    : InvitesPresent env σ := by
  have hattended := attended_of_orderly h
  obtain ⟨held, hv, -⟩ := hattended.sound.valid
  constructor
  . intro client gate invitee hdr ht hne hroles
    apply hattended.present
    apply hattended.invitees client _ _ ht
    simp [Phase.invites?, hne, Option.isSome_iff_ne_none, hroles]
  . intro x c node hc hnode
    obtain ⟨-, i, -, -, hi, -⟩ := hv.invitationOf (hv.invitationOf_node hc hnode)
    exact ⟨i, hi, hattended.present (hattended.attended _ i hi _ (.inl rfl)),
      hattended.present (hattended.attended _ i hi _ (.inr rfl))⟩
  . exact hattended.exec_not_freed

/--
`A` has invited `B`, and both are there.
-/
theorem invitesPresent_of_inviteEvents
    : ∃ σ, (machine calmEnv).Reach (Orderly calmEnv) initial σ
      ∧ σ.world.store.listed 1 0 = 1 ∧ InvitesPresent calmEnv σ := by
  obtain ⟨σ, hreach, hcheck⟩ := Machine.Reach.of_any_run (machine calmEnv) (Orderly calmEnv) initial
    inviteEvents (fun σ => decide (σ.world.store.listed 1 0 = 1)) (by decide +kernel)
  exact ⟨σ, hreach, of_decide_eq_true hcheck, invitesPresent_of_orderly hreach⟩

/--
`A` has looked `B` up, and `B` leaves before `A` has given the reference back and invited it.
-/
theorem not_invitesPresent
    : ∃ σ, (machine calmEnv).Reach (fun _ _ => True) initial σ
      ∧ exec calmEnv σ (.go 0) = .error .useAfterFree ∧ ¬ InvitesPresent calmEnv σ := by
  obtain ⟨σ, hreach, hcheck⟩ := Machine.Reach.of_any_run (machine calmEnv) (fun _ _ => True) initial
    (inviteEvents.take 12 ++ [.hangUp 1, .go 1, .go 1, .go 0])
    (fun σ => match exec calmEnv σ (.go 0) with
      | .error .useAfterFree => true
      | _ => false) (by decide +kernel)
  have hfreed : exec calmEnv σ (.go 0) = .error .useAfterFree := by
    split at hcheck
    . next heq => exact heq
    . simp at hcheck
  exact ⟨σ, hreach, hfreed, fun hpresent => hpresent.safe _ hfreed⟩

end Interleaved

end Jeux
