import Jeux.Lemmas.SideBySide

/-!
The six operations, each carried out in two worlds that look the same to its participants.
-/

namespace Jeux

open ServerM

section

variable {answers : Env} {w v : World} {extra extra' : ClientPtr → Nat} {client x : ClientPtr}
  {op : Option Operation} {id : Int} {inv : InvitationPtr} {i : Invitation}

/-! ## Small steps of the two runs -/

theorem SameCourse.start (hscene : w.store.SameScene v.store client op) (hv : w.store.Valid extra)
    : SameCourse client op w v w v where
  told := ⟨[], by simp, by simp, by simp⟩
  parallel := fun _ hfits => hscene.parallel hv hfits

theorem SameCourse.refused (hscene : w.store.SameScene v.store client op) (hv : w.store.Valid extra)
    (n m : Nat)
    : SameCourse client op w v { w with trace.allocs := n } { v with trace.allocs := m } where
  told := ⟨[], by simp, by simp, by simp⟩
  parallel := fun _ hfits => hscene.parallel hv hfits

theorem noticeOf_since (answers : Env) (hscene : w.store.SameScene v.store client op)
    (type : PacketType) (hx : x ∈ w.store.participants client op) (inv : InvitationPtr)
    : noticeOf (answers.since v.trace) v type x inv
        =
      noticeOf (answers.since w.trace) w type x inv := by
  simp [noticeOf, hscene.idOf hx]

theorem mem_participants_source {s : Store} (hnamed : s.named? client op = some inv)
    (hi : s.invitations.get? inv = some i)
    : i.source ∈ s.participants client op := by
  simp [Store.participants_named hnamed hi]

theorem mem_participants_target {s : Store} (hnamed : s.named? client op = some inv)
    (hi : s.invitations.get? inv = some i)
    : i.target ∈ s.participants client op := by
  simp [Store.participants_named hnamed hi]

theorem mem_participants_opponentOf {s : Store} (hnamed : s.named? client op = some inv)
    (hi : s.invitations.get? inv = some i)
    : i.opponentOf client ∈ s.participants client op := by
  unfold Invitation.opponentOf
  split
  . exact mem_participants_target hnamed hi
  . exact mem_participants_source hnamed hi

structure Footprint.Has (F : Footprint) (ρ : Renaming) (w v : World) (client : ClientPtr)
    (op : Option Operation) (inv : InvitationPtr) (i : Invitation) : Prop where
  covers : F.Covers ρ inv i
  clients : ∀ x ∈ w.store.participants client op, F.clients x
  start : Store.Parallel F ρ w.store v.store w.store v.store

theorem SameCourse.named {w' v' : World}
    (hscene : w.store.SameScene v.store client op) (hv : w.store.Valid extra)
    (hnamed : w.store.named? client op = some inv) (hi : w.store.invitations.get? inv = some i)
    (hsent : w'.trace.sent = w.trace.sent) (hsent' : v'.trace.sent = v.trace.sent)
    (hpar : ∀ F ρ, F.Has ρ w v client op inv i →
      (w'.store.games.next ≠ w.store.games.next →
        F.games w.store.games.next ∧ ρ.game w.store.games.next = v.store.games.next) →
      Store.Parallel F ρ w.store v.store w'.store v'.store)
    : SameCourse client op w v w' v' where
  told := ⟨[], by simp [hsent], by simp [hsent'], by simp⟩
  parallel := by
    intro ρ hfits
    apply hpar
    . exact ⟨Store.covers_footprint hv hfits hnamed hi, fun x hx => hx, hscene.parallel hv hfits⟩
    . exact fun hnew => ⟨.inr ⟨hnew, rfl⟩, hfits.newGame hnew⟩

end

section Operations

variable {w v : World} {extra extra' : ClientPtr → Nat} {client : ClientPtr}

theorem clientRevokeInvitation_alike (answers : Env) (id : Int)
    (hscene : w.store.SameScene v.store client (some (.revoke id)))
    (hw : w.store.Holds extra client) (hv : v.store.Holds extra' client)
    : Alike (SameCourse client (some (.revoke id)) w v)
        ((clientRevokeInvitation client id).run (answers.since w.trace) w)
        ((clientRevokeInvitation client id).run (answers.since v.trace) v) := by
  by_cases hopen : ∃ inv i, w.store.Open client id inv i
  . obtain ⟨inv, i, hopen⟩ := hopen
    have hopen' := (hscene.open_iff rfl).mpr hopen
    have hnamed : w.store.named? client (some (.revoke id)) = some inv := hopen.named
    have htarget := mem_participants_target hnamed hopen.invitation
    obtain ⟨-, i', -, -, hi', hor⟩ := hw.valid.invitationOf hopen.named
    obtain rfl := Option.some.inj (hopen.invitation.symm.trans hi')
    have hnotice := noticeOf_since answers hscene .revoked htarget inv
    cases hsend : answers.sendOk 0 with
    | false =>
      rw [clientRevokeInvitation_run_unsent hw.valid hopen.named hopen.invitation hopen.state
          (by simpa using hsend),
        clientRevokeInvitation_run_unsent hv.valid hopen'.named hopen'.invitation hopen'.state
          (by simpa using hsend), hnotice]
      refine .returns _ (SameCourse.send ⟨_, w.trace⟩ ⟨_, v.trace⟩ ?_ answers htarget _ none)
      refine .named hscene hw.valid hnamed hopen.invitation rfl rfl ?_
      exact fun F ρ hF _ => hF.start.close hF.covers.invitation hF.covers.same
    | true =>
      have hshared := hopen.shared hw.valid hw.linked
      cases hor with
      | inl hsource =>
        obtain ⟨ct, hct, -⟩ := (hw.valid.invitation inv i hopen.invitation).target
        rw [clientRevokeInvitation_run hw.valid hw.linked hw.held hopen.named hopen.invitation
            hopen.state hsource hct (by simpa using hsend),
          clientRevokeInvitation_run hv.valid hv.linked hv.held hopen'.named hopen'.invitation
            hopen'.state hsource ((hscene.clients _ htarget).trans hct) (by simpa using hsend),
          hnotice]
        by_cases hone : ct.refCount = 1
        . rw [if_pos hone, if_pos hone]
          exact .fails _
        . rw [if_neg hone, if_neg hone]
          refine .returns _
            (SameCourse.send ⟨_, w.trace⟩ ⟨_, v.trace⟩ ?_ answers htarget _ none)
          refine .named hscene hw.valid hnamed hopen.invitation rfl rfl ?_
          exact fun F ρ hF _ => (hF.start.close hF.covers.invitation hF.covers.same).dissolve
            (hF.clients _ (Store.mem_participants ..)) (hF.clients _ htarget) hF.covers.close
            hopen.closed hshared.refCount
      | inr hself =>
        subst hself
        rw [clientRevokeInvitation_run_target hw.valid hw.linked hopen.named hopen.invitation
            hopen.state rfl (by simpa using hsend),
          clientRevokeInvitation_run_target hv.valid hv.linked hopen'.named hopen'.invitation
            hopen'.state rfl (by simpa using hsend), hnotice]
        refine .returns _
          (SameCourse.send ⟨_, w.trace⟩ ⟨_, v.trace⟩ ?_ answers htarget _ none)
        refine .named hscene hw.valid hnamed hopen.invitation rfl rfl ?_
        exact fun F ρ hF _ => (hF.start.close hF.covers.invitation hF.covers.same).drop
          (hF.clients _ htarget) hF.covers.close hopen.closed (by simp [hshared.refCount])
  . have hopen' : ¬ ∃ inv i, v.store.Open client id inv i := by
      rintro ⟨inv, i, h⟩
      exact hopen ⟨inv, i, (hscene.open_iff rfl).mp h⟩
    obtain ⟨c, hc⟩ := hw.valid.held_live client hw.held
    obtain ⟨c', hc'⟩ := hv.valid.held_live client hv.held
    rw [clientRevokeInvitation_run_refused hw.valid hc
        (fun inv i hid hi hstate => hopen ⟨inv, i, hid, hi, hstate⟩),
      clientRevokeInvitation_run_refused hv.valid hc'
        (fun inv i hid hi hstate => hopen' ⟨inv, i, hid, hi, hstate⟩)]
    exact .returns _ (.start hscene hw.valid)

theorem clientDeclineInvitation_alike (answers : Env) (id : Int)
    (hscene : w.store.SameScene v.store client (some (.decline id)))
    (hw : w.store.Holds extra client) (hv : v.store.Holds extra' client)
    : Alike (SameCourse client (some (.decline id)) w v)
        ((clientDeclineInvitation client id).run (answers.since w.trace) w)
        ((clientDeclineInvitation client id).run (answers.since v.trace) v) := by
  by_cases hopen : ∃ inv i, w.store.Open client id inv i
  . obtain ⟨inv, i, hopen⟩ := hopen
    have hopen' := (hscene.open_iff rfl).mpr hopen
    have hnamed : w.store.named? client (some (.decline id)) = some inv := hopen.named
    have hsource := mem_participants_source hnamed hopen.invitation
    have hnotice := noticeOf_since answers hscene .declined hsource inv
    have hshared := hopen.shared hw.valid hw.linked
    obtain ⟨-, i', -, -, hi', hor⟩ := hw.valid.invitationOf hopen.named
    obtain rfl := Option.some.inj (hopen.invitation.symm.trans hi')
    cases hor with
    | inl hself =>
      subst hself
      rw [clientDeclineInvitation_run_source hw.valid hw.linked hopen.named hopen.invitation
          hopen.state rfl,
        clientDeclineInvitation_run_source hv.valid hv.linked hopen'.named hopen'.invitation
          hopen'.state rfl, hnotice]
      refine .returns _
        (SameCourse.send ⟨_, w.trace⟩ ⟨_, v.trace⟩ ?_ answers hsource _ none)
      refine .named hscene hw.valid hnamed hopen.invitation rfl rfl ?_
      exact fun F ρ hF _ => (hF.start.close hF.covers.invitation hF.covers.same).drop
        (hF.clients _ hsource) hF.covers.close hopen.closed (by simp [hshared.refCount])
    | inr htarget =>
      obtain ⟨cs, hcs, -⟩ := (hw.valid.invitation inv i hopen.invitation).source
      rw [clientDeclineInvitation_run hw.valid hw.linked hw.held hopen.named hopen.invitation
          hopen.state htarget hcs,
        clientDeclineInvitation_run hv.valid hv.linked hv.held hopen'.named hopen'.invitation
          hopen'.state htarget ((hscene.clients _ hsource).trans hcs), hnotice]
      by_cases hone : cs.refCount = 1
      . rw [if_pos hone, if_pos hone]
        exact .fails _
      . rw [if_neg hone, if_neg hone]
        refine .returns _
          (SameCourse.send ⟨_, w.trace⟩ ⟨_, v.trace⟩ ?_ answers hsource _ none)
        refine .named hscene hw.valid hnamed hopen.invitation rfl rfl ?_
        exact fun F ρ hF _ => (hF.start.close hF.covers.invitation hF.covers.same).dissolve
          (hF.clients _ (Store.mem_participants ..)) (hF.clients _ hsource) hF.covers.close
          hopen.closed hshared.refCount
  . have hopen' : ¬ ∃ inv i, v.store.Open client id inv i := by
      rintro ⟨inv, i, h⟩
      exact hopen ⟨inv, i, (hscene.open_iff rfl).mp h⟩
    obtain ⟨c, hc⟩ := hw.valid.held_live client hw.held
    obtain ⟨c', hc'⟩ := hv.valid.held_live client hv.held
    rw [clientDeclineInvitation_run_refused hw.valid hc
        (fun inv i hid hi hstate => hopen ⟨inv, i, hid, hi, hstate⟩),
      clientDeclineInvitation_run_refused hv.valid hc'
        (fun inv i hid hi hstate => hopen' ⟨inv, i, hid, hi, hstate⟩)]
    exact .returns _ (.start hscene hw.valid)

theorem clientAcceptInvitation_alike (answers : Env) (id : Int)
    (hscene : w.store.SameScene v.store client (some (.accept id)))
    (hw : w.store.Holds extra client) (hv : v.store.Holds extra' client)
    : Alike (SameCourse client (some (.accept id)) w v)
        ((clientAcceptInvitation client id).run (answers.since w.trace) w)
        ((clientAcceptInvitation client id).run (answers.since v.trace) v) := by
  obtain ⟨c, hc⟩ := hw.valid.held_live client hw.held
  obtain ⟨c', hc'⟩ := hv.valid.held_live client hv.held
  by_cases hopen : ∃ inv i, w.store.Open client id inv i ∧ i.target = client
  . obtain ⟨inv, i, hopen, htarget⟩ := hopen
    have hopen' := (hscene.open_iff rfl).mpr hopen
    have hnamed : w.store.named? client (some (.accept id)) = some inv := hopen.named
    have hsource := mem_participants_source hnamed hopen.invitation
    cases halloc : answers.allocOk 0 with
    | false =>
      rw [clientAcceptInvitation_run_no_room hopen.named hc hopen.invitation hopen.state htarget
          (by simpa using halloc),
        clientAcceptInvitation_run_no_room hopen'.named hc' hopen'.invitation hopen'.state htarget
          (by simpa using halloc)]
      refine .returns _ ?_
      refine .named hscene hw.valid hnamed hopen.invitation rfl rfl ?_
      exact fun F ρ hF _ => hF.start.acceptFailed hF.covers.invitation hF.covers.same
    | true =>
      have hpacket : acceptedPacket (answers.since v.trace) v inv i
          = acceptedPacket (answers.since w.trace) w inv i := by
        simp [acceptedPacket, hscene.idOf hsource]
      have hsend : (answers.since v.trace).sendOk v.trace.sent.length
          = (answers.since w.trace).sendOk w.trace.sent.length := by simp
      rw [clientAcceptInvitation_run hw.valid hopen.named hopen.invitation hopen.state htarget
          (by simpa using halloc),
        clientAcceptInvitation_run hv.valid hopen'.named hopen'.invitation hopen'.state htarget
          (by simpa using halloc), hpacket, hsend]
      refine .returns _ (SameCourse.send ⟨_, { w.trace with allocs := w.trace.allocs + 1 }⟩
        ⟨_, { v.trace with allocs := v.trace.allocs + 1 }⟩ ?_ answers hsource _ _)
      refine .named hscene hw.valid hnamed hopen.invitation rfl rfl ?_
      intro F ρ hF hnew
      obtain ⟨hgame, hnext⟩ := hnew (by simp)
      exact hF.start.accept hF.covers.invitation hF.covers.same hgame hnext
  . have hopen' : ¬ ∃ inv i, v.store.Open client id inv i ∧ i.target = client := by
      rintro ⟨inv, i, h, htarget⟩
      exact hopen ⟨inv, i, (hscene.open_iff rfl).mp h, htarget⟩
    rw [clientAcceptInvitation_run_refused hw.valid hc
        (fun inv i hid hi htarget hstate => hopen ⟨inv, i, ⟨hid, hi, hstate⟩, htarget⟩),
      clientAcceptInvitation_run_refused hv.valid hc'
        (fun inv i hid hi htarget hstate => hopen' ⟨inv, i, ⟨hid, hi, hstate⟩, htarget⟩)]
    exact .returns _ (.start hscene hw.valid)

theorem clientResignGame_alike (answers : Env) (id : Int)
    (hscene : w.store.SameScene v.store client (some (.resign id)))
    (hw : w.store.Holds extra client) (hv : v.store.Holds extra' client)
    : Alike (SameCourse client (some (.resign id)) w v)
        ((clientResignGame client id).run (answers.since w.trace) w)
        ((clientResignGame client id).run (answers.since v.trace) v) := by
  obtain ⟨c, hc⟩ := hw.valid.held_live client hw.held
  obtain ⟨c', hc'⟩ := hv.valid.held_live client hv.held
  by_cases hplay : ∃ inv i game, w.store.Playing client id inv i game
  . obtain ⟨inv, i, game, hplay⟩ := hplay
    have hplay' := (hscene.playing_iff rfl).mpr hplay
    have hnamed : w.store.named? client (some (.resign id)) = some inv := hplay.named
    have hclient := Store.mem_participants w.store client (some (.resign id))
    have hopponent := mem_participants_opponentOf hnamed hplay.invitation
    have hnotice := noticeOf_since answers hscene .resigned hopponent inv
    cases hsend : answers.sendOk 0 with
    | false =>
      rw [clientResignGame_run_unsent hw.valid hplay.named hplay.invitation hplay.state hplay.owned
          (by simpa using hsend),
        clientResignGame_run_unsent hv.valid hplay'.named hplay'.invitation hplay'.state
          hplay'.owned (by simpa using hsend), hnotice]
      refine .returns _
        (SameCourse.send ⟨_, w.trace⟩ ⟨_, v.trace⟩ ?_ answers hopponent _ none)
      refine .named hscene hw.valid hnamed hplay.invitation rfl rfl ?_
      intro F ρ hF _
      obtain ⟨hgame, hsame⟩ := hF.covers.game game hplay.owned
      exact hF.start.resign hF.covers.invitation hF.covers.same hgame hsame _
    | true =>
      have hshared := hplay.shared hw.valid hw.linked
      obtain ⟨-, i', -, -, hi', hor⟩ := hw.valid.invitationOf hplay.named
      obtain rfl := Option.some.inj (hplay.invitation.symm.trans hi')
      have hok := hw.valid.invitation inv i hplay.invitation
      obtain ⟨c₁, hc₁, hplayer⟩ := hok.live hor
      obtain ⟨co, hco, hplayero⟩ := hok.live (opponentOf_or hor)
      obtain ⟨player, hplayer⟩ := Option.ne_none_iff_exists'.mp hplayer
      obtain ⟨playero, hplayero⟩ := Option.ne_none_iff_exists'.mp hplayero
      rw [clientResignGame_run hw.valid hw.linked hw.held hplay.named hplay.invitation hplay.state
          hplay.owned hc₁ hco hplayer hplayero (by simpa using hsend),
        clientResignGame_run hv.valid hv.linked hv.held hplay'.named hplay'.invitation hplay'.state
          hplay'.owned ((hscene.clients _ hclient).trans hc₁)
          ((hscene.clients _ hopponent).trans hco) hplayer hplayero (by simpa using hsend), hnotice]
      by_cases hone : co.refCount = 1
      . rw [if_pos hone, if_pos hone]
        exact .fails _
      . rw [if_neg hone, if_neg hone]
        generalize hresult : resultOf (i.roleOf client) player playero
          (i.roleOf (i.opponentOf client)) = result
        refine .returns _ (SameCourse.send
          ⟨_, { w.trace with posted := w.trace.posted ++ [result] }⟩
          ⟨_, { v.trace with posted := v.trace.posted ++ [result] }⟩ ?_ answers hopponent _
          none)
        refine .named hscene hw.valid hnamed hplay.invitation rfl rfl ?_
        intro F ρ hF _
        obtain ⟨hgame, hsame⟩ := hF.covers.game game hplay.owned
        have hposted := (hF.start.resign hF.covers.invitation hF.covers.same hgame hsame
          (i.roleOf client)).post answers.expected result
        have hleft := (hshared.resign game (i.roleOf client)).post answers.expected result
        exact hposted.dissolve (hF.clients _ hclient) (hF.clients _ hopponent) hF.covers.close
          hleft.invitation hleft.refCount
  . have hno : ∀ inv i, w.store.invitationOf client id = some inv →
        w.store.invitations.get? inv = some i → i.state ≠ .acceptedState ∨ i.game = none := by
      intro inv i hid hi
      cases hgame : i.game with
      | none => exact .inr rfl
      | some game => exact .inl fun hstate => hplay ⟨inv, i, game, hid, hi, hstate, hgame⟩
    have hno' : ∀ inv i, v.store.invitationOf client id = some inv →
        v.store.invitations.get? inv = some i → i.state ≠ .acceptedState ∨ i.game = none := by
      intro inv i hid hi
      have hid' := hscene.invitationOf id ▸ hid
      exact hno inv i hid' (hscene.invitation inv hid' ▸ hi)
    rw [clientResignGame_run_refused hw.valid hc hno, clientResignGame_run_refused hv.valid hc' hno']
    exact .returns _ (.start hscene hw.valid)

/-! ## A move -/

section Move

variable {answers : Env} {opponent : ClientPtr} {inv : InvitationPtr} {game : GamePtr} {g : Game}
  {move : GameMove} {winner : GameRole} {id : Int}

def movedHeader (answers : Env) (ido : Int) : PacketHeader :=
  createHeader (answers.clock 0) .moved ido .nullRole 40

def endedHeader (answers : Env) (ido : Int) (winner : GameRole) : PacketHeader :=
  createHeader (answers.clock 1) .ended ido winner 0

theorem moved_since (w : World)
    : w.moved (answers.since w.trace) opponent inv game g move
        =
      { store := w.store.play game move
        trace := Trace.send { w.trace with allocs := w.trace.allocs + 1 } (answers.since w.trace)
          opponent (movedHeader answers (w.store.idOf opponent inv))
          (some (gameUnparseState (gameApplyMove g move).2)) } := by
  simp [World.moved, movedHeader]

theorem endedOnce_since (w : World)
    : endedOnce (answers.since w.trace) opponent inv winner
        (w.moved (answers.since w.trace) opponent inv game g move)
        =
      { store := w.store.play game move
        trace := (Trace.send { w.trace with allocs := w.trace.allocs + 1 } (answers.since w.trace)
          opponent (movedHeader answers (w.store.idOf opponent inv))
          (some (gameUnparseState (gameApplyMove g move).2))).send (answers.since w.trace) opponent
          (endedHeader answers (w.store.idOf opponent inv) winner) none } := by
  have hidOf : (w.store.play game move).idOf opponent inv = w.store.idOf opponent inv := rfl
  simp [endedOnce, World.ended, moved_since, endedPacket, endedHeader, hidOf]

theorem endedTwice_since (w : World)
    : endedTwice (answers.since w.trace) client opponent inv id winner
        (w.moved (answers.since w.trace) opponent inv game g move)
        =
      { store := w.store.play game move
        trace := ((Trace.send { w.trace with allocs := w.trace.allocs + 1 } (answers.since w.trace)
          opponent (movedHeader answers (w.store.idOf opponent inv))
          (some (gameUnparseState (gameApplyMove g move).2))).send (answers.since w.trace) opponent
          (endedHeader answers (w.store.idOf opponent inv) winner) none).send (answers.since w.trace)
          client { endedHeader answers (w.store.idOf opponent inv) winner with
            id := UInt8.ofInt id } none } := by
  have hidOf : (w.store.play game move).idOf opponent inv = w.store.idOf opponent inv := rfl
  rw [endedTwice, endedOnce_since]
  simp [World.ended, moved_since, endedPacket, endedHeader, hidOf]

theorem endsGame_since (w : World)
    : EndsGame (answers.since w.trace) w g move
        ↔
      answers.sendOk 0 = true ∧ (gameApplyMove g move).2.isOver = true ∧ answers.sendOk 1 = true
        ∧ answers.sendOk 2 = true := by
  constructor
  . rintro ⟨hsent, hover, hended, hself⟩
    exact ⟨by simpa using hsent, hover, by simpa using hended, by simpa using hself⟩
  . rintro ⟨hsent, hover, hended, hself⟩
    exact ⟨by simpa using hsent, hover, by simpa using hended, by simpa using hself⟩

theorem clientMakeMove_run_goesOn {w : World} {i : Invitation} {text : CString}
    (hw : w.store.Holds extra client) (hmove : w.store.Move client id text inv i game g move)
    (halloc : answers.allocOk 0 = true) (hends : ¬ EndsGame (answers.since w.trace) w g move)
    : (clientMakeMove client id text).run (answers.since w.trace) w
        =
      .ok (
        if answers.sendOk 0 = false then
          (-1, w.moved (answers.since w.trace) (i.opponentOf client) inv game g move)
        else if (gameApplyMove g move).2.isOver = false then
          (0, w.moved (answers.since w.trace) (i.opponentOf client) inv game g move)
        else if answers.sendOk 1 = false then
          (-1, endedOnce (answers.since w.trace) (i.opponentOf client) inv
            (gameApplyMove g move).2.winner
            (w.moved (answers.since w.trace) (i.opponentOf client) inv game g move))
        else
          (-1, endedTwice (answers.since w.trace) client (i.opponentOf client) inv id
            (gameApplyMove g move).2.winner
            (w.moved (answers.since w.trace) (i.opponentOf client) inv game g move))) := by
  obtain ⟨c, hc⟩ := hw.valid.held_live client hw.held
  obtain ⟨-, i', -, -, hi', hor⟩ := hw.valid.invitationOf hmove.named
  obtain rfl := Option.some.inj (hmove.invitation.symm.trans hi')
  obtain ⟨co, hco, -⟩ := (hw.valid.invitation inv i hmove.invitation).live (opponentOf_or hor)
  have hover := gameIsOver_gameApplyMove (legalMove?_eq_some hmove.legal).2
  have hg : (w.moved (answers.since w.trace) (i.opponentOf client) inv game g move).store.games.get?
      game = some (gameApplyMove g move).2 := by
    simp [World.moved, hmove.board]
  have hlen : (w.moved (answers.since w.trace) (i.opponentOf client) inv game g
      move).trace.sent.length = w.trace.sent.length + 1 := by simp [World.moved]
  rw [clientMakeMove_run hw.valid hmove (by simpa using halloc)]
  simp only [Env.since_sendOk, Nat.sub_self]
  cases hsend : answers.sendOk 0 with
  | false => rfl
  | true =>
    rw [if_pos rfl, if_neg (by decide)]
    cases hend : (gameApplyMove g move).2.isOver with
    | false =>
      rw [hend] at hover
      rw [finishMove_run_playing hg hover, if_pos rfl]
    | true =>
      rw [hend] at hover
      rw [finishMove_run_over (w := w.moved (answers.since w.trace) (i.opponentOf client) inv game g
        move) hc hco hg hover, hlen]
      have htwo : w.trace.sent.length + 1 + 1 - w.trace.sent.length = 2 := by omega
      simp only [Env.since_sendOk, Nat.add_sub_cancel_left, htwo, reduceCtorEq, ↓reduceIte]
      -- one of the two packets about the end is not sent
      cases hsend₁ : answers.sendOk 1 with
      | false => rfl
      | true =>
        cases hsend₂ : answers.sendOk 2 with
        | false => rfl
        | true => exact absurd ((endsGame_since w).mpr ⟨hsend, hend, hsend₁, hsend₂⟩) hends

end Move

theorem clientMakeMove_alike (answers : Env) (id : Int) (text : CString)
    (hscene : w.store.SameScene v.store client (some (.move id text)))
    (hw : w.store.Holds extra client) (hv : v.store.Holds extra' client)
    : Alike (SameCourse client (some (.move id text)) w v)
        ((clientMakeMove client id text).run (answers.since w.trace) w)
        ((clientMakeMove client id text).run (answers.since v.trace) v) := by
  by_cases hmove : answers.allocOk 0 = true
      ∧ ∃ inv i game g move, w.store.Move client id text inv i game g move
  . obtain ⟨halloc, inv, i, game, g, move, hmove⟩ := hmove
    have hmove' := (hscene.move_iff rfl).mpr hmove
    have hnamed : w.store.named? client (some (.move id text)) = some inv := hmove.named
    have hclient := Store.mem_participants w.store client (some (.move id text))
    have hopponent := mem_participants_opponentOf hnamed hmove.invitation
    have hidOf := hscene.idOf hopponent inv
    by_cases hends : EndsGame (answers.since w.trace) w g move
    . have hends' := (endsGame_since v).mpr ((endsGame_since w).mp hends)
      obtain ⟨c, co, player, playero, hc, hco, hplayer, hplayero, hrun⟩ := clientMakeMove_run_ends
        hw.valid hw.linked hw.held hmove hends (by simpa using halloc)
      obtain ⟨c', co', player', playero', hc', hco', hplayer', hplayero', hrun'⟩ :=
        clientMakeMove_run_ends hv.valid hv.linked hv.held hmove' hends' (by simpa using halloc)
      obtain rfl := Option.some.inj (((hscene.clients _ hclient).trans hc).symm.trans hc')
      obtain rfl := Option.some.inj (((hscene.clients _ hopponent).trans hco).symm.trans hco')
      obtain rfl := Option.some.inj (hplayer.symm.trans hplayer')
      obtain rfl := Option.some.inj (hplayero.symm.trans hplayero')
      rw [hrun, hrun']
      by_cases hone : co.refCount = 1
      . rw [if_pos hone, if_pos hone]
        exact .fails _
      . rw [if_neg hone, if_neg hone]
        generalize hresult : resultOf (i.roleOf client) player playero
          (gameApplyMove g move).2.winner = result
        rw [endedTwice_since, endedTwice_since, hidOf]
        refine .returns _ (((SameCourse.send
          ⟨_, { w.trace with
            allocs := w.trace.allocs + 1, posted := w.trace.posted ++ [result] }⟩
          ⟨_, { v.trace with
            allocs := v.trace.allocs + 1, posted := v.trace.posted ++ [result] }⟩ ?_ answers
          hopponent _ _).send _ _ answers hopponent _ none).send _ _ answers hclient _ none)
        refine .named hscene hw.valid hnamed hmove.invitation rfl rfl ?_
        intro F ρ hF _
        obtain ⟨hgame, hsame⟩ := hF.covers.game game hmove.owned
        have hposted := (hF.start.play hgame hsame move).post answers.expected result
        have hleft := ((hmove.shared hw.valid hw.linked).play game move).post answers.expected result
        exact hposted.dissolve (hF.clients _ hclient) (hF.clients _ hopponent) hF.covers
          hleft.invitation hleft.refCount
    . have hends' : ¬ EndsGame (answers.since v.trace) v g move := by
        rw [endsGame_since] at hends ⊢
        exact hends
      rw [clientMakeMove_run_goesOn hw hmove halloc hends,
        clientMakeMove_run_goesOn hv hmove' halloc hends']
      have hplayed : SameCourse client (some (.move id text)) w v
          ⟨w.store.play game move, { w.trace with allocs := w.trace.allocs + 1 }⟩
          ⟨v.store.play game move, { v.trace with allocs := v.trace.allocs + 1 }⟩ := by
        refine .named hscene hw.valid hnamed hmove.invitation rfl rfl ?_
        intro F ρ hF _
        obtain ⟨hgame, hsame⟩ := hF.covers.game game hmove.owned
        exact hF.start.play hgame hsame move
      rw [endedTwice_since, endedTwice_since, endedOnce_since, endedOnce_since, moved_since,
        moved_since, hidOf]
      have hmoved := hplayed.send _ _ answers hopponent
        (movedHeader answers (w.store.idOf (i.opponentOf client) inv))
        (some (gameUnparseState (gameApplyMove g move).2))
      have hended := hmoved.send _ _ answers hopponent (endedHeader answers
        (w.store.idOf (i.opponentOf client) inv) (gameApplyMove g move).2.winner) none
      split
      . exact .returns _ hmoved
      . split
        . exact .returns _ hmoved
        . split
          . exact .returns _ hended
          . exact .returns _ (hended.send _ _ answers hclient _ none)
  . have hmove' : ¬ (answers.allocOk 0 = true
        ∧ ∃ inv i game g move, v.store.Move client id text inv i game g move) := by
      rintro ⟨halloc, inv, i, game, g, move, h⟩
      exact hmove ⟨halloc, inv, i, game, g, move, (hscene.move_iff rfl).mp h⟩
    obtain ⟨c, hc⟩ := hw.valid.held_live client hw.held
    obtain ⟨c', hc'⟩ := hv.valid.held_live client hv.held
    obtain ⟨n, hrefused⟩ := clientMakeMove_run_refused (answers.since w.trace) id text hw.valid hc
      (fun halloc inv i game g move h =>
        hmove ⟨by simpa using halloc, inv, i, game, g, move, h⟩)
    obtain ⟨m, hrefused'⟩ := clientMakeMove_run_refused (answers.since v.trace) id text hv.valid hc'
      (fun halloc inv i game g move h =>
        hmove' ⟨by simpa using halloc, inv, i, game, g, move, h⟩)
    rw [hrefused, hrefused']
    exact .returns _ (.refused hscene hw.valid n m)

/-! ## A new invitation -/

theorem makeStuck_since (answers : Env) (w : World) (cs ct : Client)
    : makeStuck (answers.since w.trace) w cs ct
        =
      decide ((cs.growth = 1 ∧ answers.allocOk 1 = false)
        ∨ (ct.growth = 1 ∧ answers.allocOk (1 + cs.growth) = false)) := by
  have hgrowth : w.trace.allocs + 1 + cs.growth - w.trace.allocs = 1 + cs.growth := by omega
  simp [makeStuck, hgrowth]

theorem invitedPacket_since (answers : Env) (w : World) (ct : Client) (targetRole : GameRole)
    (name : CString)
    : invitedPacket (answers.since w.trace) w ct targetRole name
        =
      createHeader (answers.clock 0) .invited ct.nextId targetRole name.length := by
  simp [invitedPacket]

theorem clientMakeInvitation_alike (answers : Env) (target : ClientPtr)
    (sourceRole targetRole : GameRole)
    (hscene : w.store.SameScene v.store client (some (.make target sourceRole targetRole)))
    (hw : w.store.Holds extra client) (hv : v.store.Valid extra')
    (hcall : w.store.Allowed extra client (.make target sourceRole targetRole))
    : Alike (SameCourse client (some (.make target sourceRole targetRole)) w v)
        ((clientMakeInvitation client target sourceRole targetRole).run (answers.since w.trace) w)
        ((clientMakeInvitation client target sourceRole targetRole).run
          (answers.since v.trace) v) := by
  obtain ⟨hne, ⟨ct, hct, -⟩, -⟩ := hcall.invited target sourceRole targetRole rfl
  obtain ⟨cs, hcs⟩ := hw.valid.held_live client hw.held
  have hclient : client ∈ w.store.participants client (some (.make target sourceRole targetRole)) :=
    Store.mem_participants ..
  have htarget : target
      ∈ w.store.participants client (some (.make target sourceRole targetRole)) := by
    simp [Store.participants]
  have hcs' := (hscene.clients _ hclient).trans hcs
  have hct' := (hscene.clients _ htarget).trans hct
  cases halloc : answers.allocOk 0 with
  | false =>
    rw [clientMakeInvitation_run_no_room hcs hct hne.symm (by simpa using halloc),
      clientMakeInvitation_run_no_room hcs' hct' hne.symm (by simpa using halloc)]
    exact .returns _ (.refused hscene hw.valid _ _)
  | true =>
    cases hplayer : cs.player with
    | none =>
      rw [clientMakeInvitation_run_no_player hw.valid hcs hct hne.symm hplayer
          (by simpa using halloc),
        clientMakeInvitation_run_no_player hv hcs' hct' hne.symm hplayer (by simpa using halloc),
        makeStuck_since, makeStuck_since]
      exact .fails _
    | some player =>
      obtain ⟨p, hp⟩ := hw.valid.player_live hcs hplayer
      obtain ⟨p', hp', hname⟩ : ∃ p', v.store.players.get? player = some p' ∧ p'.name = p.name := by
        have hnames := hscene.sessions.name player
        rw [hp, Option.map_some, Option.map_eq_some_iff] at hnames
        exact hnames
      rw [clientMakeInvitation_run hw.valid hcs hct hne.symm hplayer hp (by simpa using halloc),
        clientMakeInvitation_run hv hcs' hct' hne.symm hplayer hp' (by simpa using halloc),
        makeStuck_since, makeStuck_since, invitedPacket_since, invitedPacket_since, hname]
      split
      . exact .fails _
      . refine .returns _ (SameCourse.send
          ⟨_, { w.trace with allocs := w.trace.allocs + 1 + cs.growth + ct.growth }⟩
          ⟨_, { v.trace with allocs := v.trace.allocs + 1 + cs.growth + ct.growth }⟩
          ⟨⟨[], by simp, by simp, by simp⟩, ?_⟩ answers htarget _ _)
        intro ρ hfits
        have hnew : (w.store.invite client target sourceRole targetRole).invitations.next
            ≠ w.store.invitations.next := by simp [Store.invite]
        exact (hscene.parallel hw.valid hfits).invite hclient htarget (.inr ⟨hnew, rfl⟩)
          (hfits.newInvitation hnew) sourceRole targetRole

end Operations

end Jeux
