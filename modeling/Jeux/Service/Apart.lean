import Jeux.Service.Sessions

/-!
Nobody is logged in twice: between two events no player belongs to two of the clients that are
registered. A client that has left may still have the player of one that has come since.
-/

namespace Jeux

variable {env : Env} {w w' : World} {s s' : Store} {client x y : ClientPtr} {player : PlayerPtr}
  {σ σ' : Server} {e : Event}

def Store.Apart (s : Store) : Prop :=
  ∀ x y player, 0 < s.registered x → 0 < s.registered y → s.playerOf x = some player →
    s.playerOf y = some player → x = y

namespace Store

theorem playerOf_of_session
    (h : (s'.clients.get? x).map Client.session = (s.clients.get? x).map Client.session)
    : s'.playerOf x = s.playerOf x := by
  have hplayer := congrArg (Option.map Prod.fst) h
  simp only [Option.map_map] at hplayer
  unfold playerOf
  cases hc' : s'.clients.get? x with
  | none => cases hc : s.clients.get? x <;> simp_all
  | some c' => cases hc : s.clients.get? x <;> simp_all [Client.session]

theorem Apart.mono (h : s.Apart)
    (hsub : ∀ x player, 0 < s'.registered x → s'.playerOf x = some player →
      0 < s.registered x ∧ s.playerOf x = some player) : s'.Apart := by
  intro x y player hx hy hplayerx hplayery
  obtain ⟨hx, hplayerx⟩ := hsub x player hx hplayerx
  obtain ⟨hy, hplayery⟩ := hsub y player hy hplayery
  exact h x y player hx hy hplayerx hplayery

theorem Apart.keeps (h : s.Apart) (hkeeps : s.KeepsSessions s') : s'.Apart := by
  apply h.mono
  intro x player hx hplayer
  rw [hkeeps.registered] at hx
  exact ⟨hx, (playerOf_of_session (hkeeps.session x)).symm.trans hplayer⟩

theorem Apart.connect (h : s.Apart) (hsteady : s.Steady) (hqueue : s.clientRegistry.loginQueue ≠ 0)
    (fd : Int) : (s.connect fd).Apart := by
  apply h.mono
  intro x player hx hplayer
  have hpush : (s.connect fd).playerOf x
      = ((s.clients.push (newClient fd)).get? x).bind (·.player) := rfl
  rw [hpush, Heap.get?_push] at hplayer
  split at hplayer
  . simp [newClient] at hplayer
  . next hne =>
    rw [registered_connect hsteady hqueue, if_neg hne] at hx
    exact ⟨hx, hplayer⟩

theorem Valid.playerOf_ne_playerFor {name : CString} (hv : s.Valid fun _ => 0)
    (hfree : s.lookup name = none) (hx : 0 < s.registered x)
    : s.playerOf x ≠ some (s.playerFor name) := by
  intro hplayer
  obtain ⟨c, hc, hof⟩ := Option.bind_eq_some_iff.mp hplayer
  obtain ⟨p, hp⟩ := hv.player_live hc hof
  obtain ⟨p', hp', hname⟩ := hv.playerFor_name name
  have hsame := hv.nameOf_enlist name x
  have hnameOf : (s.enlist name).nameOf x = some name := by
    unfold nameOf playerOf
    rw [enlist_clients, hc, Option.bind_some, hof, Option.bind_some, hp', Option.map_some, hname]
  rw [hsame] at hnameOf
  unfold lookup at hfree
  rw [List.find?_eq_none] at hfree
  exact hfree x (registered_pos.mp hx) (by simp [hnameOf])

theorem Apart.login {name : CString} (h : s.Apart) (hv : s.Valid fun _ => 0)
    (hfree : s.lookup name = none)
    : ((s.enlist name).login client (s.playerFor name)).Apart := by
  have hregistered : ∀ x, ((s.enlist name).login client (s.playerFor name)).registered x
      = s.registered x := by
    intro x
    show (s.enlist name).clientRegistry.members.count x = _
    rw [enlist_clientRegistry]
    rfl
  have hother : ∀ x, x ≠ client →
      ((s.enlist name).login client (s.playerFor name)).playerOf x = s.playerOf x := by
    intro x hne
    unfold playerOf
    rw [login_clients, Heap.get?_modify_ne hne, enlist_clients]
  have hself : ∀ player, ((s.enlist name).login client (s.playerFor name)).playerOf client
      = some player → player = s.playerFor name := by
    intro player hplayer
    unfold playerOf at hplayer
    rw [login_clients, Heap.get?_modify_self] at hplayer
    obtain ⟨c, hc, hof⟩ := Option.bind_eq_some_iff.mp hplayer
    obtain ⟨c', -, rfl⟩ := Option.map_eq_some_iff.mp hc
    exact (Option.some.inj hof).symm
  intro x y player hx hy hplayerx hplayery
  rw [hregistered] at hx hy
  by_cases hxc : x = client
  . by_cases hyc : y = client
    . rw [hxc, hyc]
    . rw [hself player (hxc ▸ hplayerx), hother y hyc] at hplayery
      exact absurd hplayery (hv.playerOf_ne_playerFor hfree hy)
  . rw [hother x hxc] at hplayerx
    by_cases hyc : y = client
    . rw [hself player (hyc ▸ hplayery)] at hplayerx
      exact absurd hplayerx (hv.playerOf_ne_playerFor hfree hx)
    . rw [hother y hyc] at hplayery
      exact h x y player hx hy hplayerx hplayery

end Store

namespace Server

end Server

end Jeux
