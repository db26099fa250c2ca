import Jeux.Service.Invariant

/-!
`jeux_client_service` from its first to its last line. Without other threads between its packets it
is the events of one connection, one after the other.
-/

namespace Jeux

open ServerM

namespace Server

variable {env : Env} {σ τ : Server} {w : World} {client : ClientPtr} {gate fd : Int}
  {pkts : List Packet}

theorem serve_gone (hgone : τ.connections client = none) (pkts : List Packet)
    : serve env client τ pkts = .ok τ := by
  induction pkts with
  | nil =>
    unfold serve exec
    dsimp only
    rw [hgone]
  | cons pkt pkts ih =>
    unfold serve exec
    dsimp only
    rw [hgone]
    exact ih

theorem cregUnregister_close (env : Env) (client : ClientPtr) (w : World)
    (connections : ClientPtr → Option Int)
    : (do let _ ← cregUnregister client : ServerM Unit).run env w
        =
      (close env w connections client).map fun τ => ((), τ.world) := by
  unfold close
  simp only [run_bind]
  cases (cregUnregister client).run env w with
  | error f => rfl
  | ok p => rfl

theorem close_connections {w : World} {connections : ClientPtr → Option Int}
    (hrun : close env w connections client = .ok τ)
    : τ.connections = Function.update connections client none := by
  unfold close at hrun
  split at hrun
  . rw [← Except.ok.inj hrun]
  . simp at hrun

theorem serviceLoop_run (hgate : σ.connections client = some gate)
    : (do
        serviceLoop client gate pkts
        let _ ← cregUnregister client : ServerM Unit).run env σ.world
        =
      (serve env client σ pkts).map fun τ => ((), τ.world) := by
  induction pkts generalizing σ gate with
  | nil =>
    unfold serve serviceLoop exec
    simp only [run_bind, hgate]
    cases (clientLogout client).run env σ.world with
    | error f => rfl
    | ok p =>
      rw [← cregUnregister_close env client p.2 σ.connections]
      simp only [run_bind]
      rfl
  | cons pkt pkts ih =>
    unfold serve serviceLoop exec
    rw [bind_assoc]
    dsimp only
    rw [run_bind, hgate]
    dsimp only
    cases (servicePacket client gate pkt).run env σ.world with
    | error f => rfl
    | ok p =>
      obtain ⟨⟨gate', on⟩, w⟩ := p
      cases on with
      | true => exact @ih ⟨w, Function.update σ.connections client (some gate')⟩ gate' (by simp)
      | false =>
        have hlast := cregUnregister_close env client w σ.connections
        dsimp only
        simp only [Bool.false_eq_true, ↓reduceIte, pure_bind]
        rw [hlast]
        cases hrun : close env w σ.connections client with
        | error f => rfl
        | ok τ =>
          have hgone : τ.connections client = none := by
            rw [close_connections hrun]
            simp
          simp only [bind, Except.bind, serve_gone hgone]

/-! ## What the thread leaves behind -/

theorem serve_connections (hserve : serve env client σ pkts = .ok τ)
    : τ.connections = Function.update σ.connections client none := by
  induction pkts generalizing σ with
  | nil =>
    unfold serve exec at hserve
    dsimp only at hserve
    split at hserve
    . next hgone =>
      obtain rfl := Except.ok.inj hserve
      rw [← hgone, Function.update_eq_self]
    . split at hserve
      . exact close_connections hserve
      . simp at hserve
  | cons pkt pkts ih =>
    unfold serve at hserve
    cases hexec : exec env σ (.packet client pkt) with
    | error f => simp [hexec, bind, Except.bind] at hserve
    | ok σ₁ =>
      simp only [hexec, bind, Except.bind] at hserve
      rw [ih hserve]
      unfold exec at hexec
      dsimp only at hexec
      split at hexec
      . rw [← Except.ok.inj hexec]
      . split at hexec
        . rw [← Except.ok.inj hexec, Function.update_idem]
        . rw [close_connections hexec, Function.update_idem]
        . simp at hexec

theorem Reachable.exec {e : Event} (hreach : Reachable env σ) (hexec : exec env σ e = .ok τ)
    : Reachable env τ :=
  hreach.step trivial (congrArg Except.toOption hexec)

theorem serve_reach (hreach : Reachable env σ) (hserve : serve env client σ pkts = .ok τ)
    : Reachable env τ := by
  induction pkts generalizing σ with
  | nil => exact hreach.exec hserve
  | cons pkt pkts ih =>
    unfold serve at hserve
    cases hexec : exec env σ (.packet client pkt) with
    | error f => simp [hexec, bind, Except.bind] at hserve
    | ok σ₁ =>
      simp only [hexec, bind, Except.bind] at hserve
      exact ih (hreach.exec hexec) hserve

/--
A thread that has come and gone leaves a state the events lead to, with the connections and the
registered clients there were before. Nothing that can still be answered or played is left of it:
whoever takes part in that is connected.
-/
theorem thread_leaves (hreach : Reachable env σ)
    (hrun : (jeuxClientService fd pkts).run env σ.world = .ok ((), w))
    : Reachable env { σ with world := w }
        ∧ (∀ x, w.store.registered x = σ.world.store.registered x)
        ∧ ∀ inv i, w.store.invitations.get? inv = some i → i.Active →
          σ.connections i.source ≠ none ∧ σ.connections i.target ≠ none := by
  have hok := ok_of_reach initial_ok hreach
  have hend : Reachable env { σ with world := w } := by
    obtain ⟨o, w₁, hconnect, hconnects⟩ := cregRegister_run env hok.steady.valid.registry fd
    unfold jeuxClientService at hrun
    rw [run_bind, hconnect] at hrun
    cases o with
    | none =>
      obtain rfl : w₁ = w := by simpa using hrun
      exact hreach.exec (e := .connect fd) (by simp only [exec, hconnect])
    | some client =>
      have hreach₁ : Reachable env ⟨w₁, Function.update σ.connections client (some 0)⟩ :=
        hreach.exec (e := .connect fd) (by simp only [exec, hconnect])
      have hloop := @serviceLoop_run env
        ⟨w₁, Function.update σ.connections client (some 0)⟩ client 0 pkts (by simp)
      dsimp only at hrun hloop
      rw [hloop] at hrun
      cases hserve : serve env client ⟨w₁, Function.update σ.connections client (some 0)⟩ pkts with
      | error f => simp [hserve, Except.map] at hrun
      | ok τ =>
        have hτ : τ.world = w := by simpa [hserve, Except.map] using hrun
        have hfresh : σ.connections client = none := by
          cases hconnects with
          | connected => exact hok.connected_next
        have hconnections : τ.connections = σ.connections := by
          rw [serve_connections hserve, Function.update_idem, ← hfresh, Function.update_eq_self]
        have heq : τ = { σ with world := w } := by
          rw [← hconnections, ← hτ]
        exact heq ▸ serve_reach hreach₁ hserve
  have hok' := ok_of_reach initial_ok hend
  refine ⟨hend, ?_, ?_⟩
  . intro x
    have hle := Store.registered_le_one hok.steady.valid x
    have hle' := Store.registered_le_one hok'.steady.valid x
    have hiff : 0 < σ.world.store.registered x ↔ 0 < w.store.registered x :=
      (hok.connected x).symm.trans (hok'.connected x)
    dsimp only at hle'
    omega
  . intro inv i hi hactive
    have honline : ∀ x, i.source = x ∨ i.target = x → σ.connections x ≠ none := by
      intro x hor
      obtain ⟨c, hc, -, hin, -⟩ := hok'.steady.settled.participant hok'.steady.valid hi hactive hor
      exact (hok'.connected x).mpr (by simpa using (hok'.steady.valid.client x c hc).held hin)
    exact ⟨honline _ (.inl rfl), honline _ (.inr rfl)⟩

/--
`B` logs in while `A` is there, invites `A` and moves out of turn.
-/
def guestPackets : List Packet :=
  [request .login 0 .nullRole [66] fits_B, request .invite 0 .firstPlayerRole [65] fits_A,
    request .move 0 .nullRole [65] fits_A]

theorem thread_leaves_of_guest
    : ∃ σ w, Reachable calmEnv σ ∧ σ.world.store.isLoggedIn 0 = true
        ∧ (jeuxClientService 5 guestPackets).run calmEnv σ.world = .ok ((), w)
        ∧ Reachable calmEnv { σ with world := w }
        ∧ (∀ x, w.store.registered x = σ.world.store.registered x)
        ∧ ∀ inv i, w.store.invitations.get? inv = some i → i.Active →
          σ.connections i.source ≠ none ∧ σ.connections i.target ≠ none := by
  obtain ⟨σ, hreach, hP⟩ := Machine.Reach.of_any_run (machine calmEnv) (fun _ _ => True)
    initialServer [.connect 4, .packet 0 (request .login 0 .nullRole [65] fits_A)]
    (fun σ => σ.world.store.isLoggedIn 0
      ∧ ((jeuxClientService 5 guestPackets).run calmEnv σ.world).toOption.isSome = true)
    (by decide +kernel)
  obtain ⟨hin, hreturns⟩ := of_decide_eq_true hP
  obtain ⟨p, hp⟩ := Option.isSome_iff_exists.mp hreturns
  have hrun := Except.eq_ok_of_toOption hp
  exact ⟨σ, p.2, hreach, hin, hrun, thread_leaves hreach hrun⟩

end Server

end Jeux
