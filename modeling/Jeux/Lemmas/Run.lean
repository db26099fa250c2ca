import Jeux.Impl.Server

/-!
How programs in `ServerM` run. The simp lemmas here execute a program one statement at a time.
-/

namespace Jeux

namespace ServerM

variable {α β : Type} {env : Env} {w : World}

@[simp]
theorem run_pure (a : α) : (pure a : ServerM α).run env w = .ok (a, w) := rfl

@[simp]
theorem run_bind (x : ServerM α) (f : α → ServerM β)
    : (x >>= f).run env w
        =
      match x.run env w with
      | .ok (a, w') => (f a).run env w'
      | .error e => .error e := by
  show Except.bind (x env w) _ = _
  unfold Except.bind run
  cases x env w with
  | error e => rfl
  | ok p => rfl

theorem bind_ok {x : ServerM α} {f : α → ServerM β} {a : α} {w' : World}
    {r : Except Fault (β × World)} (hx : x.run env w = .ok (a, w')) (hf : (f a).run env w' = r)
    : (x >>= f).run env w = r := by
  rw [run_bind, hx]
  exact hf

@[simp]
theorem run_ite {c : Prop} [Decidable c] (x y : ServerM α)
    : (if c then x else y).run env w = if c then x.run env w else y.run env w := by
  split <;> rfl

@[simp]
theorem run_fault (f : Fault) : (fault f : ServerM α).run env w = .error f := rfl

@[simp]
theorem run_getStore : getStore.run env w = .ok (w.store, w) := rfl

@[simp]
theorem run_modifyStore (f : Store → Store)
    : (modifyStore f).run env w = .ok ((), { w with store := f w.store }) := rfl

@[simp]
theorem run_modifyTrace (f : Trace → Trace)
    : (modifyTrace f).run env w = .ok ((), { w with trace := f w.trace }) := rfl

@[simp]
theorem run_read : (read : ServerM Env).run env w = .ok (env, w) := rfl

@[simp]
theorem run_allocate
    : allocate.run env w
        =
      .ok (env.allocOk w.trace.allocs, { w with trace.allocs := w.trace.allocs + 1 }) := rfl

@[simp]
theorem run_newHeader (type : PacketType) (id : Int) (role : GameRole) (size : Nat)
    : (newHeader type id role size).run env w
        =
      .ok (createHeader (env.clock w.trace.sent.length) type id role size, w) := rfl

@[simp]
theorem run_nonNull_some (a : α) : (nonNull (some a)).run env w = .ok (a, w) := rfl

@[simp]
theorem run_nonNull_none : (nonNull (none : Option α)).run env w = .error .nullDereference := rfl

@[simp]
theorem run_derefClient (client : ClientPtr)
    : (derefClient client).run env w
        =
      match w.store.clients.get? client with
      | some obj => .ok (obj, w)
      | none => .error .useAfterFree := rfl

@[simp]
theorem run_derefPlayer (player : PlayerPtr)
    : (derefPlayer player).run env w
        =
      match w.store.players.get? player with
      | some obj => .ok (obj, w)
      | none => .error .useAfterFree := rfl

@[simp]
theorem run_derefInvitation (inv : InvitationPtr)
    : (derefInvitation inv).run env w
        =
      match w.store.invitations.get? inv with
      | some obj => .ok (obj, w)
      | none => .error .useAfterFree := rfl

@[simp]
theorem run_derefGame (game : GamePtr)
    : (derefGame game).run env w
        =
      match w.store.games.get? game with
      | some obj => .ok (obj, w)
      | none => .error .useAfterFree := rfl

end ServerM

end Jeux
