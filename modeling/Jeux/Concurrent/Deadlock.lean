import Jeux.Concurrent.Semaphores

/-!
The locks have an order in which they are taken on every path, so threads cannot wait for each other
in a circle. The one exception are the mutexes of two players, which `player_post_result` takes in the
order of their roles; that goes well as long as the semaphore of the ratings does its work.
-/

namespace Jeux

namespace Locking

open LockCode

variable {T : Server}

/--
As long as `client_create` is run only while nobody is between `sem_wait` and `sem_post`, there are
never some threads each of which is blocked on a lock that another one of them has taken.
-/
theorem circularWait_free (h : serverCode.program.machine.Reach CreatesAlone startServer T)
    : ¬ CircularWait T := by
  have horderly := orderly_of_reach h
  apply not_circularWait horderly.disciplined
  exact horderly.exclusive

def comes (player : PlayerPtr) (n : Nat) : List Answer :=
  oks 6 ++ [.request (.login player)] ++ oks n

def invites (role : GameRole) (id : Int) : List Answer :=
  [.request .invite] ++ oks 1 ++ [.client 1] ++ oks 8 ++ [.role role] ++ oks 11 ++ [.id id]
    ++ oks 11 ++ [.id id] ++ oks 17

def accepts (id : Int) : List Answer := [.request (.operation .accept id)] ++ oks 12

def resigns (id : Int) : List Answer := [.request (.operation .resign id)] ++ oks 10

def twoGames : List ServerEvent :=
  connect :: steps 0 (comes 0 20) ++ connect :: steps 1 (comes 1 24)
    ++ steps 0 (invites .firstPlayerRole 0) ++ steps 1 (accepts 0)
    ++ steps 0 (invites .secondPlayerRole 1) ++ steps 1 (accepts 1)

theorem circularWait_free_of_twoGames : ∃ T : Server,
    serverCode.program.machine.Reach CreatesAlone startServer T
      ∧ T.shared.data.invitations.next = 2 ∧ ¬ CircularWait T := by
  obtain ⟨T, hreach, hT⟩ := Machine.Reach.of_any_run serverCode.program.machine CreatesAlone
    startServer twoGames (fun T => T.shared.data.invitations.next = 2) (by decide +kernel)
  exact ⟨T, hreach, of_decide_eq_true hT, circularWait_free hreach⟩

def twoResignations : List ServerEvent :=
  twoGames ++ steps 0 (resigns 0) ++ connect :: steps 2 (oks 6) ++ steps 1 (resigns 1)
    ++ steps 0 (oks 3) ++ connect :: steps 3 (oks 6) ++ steps 1 (oks 3)

def waitsForPlayer (T : Server) (i : Nat) (taken wanted : PlayerPtr) : Bool :=
  (T.pcs[i]?.any fun p => p.wants = some (.player wanted))
    && (T.pcs[i]?.any fun p => .player taken ∈ p.held)
    && T.shared.value (.player wanted) = 0

theorem blocked_of_waitsForPlayer {i : Nat} {taken wanted : PlayerPtr}
    (h : waitsForPlayer T i taken wanted = true)
    : Blocked T i (.player wanted) ∧ Holds T i (.player taken) := by
  unfold waitsForPlayer at h
  rw [Bool.and_eq_true, Bool.and_eq_true, Option.any_eq_true] at h
  obtain ⟨⟨⟨p, hp, hwants⟩, hholds⟩, hvalue⟩ := h
  exact ⟨⟨p, hp, of_decide_eq_true hwants, of_decide_eq_true hvalue⟩, holds_of_any hholds⟩

theorem not_circularWait_free : ¬ ∀ T : Server,
    serverCode.program.machine.Reach (fun _ _ => True) startServer T → ¬ CircularWait T := by
  intro h
  obtain ⟨T, hreach, hT⟩ := Machine.Reach.of_any_run serverCode.program.machine (fun _ _ => True)
    startServer twoResignations
    (fun T => waitsForPlayer T 0 1 0 && waitsForPlayer T 1 0 1) (by decide +kernel)
  rw [Bool.and_eq_true] at hT
  obtain ⟨hblocked, hholds⟩ := blocked_of_waitsForPlayer hT.1
  obtain ⟨hblocked', hholds'⟩ := blocked_of_waitsForPlayer hT.2
  apply h T hreach
  refine ⟨{0, 1}, ⟨0, by simp⟩, ?_⟩
  intro i hi
  simp only [Finset.mem_insert, Finset.mem_singleton] at hi
  rcases hi with rfl | rfl
  . exact ⟨_, hblocked, 1, by simp, by simp, hholds'⟩
  . exact ⟨_, hblocked', 0, by simp, by simp, hholds⟩

end Locking

end Jeux
