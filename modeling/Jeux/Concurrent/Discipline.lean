import Jeux.Concurrent.Steps

/-!
Every thread takes its locks in the order of their ranks. The mutexes of two players are taken in
any order, but only by the holder of the semaphore of the ratings.
-/

namespace Jeux

namespace Locking

open Instr LockCode

/--
The locks that are held at a point and released by what follows it, the one taken last first.
-/
def Point.enter : Point → List ServerLock
  | .clientCreate | .processUsers _ | .cregLookup _ | .cregUnregister _ => [.registry]
  | .clientLogin _ _ | .nameChecked _ _ => [.semaphore .login]
  | .allPlayers _ _ => [.registry, .semaphore .login]
  | .invCreate _ _ _ _ | .invCreated _ _ _ _ | .sourceAdded _ _ _ | .targetAdded _ _ | .found _ _ _
  | .moved _ _ _ | .ended _ _ _ | .results _ _ _ | .unlist _ _ _ | .removed _ _ =>
    [.semaphore .inviteOp]
  | .getInvitation _ client _ => [.client client, .semaphore .inviteOp]
  | .invUnref inv => [.invitation inv]
  | .getAvailableId client _ => [.client client, .semaphore .invite]
  | .findNode _ _ => [.semaphore .invite]
  | .purgeId client _ => [.client client]
  | .postResults _ _ _ => [.semaphore .updateElo]
  | .logoutLoop _ => [.semaphore .logout]
  | _ => []

/--
Below these, only locks of lower rank may be held at a point.
-/
def Point.low : Point → Nat
  | .clientLogin _ _ | .nameChecked _ _ | .allPlayers _ _ | .service _ | .processLogin _ _ => 0
  | .cregRegister | .clientCreate | .processUsers _ | .cregLookup _ => 0
  | .cregUnregister _ => 1
  | .clientLogout _ | .logoutLoop _ => 2
  | .processInvite _ _ | .invCreate _ _ _ _ | .invCreated _ _ _ _ | .sourceAdded _ _ _
  | .targetAdded _ _ | .getInvitation _ _ _ | .found _ _ _ | .moved _ _ _ | .ended _ _ _
  | .results _ _ _ | .unlist _ _ _ | .removed _ _ => 3
  | .getAvailableId _ _ | .findNode _ _ | .postResults _ _ _ => 4
  | .invUnref _ => 5
  | _ => 8

abbrev Disciplined : List ServerLock → Code → Prop :=
  Ranked ServerLock.rank (.semaphore .updateElo) Point.enter Point.low

abbrev height : List ServerLock → Nat := top ServerLock.rank

@[simp]
theorem height_cons (r : ServerLock) (held : List ServerLock)
    : height (r :: held) = max (r.rank + 1) (height held) := rfl

theorem height_le_of_mem {held : List ServerLock} : height held ≤ 8 := by
  induction held with
  | nil => exact Nat.zero_le _
  | cons r held ih =>
    have : r.rank ≤ 7 := by
      unfold ServerLock.rank
      split <;> omega
    rw [height_cons]
    omega

/-! ## The functions -/

variable {held : List ServerLock} {todo : Code}

theorem disciplined_withClient {client : ClientPtr} (h : height held ≤ 5)
    (htodo : Disciplined held todo) : Disciplined held (withClient client ++ todo) := by
  apply Ranked.acquire h
  apply Ranked.release
  exact htodo

theorem disciplined_withPlayer {player : PlayerPtr} (h : height held ≤ 7)
    (htodo : Disciplined held todo) : Disciplined held (withPlayer player ++ todo) := by
  apply Ranked.acquire h
  apply Ranked.release
  exact htodo

theorem disciplined_withPlayers {players : List PlayerPtr} (h : height held ≤ 7)
    (htodo : Disciplined held todo)
    : Disciplined held (players.flatMap withPlayer ++ todo) := by
  induction players with
  | nil => exact htodo
  | cons player players ih =>
    rw [List.flatMap_cons, List.append_assoc]
    apply disciplined_withPlayer h
    exact ih

theorem disciplined_quiet {point : Point} (henter : point.enter = []) (hlow : point.low = 8)
    (htodo : Disciplined held todo) : Disciplined held (run point :: todo) := by
  refine ⟨held, ?_, ?_, htodo⟩
  . rw [henter, List.nil_append]
  . rw [hlow]
    exact height_le_of_mem

theorem disciplined_clientRef {client : ClientPtr} (h : height held ≤ 5)
    (htodo : Disciplined held todo) : Disciplined held (clientRef client ++ todo) := by
  apply Ranked.acquire h
  apply disciplined_quiet rfl rfl
  apply Ranked.release
  exact htodo

theorem disciplined_clientUnref {client : ClientPtr} {registry : Bool} (h : height held ≤ 5)
    (htodo : Disciplined held todo)
    : Disciplined held (clientUnref client registry ++ todo) := by
  apply Ranked.acquire h
  apply disciplined_quiet rfl rfl
  apply Ranked.release
  apply disciplined_quiet rfl rfl
  exact htodo

theorem disciplined_invRef {inv : InvitationPtr} (h : height held ≤ 6)
    (htodo : Disciplined held todo) : Disciplined held (invRef inv ++ todo) := by
  apply Ranked.acquire h
  apply disciplined_quiet rfl rfl
  apply Ranked.release
  exact htodo

theorem disciplined_invUnref {inv : InvitationPtr} (h : height held ≤ 5)
    (htodo : Disciplined held todo) : Disciplined held (invUnref inv ++ todo) := by
  have h' : height held ≤ 6 := by omega
  apply Ranked.acquire h'
  exact Ranked.run (c := .invUnref inv) h htodo

theorem disciplined_clientAddInvitation {client : ClientPtr} {inv : InvitationPtr}
    (h : height held ≤ 4) (htodo : Disciplined held todo)
    : Disciplined held (clientAddInvitation client inv ++ todo) := by
  apply Ranked.acquire h
  apply Ranked.acquire
  . simp only [height_cons, ServerLock.rank]
    omega
  . exact Ranked.run (c := .getAvailableId client inv) h htodo

theorem disciplined_clientRemoveInvitation {client : ClientPtr} {inv : InvitationPtr}
    (h : height held ≤ 4) (htodo : Disciplined held todo)
    : Disciplined held (clientRemoveInvitation client inv ++ todo) := by
  apply Ranked.acquire h
  exact Ranked.run (c := .findNode client inv) h htodo

theorem disciplined_clientMakeInvitation {source target : ClientPtr}
    {sourceRole targetRole : GameRole} (h : height held ≤ 3) (htodo : Disciplined held todo)
    : Disciplined held (clientMakeInvitation source target sourceRole targetRole ++ todo) := by
  apply Ranked.acquire h
  exact Ranked.run (c := .invCreate source target sourceRole targetRole) h htodo

theorem disciplined_operation {op : Operation} {client : ClientPtr} {id : Int}
    (h : height held ≤ 3) (htodo : Disciplined held todo)
    : Disciplined held (operation op client id ++ todo) := by
  apply Ranked.acquire h
  apply Ranked.acquire
  . simp only [height_cons, ServerLock.rank]
    omega
  . exact Ranked.run (c := .getInvitation op client id) h htodo

theorem disciplined_postPlayerResults {client opponent : ClientPtr} {first : Bool}
    (h : height held ≤ 4) (htodo : Disciplined held todo)
    : Disciplined held (postPlayerResults client opponent first ++ todo) := by
  apply Ranked.acquire h
  exact Ranked.run (c := .postResults client opponent first) h htodo

/--
The second player's mutex ranks no higher than the first one's: here it matters that the semaphore of
the ratings is held.
-/
theorem disciplined_playerPostResult {player1 player2 : PlayerPtr} (h : height held ≤ 7)
    (hgate : .semaphore .updateElo ∈ held) (htodo : Disciplined held todo)
    : Disciplined held (playerPostResult player1 player2 ++ todo) := by
  unfold playerPostResult
  split
  . exact htodo
  . next hne =>
    apply Ranked.acquire h
    refine .inr ⟨.inr ⟨List.mem_cons_of_mem _ hgate, ?_⟩, ?_⟩
    . change height _ ≤ _
      simp only [height_cons, ServerLock.rank]
      omega
    . -- the first one is released first
      refine ⟨by simp, ?_⟩
      rw [List.erase_cons_tail (by simp [Ne.symm hne]), List.erase_cons_head]
      apply Ranked.release
      exact htodo

theorem disciplined_clientLogout {client : ClientPtr} (h : height held ≤ 2)
    (htodo : Disciplined held todo) : Disciplined held (clientLogout client ++ todo) :=
  ⟨held, rfl, h, htodo⟩

theorem disciplined_process {client : ClientPtr} {request : Request} (h : height held ≤ 0)
    (htodo : Disciplined held todo) : Disciplined held (process client request ++ todo) := by
  have h1 : height held ≤ 1 := by omega
  have h5 : height held ≤ 5 := by omega
  cases request with
  | refused => exact disciplined_withClient h5 htodo
  | login player => exact ⟨held, rfl, h, htodo⟩
  | users =>
    apply Ranked.acquire h1
    exact Ranked.run (c := .processUsers client) h htodo
  | invite =>
    apply Ranked.acquire h1
    exact Ranked.run (c := .cregLookup client) h htodo
  | operation op id =>
    rw [process, List.append_assoc]
    apply disciplined_operation
    . omega
    . exact disciplined_withClient h5 htodo

/-! ## What follows a point -/

/--
What keeps the three returns that forget a lock, or take one out of order, from happening: who logs
in is logged out, who is freed too, and the ids in a list are those of slots that are there.
-/
def Legal (d : Data) : Point → Prop
  | .clientLogin client _ => ∀ c, d.clients.get? client = some c → c.loggedIn = .loggedOut
  | .clientFree client =>
    ∀ c, d.clients.get? client = some c → c.refCount = 0 → c.loggedIn ≠ .loggedIn
  | .purgeId client id => ∀ c, d.clients.get? client = some c → id < c.currentIdSize
  | _ => True

variable {self : Nat} {d d' : Data} {point : Point} {next : Code}

/-! ### A connection -/

theorem disciplined_admitted (h : height held ≤ 0) (htodo : Disciplined held todo)
    : Disciplined held ([acquire .registry, run .clientCreate] ++ todo) := by
  have h1 : height held ≤ 1 := Nat.le_succ_of_le h
  apply Ranked.acquire h1
  exact Ranked.run (c := .clientCreate) h htodo

theorem disciplined_created {client : ClientPtr} (h : height held ≤ 0)
    (htodo : Disciplined held todo)
    : Disciplined (.registry :: held)
        (withClient client ++ [release .registry, run (.service client)] ++ todo) := by
  rw [List.append_assoc]
  apply disciplined_withClient
  . simp only [height_cons, ServerLock.rank]
    omega
  . apply Ranked.release
    exact ⟨held, rfl, h, htodo⟩

theorem disciplined_serves {client : ClientPtr} {request : Request} (h : height held ≤ 0)
    (htodo : Disciplined held todo)
    : Disciplined held (process client request ++ [run (.service client)] ++ todo) := by
  rw [List.append_assoc]
  apply disciplined_process h
  exact ⟨held, rfl, h, htodo⟩

theorem disciplined_leaves {client : ClientPtr} (h : height held ≤ 0)
    (htodo : Disciplined held todo)
    : Disciplined held (clientLogout client ++ cregUnregister client ++ todo) := by
  have h1 : height held ≤ 1 := by omega
  have h2 : height held ≤ 2 := by omega
  rw [List.append_assoc]
  apply disciplined_clientLogout h2
  apply Ranked.acquire h1
  exact Ranked.run (c := .cregUnregister client) h1 htodo

theorem disciplined_unregisters {client : ClientPtr} (h : height held ≤ 1)
    (htodo : Disciplined held todo)
    : Disciplined (.registry :: held)
        (clientLogout client ++ clientUnref client true ++ [release .registry] ++ todo) := by
  simp only [List.append_assoc, List.cons_append, List.nil_append]
  apply disciplined_clientLogout
  . simp only [height_cons, ServerLock.rank]
    omega
  . apply disciplined_clientUnref
    . simp only [height_cons, ServerLock.rank]
      omega
    . exact Ranked.release htodo

/-! ### LOGIN -/

theorem disciplined_logsIn {client : ClientPtr} {player : PlayerPtr} (h : height held ≤ 0)
    (htodo : Disciplined held todo)
    : Disciplined held
        (withPlayer player ++ [wait .login, run (.clientLogin client player)] ++ todo) := by
  have h7 : height held ≤ 7 := by omega
  rw [List.append_assoc]
  apply disciplined_withPlayer h7
  apply Ranked.acquire h
  exact Ranked.run (c := .clientLogin client player) h htodo

theorem disciplined_login {client : ClientPtr} {player : PlayerPtr} (h : height held ≤ 0)
    (htodo : Disciplined held todo)
    : Disciplined (.semaphore .login :: held)
        ([acquire .registry, run (.allPlayers client player)] ++ todo) := by
  apply Ranked.acquire
  . change height (_ :: held) ≤ 1
    simp only [height_cons, ServerLock.rank]
    omega
  . exact Ranked.run (c := .allPlayers client player) h htodo

theorem disciplined_readsPlayers {players : List PlayerPtr} (h : height held ≤ 7)
    (htodo : Disciplined held todo)
    : Disciplined (.registry :: held)
        (players.flatMap withPlayer ++ ([release .registry]
          ++ (players.flatMap withPlayer ++ todo))) := by
  apply disciplined_withPlayers
  . simp only [height_cons, ServerLock.rank]
    omega
  . apply Ranked.release
    exact disciplined_withPlayers h htodo

theorem disciplined_allPlayers {client : ClientPtr} {player : PlayerPtr} {players : List PlayerPtr}
    (h : height held ≤ 0) (htodo : Disciplined held todo)
    : Disciplined (.registry :: .semaphore .login :: held)
        (players.flatMap withPlayer ++ [release .registry] ++ players.flatMap withPlayer
          ++ [run (.nameChecked client player)] ++ todo) := by
  simp only [List.append_assoc]
  apply disciplined_readsPlayers
  . simp only [height_cons, ServerLock.rank]
    omega
  . exact Ranked.run (c := .nameChecked client player) h htodo

theorem disciplined_nameTaken {client : ClientPtr} {player : PlayerPtr} (h : height held ≤ 0)
    (htodo : Disciplined held todo)
    : Disciplined (.semaphore .login :: held)
        ([post .login] ++ withClient client ++ withPlayer player ++ withClient client ++ todo) := by
  have h5 : height held ≤ 5 := by omega
  have h7 : height held ≤ 7 := by omega
  simp only [List.append_assoc]
  apply Ranked.release
  apply disciplined_withClient h5
  apply disciplined_withPlayer h7
  apply disciplined_withClient h5
  exact htodo

theorem disciplined_nameFree {client : ClientPtr} {player : PlayerPtr} (h : height held ≤ 0)
    (htodo : Disciplined held todo)
    : Disciplined (.semaphore .login :: held)
        ([acquire (.client client), run (.setPlayer client player)] ++ withPlayer player
          ++ [release (.client client), run (.setLoggedIn client), post .login]
          ++ withPlayer player ++ withClient client ++ todo) := by
  have h5 : height held ≤ 5 := by omega
  have h7 : height held ≤ 7 := by omega
  simp only [List.append_assoc]
  apply Ranked.acquire
  . change height (_ :: held) ≤ 5
    simp only [height_cons, ServerLock.rank]
    omega
  . apply disciplined_quiet rfl rfl
    apply disciplined_withPlayer
    . simp only [height_cons, ServerLock.rank]
      omega
    . apply Ranked.release
      apply disciplined_quiet rfl rfl
      apply Ranked.release
      apply disciplined_withPlayer h7
      apply disciplined_withClient h5
      exact htodo

/-! ### USERS and INVITE -/

theorem disciplined_users {client : ClientPtr} {players : List PlayerPtr} (h : height held ≤ 0)
    (htodo : Disciplined held todo)
    : Disciplined (.registry :: held)
        (players.flatMap withPlayer ++ [release .registry] ++ players.flatMap withPlayer
          ++ withClient client ++ todo) := by
  have h5 : height held ≤ 5 := by omega
  have h7 : height held ≤ 7 := by omega
  simp only [List.append_assoc]
  apply disciplined_readsPlayers h7
  exact disciplined_withClient h5 htodo

theorem disciplined_unknown {client : ClientPtr} (h : height held ≤ 0)
    (htodo : Disciplined held todo)
    : Disciplined (.registry :: held) ([release .registry] ++ withClient client ++ todo) := by
  have h5 : height held ≤ 5 := by omega
  rw [List.append_assoc]
  apply Ranked.release
  exact disciplined_withClient h5 htodo

theorem disciplined_known {client invitee : ClientPtr} (h : height held ≤ 0)
    (htodo : Disciplined held todo)
    : Disciplined (.registry :: held)
        (clientRef invitee ++ [release .registry] ++ clientUnref invitee false
          ++ [run (.processInvite client invitee)] ++ todo) := by
  have h3 : height held ≤ 3 := by omega
  have h5 : height held ≤ 5 := by omega
  simp only [List.append_assoc]
  apply disciplined_clientRef
  . simp only [height_cons, ServerLock.rank]
    omega
  . apply Ranked.release
    apply disciplined_clientUnref h5
    exact Ranked.run (c := .processInvite client invitee) h3 htodo

theorem disciplined_invited {client invitee : ClientPtr} {sourceRole targetRole : GameRole}
    (h : height held ≤ 3) (htodo : Disciplined held todo)
    : Disciplined held
        (clientMakeInvitation client invitee sourceRole targetRole ++ withClient client ++ todo) := by
  have h5 : height held ≤ 5 := by omega
  rw [List.append_assoc]
  apply disciplined_clientMakeInvitation h
  exact disciplined_withClient h5 htodo

theorem disciplined_invFreed {source target : ClientPtr} {inv : InvitationPtr}
    (h : height held ≤ 5) (htodo : Disciplined held todo)
    : Disciplined (.invitation inv :: held)
        ([release (.invitation inv)] ++ clientUnref source false ++ clientUnref target false
          ++ todo) := by
  simp only [List.append_assoc]
  apply Ranked.release
  apply disciplined_clientUnref h
  exact disciplined_clientUnref h htodo

/-! ### The lists of invitations -/

theorem height_invite (h : height held ≤ 4) : height (.semaphore .invite :: held) ≤ 5 := by
  simp only [height_cons, ServerLock.rank]
  omega

theorem disciplined_getsId {client : ClientPtr} {inv : InvitationPtr} {id : Int}
    (h : height held ≤ 4) (htodo : Disciplined held todo)
    : Disciplined (.client client :: .semaphore .invite :: held)
        ([release (.client client)] ++ addInvitation client inv id ++ todo) := by
  have h5 := height_invite h
  have h6 : height (.semaphore .invite :: held) ≤ 6 := by omega
  simp only [addInvitation, List.append_assoc]
  apply Ranked.release
  apply disciplined_invRef h6
  apply Ranked.acquire h5
  apply disciplined_quiet rfl rfl
  apply Ranked.release
  exact Ranked.release htodo

/--
The client is still locked, and is locked again: the thread waits for ever.
-/
theorem disciplined_getsNoId {client : ClientPtr} {inv : InvitationPtr} {id : Int}
    (h : height held ≤ 4)
    : Disciplined (.client client :: .semaphore .invite :: held)
        (addInvitation client inv id ++ todo) := by
  simp only [addInvitation, List.append_assoc]
  apply disciplined_invRef
  . simp only [height_cons, ServerLock.rank]
    omega
  . exact .inl List.mem_cons_self

theorem disciplined_findNode {client : ClientPtr} {inv : InvitationPtr} {id : Int}
    (h : height held ≤ 4) (htodo : Disciplined held todo)
    : Disciplined (.semaphore .invite :: held)
        (invUnref inv ++ [acquire (.client client), run (.purgeId client id), post .invite]
          ++ todo) := by
  have h5 := height_invite h
  have h8 : height (.semaphore .invite :: held) ≤ 8 := by omega
  rw [List.append_assoc]
  apply disciplined_invUnref h5
  apply Ranked.acquire h5
  refine Ranked.run (c := Point.purgeId client id) h8 ?_
  exact Ranked.release htodo

/-! ### The operations -/

structure Point.InOperation (point : Point) : Prop where
  enter : point.enter = [.semaphore .inviteOp]
  low : point.low = 3

theorem Point.InOperation.disciplined {point : Point} (hpoint : point.InOperation)
    (h : height held ≤ 3) (htodo : Disciplined held todo)
    : Disciplined (.semaphore .inviteOp :: held) (run point :: todo) := by
  have hrun := Ranked.run (c := point) (hpoint.low ▸ h) htodo
  rw [hpoint.enter] at hrun
  exact hrun

theorem enter_of_mayGiveUp (h : point.mayGiveUp = true) : point.enter = [.semaphore .inviteOp] := by
  cases point <;> simp_all [Point.mayGiveUp, Point.enter]

theorem height_inviteOp (h : height held ≤ 3)
    : height (.semaphore .inviteOp :: held) ≤ 4 ∧ height (.semaphore .inviteOp :: held) ≤ 5 := by
  simp only [height_cons, ServerLock.rank]
  omega

theorem disciplined_getInvitation {op : Operation} {client : ClientPtr} {inv : Option InvitationPtr}
    (h : height held ≤ 3) (htodo : Disciplined held todo)
    : Disciplined (.client client :: .semaphore .inviteOp :: held)
        ([release (.client client), run (.found op client inv)] ++ todo) := by
  apply Ranked.release
  exact Ranked.run (c := .found op client inv) h htodo

theorem disciplined_invCreate {source target : ClientPtr} {sourceRole targetRole : GameRole}
    (h : height held ≤ 3) (htodo : Disciplined held todo)
    : Disciplined (.semaphore .inviteOp :: held)
        (clientRef source ++ clientRef target
          ++ [run (.invCreated source target sourceRole targetRole)] ++ todo) := by
  have h5 := (height_inviteOp h).2
  simp only [List.append_assoc]
  apply disciplined_clientRef h5
  apply disciplined_clientRef h5
  exact Point.InOperation.disciplined ⟨rfl, rfl⟩ h htodo

theorem disciplined_adds {client : ClientPtr} {inv : InvitationPtr} (hpoint : point.InOperation)
    (h : height held ≤ 3) (htodo : Disciplined held todo)
    : Disciplined (.semaphore .inviteOp :: held)
        (clientAddInvitation client inv ++ [run point] ++ todo) := by
  rw [List.append_assoc]
  apply disciplined_clientAddInvitation (height_inviteOp h).1
  exact hpoint.disciplined h htodo

theorem disciplined_sourceNotAdded {inv : InvitationPtr} (h : height held ≤ 3)
    (htodo : Disciplined held todo)
    : Disciplined (.semaphore .inviteOp :: held) (invUnref inv ++ [post .inviteOp] ++ todo) := by
  rw [List.append_assoc]
  apply disciplined_invUnref (height_inviteOp h).2
  exact Ranked.release htodo

theorem disciplined_targetAdded {target : ClientPtr} {inv : InvitationPtr} (h : height held ≤ 3)
    (htodo : Disciplined held todo)
    : Disciplined (.semaphore .inviteOp :: held)
        (withClient target ++ invUnref inv ++ [post .inviteOp] ++ todo) := by
  have h5 := (height_inviteOp h).2
  simp only [List.append_assoc]
  apply disciplined_withClient h5
  apply disciplined_invUnref h5
  exact Ranked.release htodo

theorem disciplined_informs {other : ClientPtr} (hpoint : point.InOperation)
    (h : height held ≤ 3) (htodo : Disciplined held todo)
    : Disciplined (.semaphore .inviteOp :: held)
        (withClient other ++ withClient other ++ [run point] ++ todo) := by
  have h5 := (height_inviteOp h).2
  simp only [List.append_assoc]
  apply disciplined_withClient h5
  apply disciplined_withClient h5
  exact hpoint.disciplined h htodo

theorem disciplined_accepts {source : ClientPtr} (h : height held ≤ 3)
    (htodo : Disciplined held todo)
    : Disciplined (.semaphore .inviteOp :: held)
        (withClient source ++ withClient source ++ [post .inviteOp] ++ todo) := by
  have h5 := (height_inviteOp h).2
  simp only [List.append_assoc]
  apply disciplined_withClient h5
  apply disciplined_withClient h5
  exact Ranked.release htodo

theorem disciplined_declines {client source : ClientPtr} {inv : InvitationPtr}
    (h : height held ≤ 3) (htodo : Disciplined held todo)
    : Disciplined (.semaphore .inviteOp :: held)
        (withClient source ++ withClient source ++ clientRemoveInvitation client inv
          ++ clientRemoveInvitation source inv ++ [post .inviteOp] ++ todo) := by
  obtain ⟨h4, h5⟩ := height_inviteOp h
  simp only [List.append_assoc]
  apply disciplined_withClient h5
  apply disciplined_withClient h5
  apply disciplined_clientRemoveInvitation h4
  apply disciplined_clientRemoveInvitation h4
  exact Ranked.release htodo

/-! ### The end of a game -/

theorem disciplined_sendsEnded {receiver : ClientPtr} (hpoint : point.InOperation)
    (h : height held ≤ 3) (htodo : Disciplined held todo)
    : Disciplined (.semaphore .inviteOp :: held) (withClient receiver ++ [run point] ++ todo) := by
  rw [List.append_assoc]
  apply disciplined_withClient (height_inviteOp h).2
  exact hpoint.disciplined h htodo

theorem disciplined_results {client opponent : ClientPtr} {first : Bool}
    (hpoint : point.InOperation) (h : height held ≤ 3) (htodo : Disciplined held todo)
    : Disciplined (.semaphore .inviteOp :: held)
        (postPlayerResults client opponent first ++ [run point] ++ todo) := by
  rw [List.append_assoc]
  apply disciplined_postPlayerResults (height_inviteOp h).1
  exact hpoint.disciplined h htodo

theorem disciplined_postsResults {player1 player2 : PlayerPtr} (h : height held ≤ 4)
    (htodo : Disciplined held todo)
    : Disciplined (.semaphore .updateElo :: held)
        (playerPostResult player1 player2 ++ [post .updateElo] ++ todo) := by
  rw [List.append_assoc]
  apply disciplined_playerPostResult
  . simp only [height_cons, ServerLock.rank]
    omega
  . exact List.mem_cons_self
  . exact Ranked.release htodo

theorem disciplined_unlist {client : ClientPtr} {inv : InvitationPtr} (hpoint : point.InOperation)
    (h : height held ≤ 3) (htodo : Disciplined held todo)
    : Disciplined (.semaphore .inviteOp :: held)
        (clientRemoveInvitation client inv ++ [run point] ++ todo) := by
  rw [List.append_assoc]
  apply disciplined_clientRemoveInvitation (height_inviteOp h).1
  exact hpoint.disciplined h htodo

theorem disciplined_removed {opponent : ClientPtr} {inv : InvitationPtr} (h : height held ≤ 3)
    (htodo : Disciplined held todo)
    : Disciplined (.semaphore .inviteOp :: held)
        (clientRemoveInvitation opponent inv ++ [post .inviteOp] ++ todo) := by
  rw [List.append_assoc]
  apply disciplined_clientRemoveInvitation (height_inviteOp h).1
  exact Ranked.release htodo

/-! ### A client logs out -/

theorem disciplined_logout {client : ClientPtr} (h : height held ≤ 2)
    (htodo : Disciplined held todo)
    : Disciplined held ([wait .logout, run (.logoutLoop client)] ++ todo) := by
  apply Ranked.acquire h
  exact Ranked.run (c := .logoutLoop client) h htodo

theorem disciplined_logoutNode {client : ClientPtr} {op : Operation} {id : Int}
    (h : height held ≤ 2) (htodo : Disciplined held todo)
    : Disciplined (.semaphore .logout :: held)
        (operation op client id ++ [run (.logoutLoop client)] ++ todo) := by
  rw [List.append_assoc]
  apply disciplined_operation
  . simp only [height_cons, ServerLock.rank]
    omega
  . exact Ranked.run (c := .logoutLoop client) h htodo

theorem disciplined_logoutTail {client : ClientPtr} {player : PlayerPtr} (h : height held ≤ 2)
    (htodo : Disciplined held todo)
    : Disciplined (.semaphore .logout :: held)
        (withPlayer player ++ [run (.loggedOut client), post .logout] ++ todo) := by
  rw [List.append_assoc]
  apply disciplined_withPlayer
  . simp only [height_cons, ServerLock.rank]
    omega
  . apply disciplined_quiet rfl rfl
    exact Ranked.release htodo

/-! ## Any point -/

theorem Expands.disciplined (hexpands : Expands self d point d' next) (hlegal : Legal d point)
    (hlow : height held ≤ point.low) (htodo : Disciplined held todo)
    : Disciplined (point.enter ++ held) (next ++ todo) := by
  cases hexpands with
  | turnedAway | setPlayer | setLoggedIn | clientRef | clientUnref | clientFree | invRef | addNode
  | loggedOut | notLoggedIn => exact htodo
  | notCreated | notRegistered | noNode | noPlayers | invUnref | purgeId =>
    exact Ranked.release htodo
  | givesUp point hpoint =>
    rw [enter_of_mayGiveUp hpoint]
    exact Ranked.release htodo
  -- the returns that forget a lock
  | relogin client player c hc hin => exact absurd (hlegal c hc) hin
  | outOfBounds client id c hc hid =>
    have := hlegal c hc
    omega
  | logsOutFirst client c hc hcount hin => exact absurd hin (hlegal c hc hcount)
  | admitted => exact disciplined_admitted hlow htodo
  | created => exact disciplined_created hlow htodo
  | serves => exact disciplined_serves hlow htodo
  | leaves => exact disciplined_leaves hlow htodo
  | unregisters => exact disciplined_unregisters hlow htodo
  | refuses =>
    have h5 : height held ≤ 5 := Nat.le_trans (m := 0) hlow (by decide)
    exact disciplined_withClient h5 htodo
  | logsIn => exact disciplined_logsIn hlow htodo
  | login => exact disciplined_login hlow htodo
  | allPlayers => exact disciplined_allPlayers hlow htodo
  | nameTaken => exact disciplined_nameTaken hlow htodo
  | nameFree => exact disciplined_nameFree hlow htodo
  | users => exact disciplined_users hlow htodo
  | unknown => exact disciplined_unknown hlow htodo
  | known => exact disciplined_known hlow htodo
  | notInvited =>
    have h5 : height held ≤ 5 := Nat.le_trans (m := 3) hlow (by decide)
    exact disciplined_withClient h5 htodo
  | invited => exact disciplined_invited hlow htodo
  | invFreed => exact disciplined_invFreed hlow htodo
  | getsId | growsIds => exact disciplined_getsId hlow htodo
  | getsNoId => exact disciplined_getsNoId hlow
  | findNode => exact disciplined_findNode hlow htodo
  | getInvitation => exact disciplined_getInvitation hlow htodo
  | invCreate => exact disciplined_invCreate hlow htodo
  | invCreated | sourceAdded => exact disciplined_adds ⟨rfl, rfl⟩ hlow htodo
  | sourceNotAdded => exact disciplined_sourceNotAdded hlow htodo
  | targetAdded => exact disciplined_targetAdded hlow htodo
  | revokes | moves | resigns => exact disciplined_informs ⟨rfl, rfl⟩ hlow htodo
  | accepts => exact disciplined_accepts hlow htodo
  | declines => exact disciplined_declines hlow htodo
  | gameOver | ended => exact disciplined_sendsEnded ⟨rfl, rfl⟩ hlow htodo
  | results => exact disciplined_results ⟨rfl, rfl⟩ hlow htodo
  | postsResults => exact disciplined_postsResults hlow htodo
  | unlist => exact disciplined_unlist ⟨rfl, rfl⟩ hlow htodo
  | removed => exact disciplined_removed hlow htodo
  | clientLogout => exact disciplined_logout hlow htodo
  | logoutNode => exact disciplined_logoutNode hlow htodo
  | logoutTail => exact disciplined_logoutTail hlow htodo

end Locking

end Jeux
