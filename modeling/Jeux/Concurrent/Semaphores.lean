import Jeux.Concurrent.Ownership

/-!
`semaphores[]`: they exclude each other's holders as long as no connection registers in between, for
`client_create` gives every one of them the value one.
-/

namespace Jeux

namespace Locking

open Instr Program LockCode

abbrev Server : Type := Threads (LockMemory ServerLock Data) (LockThread ServerLock Point)

abbrev ServerEvent : Type := Program.Event (LockThread ServerLock Point) Answer

def isSemaphore : ServerLock → Bool
  | .semaphore _ => true
  | _ => false

def createsClient (T : Server) : ServerEvent → Bool
  | .call _ => false
  | .step i _ =>
    match T.pcs[i]? with
    | some ⟨_, .run .clientCreate :: _⟩ => true
    | _ => false

/--
`client_create` is run only while nobody is between `sem_wait` and `sem_post`.
-/
def CreatesAlone (T : Server) (e : ServerEvent) : Prop :=
  createsClient T e = true → ∀ p ∈ T.pcs, p.held.all (!isSemaphore ·) = true

instance (T : Server) (e : ServerEvent) : Decidable (CreatesAlone T e) := by
  unfold CreatesAlone
  infer_instance

/--
What holds in every state: locks exclude each other's holders and are taken in order, and the threads
know what they have to of clients.
-/
structure Orderly (T : Server) : Prop where
  exclusive : ∀ r, Exclusive T r
  disciplined : Each (fun _ _ p => Disciplined p.held p.todo) T
  slots : SlotsOk T.shared.data
  inRange : Each (fun m _ p => ∀ point ∈ points p.todo, point.InRange m.data) T
  backed : Each (fun _ _ p => ∀ client, Backed client (points p.todo)) T
  balanced : ∀ client, Balanced T.shared.data client
    (total (fun p => total (Point.claims client) (points p.todo)) T.pcs)
    (total (fun p => total (Point.owes client) (points p.todo)) T.pcs)
  session : Each (fun m i p => ∀ client, Session client (m.data.status i client) (points p.todo)) T
  entered : Entered T.shared.data

variable {T : Server} {i : Nat} {p p' : LockThread ServerLock Point} {answer : Answer}
  {m : LockMemory ServerLock Data}

theorem total_mono {P : Type} {weight weight' : P → Nat} {pcs : List P}
    (h : ∀ p ∈ pcs, weight p ≤ weight' p) : total weight pcs ≤ total weight' pcs := by
  induction pcs with
  | nil => exact Nat.le_refl _
  | cons p pcs ih =>
    rw [total_cons, total_cons]
    have hp := h p List.mem_cons_self
    have := ih fun q hq => h q (List.mem_cons_of_mem _ hq)
    omega

/--
Who is logged in is not freed: the registry has a reference to it.
-/
theorem Orderly.refs_pos (h : Orderly T) {client : ClientPtr} {c : Peer}
    (hc : T.shared.data.clients.get? client = some c) (hin : c.loggedIn = .loggedIn)
    : c.refCount ≠ 0 := by
  have hserver := (h.entered client c hc hin).2
  have hbalanced := h.balanced client
  have hle : total (fun p => total (Point.claims client) (points p.todo)) T.pcs
      ≤ total (fun p => total (Point.owes client) (points p.todo)) T.pcs := by
    apply total_mono
    intro p hp
    obtain ⟨i, hi⟩ := List.mem_iff_getElem?.mp hp
    exact (h.backed i p hi client).le
  unfold Balanced Data.stored Data.refs Data.server? at hbalanced
  simp only [hc, Option.map_some, Option.getD_some, Option.bind_some] at hbalanced
  rw [if_pos (Option.isSome_iff_ne_none.mpr hserver)] at hbalanced
  omega

theorem Orderly.legal (h : Orderly T) {point : Point} {held : List ServerLock} {todo : Code}
    (hp : T.pcs[i]? = some ⟨held, .run point :: todo⟩) : Legal T.shared.data point := by
  cases point with
  | clientLogin client player =>
    intro c hc
    have hfits := (h.session i _ hp client).1
    obtain ⟨-, hout⟩ := hfits rfl
    rw [Data.status_of_get? hc] at hout
    cases hin : c.loggedIn with
    | loggedOut => rfl
    | loggedIn => exact absurd hin (of_decide_eq_false hout)
  | clientFree client => exact fun c hc hcount hin => h.refs_pos hc hin hcount
  | purgeId client id =>
    intro c hc
    obtain ⟨c', hc', hid⟩ := h.inRange i _ hp (.purgeId client id) List.mem_cons_self
    obtain rfl := Option.some.inj (hc.symm.trans hc')
    exact hid
  | _ => trivial

theorem Orderly.call (h : Orderly T) (hstarts : serverCode.program.starts T.shared p = true)
    : Orderly { T with pcs := T.pcs ++ [p] } := by
  obtain rfl : p = ⟨[], serverCode.main⟩ := by simpa [program] using hstarts
  refine ⟨?_, h.disciplined.call ?_, h.slots, h.inRange.call ?_, h.backed.call ?_, ?_,
    h.session.call ?_, h.entered⟩
  . intro r
    exact (h.exclusive r).call rfl
  . exact ⟨[], rfl, Nat.zero_le _, trivial⟩
  . simp [serverCode, Point.InRange]
  . intro client
    apply Backed.of_claims
    rfl
  . intro client
    have hclaims : total (Point.claims client) (points serverCode.main) = 0 := rfl
    have howes : total (Point.owes client) (points serverCode.main) = 0 := rfl
    dsimp only
    rw [total_concat, total_concat, hclaims, howes]
    exact h.balanced client
  . intro client
    exact ⟨trivial, trivial⟩

theorem Orderly.lock (h : Orderly T) (hp : T.pcs[i]? = some p)
    (hdata : m.data = T.shared.data) (hpoints : points p'.todo = points p.todo)
    (hexclusive : ∀ r, Exclusive { shared := m, pcs := T.pcs.set i p' } r)
    (hdisciplined : Disciplined p'.held p'.todo)
    : Orderly { shared := m, pcs := T.pcs.set i p' } := by
  refine ⟨hexclusive, h.disciplined.step hdisciplined fun _ _ _ _ hq => hq, ?_,
    h.inRange.step ?_ ?_, h.backed.step ?_ fun _ _ _ _ hq => hq, ?_, h.session.step ?_ ?_, ?_⟩
  . dsimp only
    rw [hdata]
    exact h.slots
  . rw [hdata, hpoints]
    exact h.inRange i p hp
  . intro j q _ _ hq
    rw [hdata]
    exact hq
  . rw [hpoints]
    exact h.backed i p hp
  . intro client
    have hclaims := total_set (fun p => total (Point.claims client) (points p.todo)) p' hp
    have howes := total_set (fun p => total (Point.owes client) (points p.todo)) p' hp
    dsimp only at hclaims howes ⊢
    rw [hpoints] at hclaims howes
    rw [hdata, Nat.add_right_cancel hclaims, Nat.add_right_cancel howes]
    exact h.balanced client
  . rw [hdata, hpoints]
    exact h.session i p hp
  . intro j q _ _ hq
    rw [hdata]
    exact hq
  . dsimp only
    rw [hdata]
    exact h.entered

theorem dropsOwn_of_fits {d : Data} {point : Point}
    (hfits : ∀ client, point.fits client (d.status i client)) : DropsOwn i d point := by
  cases point with
  | clientUnref client registry =>
    cases registry with
    | false => trivial
    | true =>
      obtain ⟨hmine, -⟩ := hfits client rfl
      have hserver : d.server? client = some i := by simpa [Data.status] using hmine
      exact hserver
  | _ => trivial

theorem Orderly.exclusive_run (h : Orderly T) {point : Point} {held : List ServerLock}
    {todo next : Code} {d : Data} (hp : T.pcs[i]? = some ⟨held, .run point :: todo⟩)
    (hguard : CreatesAlone T (.step i answer)) (r : ServerLock)
    : Exclusive
        { shared :=
            { value :=
                if point = .clientCreate then initSemaphores T.shared.value else T.shared.value
              data := d }
          pcs := T.pcs.set i ⟨held, next ++ todo⟩ } r := by
  apply (h.exclusive r).run hp
  dsimp only
  split
  . next hcreates =>
    subst hcreates
    cases r with
    | semaphore s =>
      refine .inr ⟨Nat.le_refl 1, ?_⟩
      apply total_eq_zero.mpr
      intro q hq
      have halone := hguard (by simp [createsClient, hp]) q hq
      rw [List.count_eq_zero]
      intro hmem
      have := List.all_eq_true.mp halone _ hmem
      simp [isSemaphore] at this
    | _ => exact .inl (Nat.le_refl _)
  . exact .inl (Nat.le_refl _)

theorem Orderly.run (h : Orderly T) {point : Point} {held : List ServerLock} {todo next : Code}
    {d : Data} {value : ServerLock → Nat}
    (hp : T.pcs[i]? = some ⟨held, .run point :: todo⟩)
    (hexpands : Expands i T.shared.data point d next)
    (hexclusive : ∀ r, Exclusive
      { shared := { value := value, data := d }, pcs := T.pcs.set i ⟨held, next ++ todo⟩ } r)
    : Orderly
        { shared := { value := value, data := d }, pcs := T.pcs.set i ⟨held, next ++ todo⟩ } := by
  have hsession := h.session i _ hp
  have hrange := h.inRange i _ hp
  have hfits (client : ClientPtr) : point.fits client (T.shared.data.status i client) :=
    (hsession client).1
  have hnamed (c : ClientPtr) (v : Peer) (hv : T.shared.data.clients.get? c = some v)
      (hin : v.loggedIn = .loggedIn) : v.player ≠ none := (h.entered c v hv hin).1
  refine ⟨hexclusive, ?_, ?_, ?_, ?_, ?_, ?_, ?_⟩
  . refine h.disciplined.step ?_ fun _ _ _ _ hq => hq
    obtain ⟨rest, rfl, hlow, htodo⟩ := h.disciplined i _ hp
    exact hexpands.disciplined (h.legal hp) hlow htodo
  . exact hexpands.slotsOk h.slots (hrange point List.mem_cons_self)
  . apply h.inRange.step
    . intro point' hmem
      rw [points_append] at hmem
      rcases List.mem_append.mp hmem with hmem | hmem
      . exact hexpands.inRange h.slots point' hmem
      . exact (hrange point' (List.mem_cons_of_mem _ hmem)).of_hasSlot fun _ _ => hexpands.hasSlot
    . intro j q _ _ hq point' hmem
      exact (hq point' hmem).of_hasSlot fun _ _ => hexpands.hasSlot
  . refine h.backed.step ?_ fun _ _ _ _ hq => hq
    intro client
    rw [points_append]
    exact (hexpands.backed client).append (h.backed i _ hp client).2
  . intro client
    have hclaims := total_set (fun p => total (Point.claims client) (points p.todo))
      ⟨held, next ++ todo⟩ hp
    have howes := total_set (fun p => total (Point.owes client) (points p.todo))
      ⟨held, next ++ todo⟩ hp
    have hclaimed := weight_le_total (fun p => total (Point.claims client) (points p.todo)) hp
    have howed := weight_le_total (fun p => total (Point.owes client) (points p.todo)) hp
    have hbalanced := h.balanced client
    dsimp only at hclaims howes hclaimed howed ⊢
    rw [points_run, points_append, total_append, total_cons] at hclaims howes
    rw [points_run, total_cons] at hclaimed howed
    -- what the others, and this thread afterwards, have to take and to drop
    obtain ⟨n, hn⟩ := Nat.exists_eq_add_of_le (Nat.le_of_add_right_le hclaimed)
    obtain ⟨n', hn'⟩ := Nat.exists_eq_add_of_le (Nat.le_of_add_right_le howed)
    rw [hn, hn'] at hbalanced
    have hafter := hexpands.balanced (dropsOwn_of_fits hfits) hbalanced
    convert hafter using 1
    . omega
    . omega
  . apply h.session.step
    . intro client
      rw [points_append]
      exact hexpands.session hnamed (hsession client)
    . intro j q hne _ hq client
      exact (hq client).mono (hexpands.status_le hfits hne)
  . exact hexpands.entered h.entered hfits

theorem Orderly.acts (h : Orderly T) (hp : T.pcs[i]? = some p)
    (hguard : CreatesAlone T (.step i answer))
    (hacts : serverCode.Acts i T.shared p m p')
    : Orderly { shared := m, pcs := T.pcs.set i p' } := by
  have hdisciplined := h.disciplined i p hp
  cases hacts with
  | acquires r held todo hvalue =>
    refine h.lock hp rfl rfl (fun q => (h.exclusive q).acquire hp hvalue) ?_
    rcases hdisciplined with hself | ⟨-, htodo⟩
    . -- nobody takes a lock that somebody, be it himself, has taken
      exact absurd ((h.exclusive r).value_eq_zero ⟨_, hp, hself⟩) hvalue
    . exact htodo
  | releases r held todo =>
    obtain ⟨hmem, htodo⟩ := hdisciplined
    exact h.lock hp rfl rfl (fun q => (h.exclusive q).release hp hmem) htodo
  | runs point answer' held todo next m hrun =>
    obtain ⟨⟨d, next'⟩, hexpand, heq⟩ := Option.map_eq_some_iff.mp hrun
    cases heq
    apply h.run hp (expands_of_expand hexpand)
    exact h.exclusive_run hp hguard

def startServer : Server := ⟨initialMemory, []⟩

theorem orderly_start : Orderly startServer where
  exclusive r := by
    cases r with
    | semaphore s => exact Nat.zero_le _
    | _ => exact Nat.le_refl _
  disciplined := by simp [Each, startServer]
  slots := by
    intro client c hc
    simp [startServer, initialMemory, initialData] at hc
  inRange := by simp [Each, startServer]
  backed := by simp [Each, startServer]
  balanced _ := rfl
  session := by simp [Each, startServer]
  entered := by
    intro client c hc
    simp [startServer, initialMemory, initialData] at hc

theorem orderly_of_reach (h : serverCode.program.machine.Reach CreatesAlone startServer T)
    : Orderly T := by
  apply reach_induction Orderly h orderly_start
  . intro T p hinv _ hstarts
    exact hinv.call hstarts
  . intro T i answer p m p' hinv hguard hp hstep
    exact hinv.acts hp hguard (acts_of_step _ hstep)

/-! ## The result -/

/--
As long as `client_create` is run only while nobody is between `sem_wait` and `sem_post`, no
semaphore ever has a value above one, and no two threads are between them on the same one.
-/
theorem semaphores_exclude (h : serverCode.program.machine.Reach CreatesAlone startServer T)
    (s : Semaphore)
    : T.shared.value (.semaphore s) ≤ 1
      ∧ ∀ i j, Holds T i (.semaphore s) → Holds T j (.semaphore s) → i = j := by
  have hexclusive := (orderly_of_reach h).exclusive (.semaphore s)
  refine ⟨?_, fun i j hi hj => hexclusive.unique hi hj⟩
  unfold Exclusive at hexclusive
  omega

def connect : ServerEvent := .call ⟨[], serverCode.main⟩

def steps (i : Nat) (answers : List Answer) : List ServerEvent := answers.map (.step i)

def oks (n : Nat) : List Answer := List.replicate n .ok

def asksForLogin (player : PlayerPtr) : List Answer :=
  .request (.login player) :: oks 3

def waitsForLogin (player : PlayerPtr) : List Answer :=
  oks 6 ++ asksForLogin player ++ oks 1

/--
Two clients have registered, and both want to log in. The second one has to wait for the first.
-/
theorem semaphores_exclude_of_blocked : ∃ T : Server,
    serverCode.program.machine.Reach CreatesAlone startServer T
      ∧ Holds T 0 (.semaphore .login) ∧ Blocked T 1 (.semaphore .login)
      ∧ T.shared.value (.semaphore .login) ≤ 1
      ∧ ∀ j, Holds T j (.semaphore .login) → j = 0 := by
  obtain ⟨T, hreach, hT⟩ := Machine.Reach.of_any_run serverCode.program.machine CreatesAlone
    startServer (connect :: steps 0 (oks 6) ++ connect :: steps 1 (oks 6 ++ asksForLogin 1)
      ++ steps 0 (asksForLogin 0 ++ oks 1))
    (fun T => (T.pcs[0]?.any fun p => .semaphore .login ∈ p.held)
      && T.pcs[1]?.any fun p => p.wants = some (.semaphore .login)
        ∧ T.shared.value (.semaphore .login) = 0) (by decide +kernel)
  rw [Bool.and_eq_true, Option.any_eq_true (x := T.pcs[1]?)] at hT
  obtain ⟨hT, p, hp, hblocked⟩ := hT
  have hholds : Holds T 0 (.semaphore .login) := holds_of_any hT
  obtain ⟨hvalue, hunique⟩ := semaphores_exclude hreach .login
  exact ⟨T, hreach, hholds, ⟨p, hp, of_decide_eq_true hblocked⟩, hvalue,
    fun j hj => hunique j 0 hj hholds⟩

/--
A thread is logging its client in when another client registers. Either that one logs in too, or the
first one goes on.
-/
theorem not_semaphores_exclude
    : (¬ ∀ T : Server, serverCode.program.machine.Reach (fun _ _ => True) startServer T →
        ∀ s i j, Holds T i (.semaphore s) → Holds T j (.semaphore s) → i = j)
      ∧ ¬ ∀ T : Server, serverCode.program.machine.Reach (fun _ _ => True) startServer T →
        ∀ s, T.shared.value (.semaphore s) ≤ 1 := by
  refine ⟨fun h => ?_, fun h => ?_⟩
  . obtain ⟨T, hreach, hT⟩ := Machine.Reach.of_any_run serverCode.program.machine (fun _ _ => True)
      startServer
      (connect :: steps 0 (waitsForLogin 0) ++ connect :: steps 1 (waitsForLogin 1))
      (fun T => (T.pcs[0]?.any fun p => .semaphore .login ∈ p.held)
        && T.pcs[1]?.any fun p => .semaphore .login ∈ p.held) (by decide +kernel)
    rw [Bool.and_eq_true] at hT
    have := h T hreach .login 0 1 (holds_of_any hT.1) (holds_of_any hT.2)
    omega
  . obtain ⟨T, hreach, hT⟩ := Machine.Reach.of_any_run serverCode.program.machine (fun _ _ => True)
      startServer
      (connect :: steps 0 (waitsForLogin 0) ++ connect :: steps 1 (oks 6) ++ steps 0 (oks 13))
      (fun T => T.shared.value (.semaphore .login) = 2) (by decide +kernel)
    have hvalue : T.shared.value (.semaphore .login) = 2 := of_decide_eq_true hT
    have := h T hreach .login
    omega

end Locking

end Jeux
