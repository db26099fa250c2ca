import Jeux.Util.LinkedList
import Jeux.Util.Threads
import Jeux.Lemmas.Login

/-!
The references to players while any number of threads run: `preg_register`, and everything the
service threads do with a `PLAYER *` around it. What is done under a mutex is one step, and so is a
read of a pointer that another thread may change. Semaphores are left out, so that more can happen
than in the server. `preg_fini` has not been called yet, and there is memory for every player.
-/

namespace Jeux

structure LoginState where
  player : Option PlayerPtr
  loggedIn : ClientState
  deriving DecidableEq, Repr

def LoginState.fresh : LoginState := ⟨none, .loggedOut⟩

/--
The players, the list of the player registry and its length, the client of each thread, and the
threads whose clients are registered. For the record: the names with which `preg_register` has been
called, in the order of the calls' locked sections; the player each call has returned; and the
ratings that have been stored.
-/
structure PlayersState where
  players : Heap Player
  list : LinkedList PlayerPtr
  length : Nat
  sessions : Nat → LoginState
  registered : List Nat
  calls : List CString
  returned : List (CString × PlayerPtr)
  posted : List (PlayerPtr × Int)

def initialPlayers : PlayersState where
  players := .empty
  list := .empty
  length := 0
  sessions := fun _ => .fresh
  registered := []
  calls := []
  returned := []
  posted := []

inductive Purpose where
  | users
  | login (player : PlayerPtr)
  deriving DecidableEq, Repr

/--
Where a thread is. A service thread goes through the calls of `jeux_client_service`, and any other
thread makes one call of `preg_register`.
-/
inductive PlayersPc where
  | connecting
  | idle
  | register (login : Bool) (name : CString)
  | registerRef (login : Bool) (name : CString) (player : PlayerPtr)
  | kept (player : PlayerPtr)
  | clientLogin (player : PlayerPtr)
  | collect (purpose : Purpose) (clients : List Nat) (players : List PlayerPtr)
  | collectRef (purpose : Purpose) (player : PlayerPtr) (clients : List Nat)
      (players : List PlayerPtr)
  | compare (player : PlayerPtr) (players : List PlayerPtr) (loggedIn : Bool)
  | setPlayer (player : PlayerPtr)
  | setPlayerRef (player : PlayerPtr)
  | setLoggedIn (player : PlayerPtr)
  | unrefNewPlayer (player : PlayerPtr)
  | print (players : List PlayerPtr)
  | postResult (player1 player2 : PlayerPtr) (result : GameRole)
  | clientLogout
  | setLoggedOut
  | unregister
  | finished
  | crashed
  deriving DecidableEq, Repr

/--
A thread. For the record: the references it has taken and not given up since, its client's among them.
-/
structure PlayersThread where
  pc : PlayersPc
  mine : List PlayerPtr
  deriving DecidableEq, Repr

/--
What a thread may do next: the one thing its place allows, or, between two packets, handle the next one
or leave. A game may have been played with the client of any thread.
-/
inductive PlayersStep where
  | go
  | login (payload : List Byte)
  | users
  | result (opponent : Nat) (first : Bool) (result : GameRole)
  | leave
  deriving DecidableEq, Repr

namespace PlayersThread

def goto (t : PlayersThread) (pc : PlayersPc) : PlayersThread := { t with pc }

end PlayersThread

namespace PlayersState

def setSession (s : PlayersState) (self : Nat) (session : LoginState) : PlayersState :=
  { s with sessions := fun i => if i = self then session else s.sessions i }

def ref (s : PlayersState) (t : PlayersThread) (player : PlayerPtr) (pc : PlayersPc)
    : PlayersState × PlayersThread :=
  match s.players.get? player with
  | none => (s, t.goto .crashed)
  | some _ => ({ s with players := s.players.modify player Player.addRef }, ⟨pc, player :: t.mine⟩)

def unref (s : PlayersState) (t : PlayersThread) (player : PlayerPtr) (pc : PlayersPc)
    : PlayersState × PlayersThread :=
  match s.players.get? player with
  | none => (s, t.goto .crashed)
  | some p =>
    let players := s.players.modify player Player.dropRef
    ({ s with players := if p.refCount - 1 = 0 then players.free player else players },
      ⟨pc, t.mine.erase player⟩)

def named (s : PlayersState) (name : CString) (player : PlayerPtr) : Option Bool :=
  (s.players.get? player).map (·.name == name)

def enlist (s : PlayersState) (name : CString) (last : Option Nat) : PlayersState :=
  { s with
    players := s.players.push { name, refCount := 1, rating := playerInitialRating }
    list := s.list.insertAfter last s.players.next
    length := s.length + 1 }

def register (s : PlayersState) (t : PlayersThread) (login : Bool) (name : CString)
    : PlayersState × PlayersThread :=
  let s := { s with calls := s.calls ++ [name] }
  match s.list.search (s.named name) with
  | .found player => (s, t.goto (.registerRef login name player))
  | .absent last => (s.enlist name last, t.goto (.registerRef login name s.players.next))
  | .fails => (s, t.goto .crashed)

def compareName (s : PlayersState) (t : PlayersThread) (player other : PlayerPtr)
    (players : List PlayerPtr) (loggedIn : Bool) : PlayersState × PlayersThread :=
  match s.players.get? player with
  | none => (s, t.goto .crashed)
  | some p =>
    match s.named p.name other with
    | none => (s, t.goto .crashed)
    | some same => s.unref t other (.compare player players (loggedIn || same))

def postResult (s : PlayersState) (t : PlayersThread) (expected : Int → Rat)
    (player1 player2 : PlayerPtr) (result : GameRole) : PlayersState × PlayersThread :=
  if player1 = player2 then
    (s, t.goto .idle)
  else
    match s.players.get? player1, s.players.get? player2 with
    | some p1, some p2 =>
      let ratings := postedRatings expected p1.rating p2.rating result
      ({ s with
          players :=
            (s.players.modify player1 fun p => { p with rating := ratings.1 }).modify player2
              fun p => { p with rating := ratings.2 }
          posted := s.posted ++ [(player1, ratings.1), (player2, ratings.2)] },
        t.goto .idle)
    | _, _ => (s, t.goto .crashed)

end PlayersState

/-! ## `preg_register` -/

section Register

variable {s : PlayersState} {t : PlayersThread} {login : Bool} {name : CString}

def PlayersState.Live (s : PlayersState) : Prop :=
  ∀ player ∈ s.list.toList, ∃ p, s.players.get? player = some p

def PlayersState.playerNamed (s : PlayersState) (name : CString) : Option PlayerPtr :=
  s.list.toList.find? fun player => (s.players.get? player).map (·.name) = some name

theorem search_named (hlinked : s.list.Linked) (hlive : s.Live)
    : s.list.search (s.named name)
        =
      match s.playerNamed name with
      | some player => .found player
      | none => .absent s.list.last? := by
  have hvisit : ∀ player ∈ s.list.toList, ∃ b, s.named name player = some b := by
    intro player hmem
    obtain ⟨p, hp⟩ := hlive player hmem
    exact ⟨p.name == name, by simp [PlayersState.named, hp]⟩
  have hnamed : (fun player => decide (s.named name player = some true))
      = fun player => decide ((s.players.get? player).map (·.name) = some name) := by
    funext player
    unfold PlayersState.named
    cases s.players.get? player <;> simp
  unfold PlayersState.playerNamed
  rw [hlinked.search hvisit, hnamed]
  cases s.list.toList.find? _ <;> rfl

theorem playerNamed_some {player : PlayerPtr} (h : s.playerNamed name = some player)
    : player ∈ s.list.toList ∧ ∃ p, s.players.get? player = some p ∧ p.name = name := by
  have hname := List.find?_some h
  rw [decide_eq_true_eq, Option.map_eq_some_iff] at hname
  exact ⟨List.mem_of_find?_eq_some h, hname⟩

theorem playerNamed_none (h : s.playerNamed name = none) {player : PlayerPtr} {p : Player}
    (hmem : player ∈ s.list.toList) (hp : s.players.get? player = some p) : p.name ≠ name := by
  intro hname
  have hnot := List.find?_eq_none.mp h player hmem
  simp [hp, hname] at hnot

theorem register_eq (t : PlayersThread) (login : Bool) (name : CString) (hlinked : s.list.Linked)
    (hlive : s.Live)
    : s.register t login name
        =
      match s.playerNamed name with
      | some player =>
        ({ s with calls := s.calls ++ [name] }, t.goto (.registerRef login name player))
      | none =>
        (({ s with calls := s.calls ++ [name] }).enlist name s.list.last?,
          t.goto (.registerRef login name s.players.next)) := by
  have hsearch : s.list.search (s.named name) = _ := search_named hlinked hlive
  have hregister : s.register t login name
      = match s.list.search (s.named name) with
        | .found player =>
          ({ s with calls := s.calls ++ [name] }, t.goto (.registerRef login name player))
        | .absent last =>
          (({ s with calls := s.calls ++ [name] }).enlist name last,
            t.goto (.registerRef login name s.players.next))
        | .fails => ({ s with calls := s.calls ++ [name] }, t.goto .crashed) := rfl
  rw [hregister, hsearch]
  cases s.playerNamed name <;> rfl

structure PlayersState.Represents (s : PlayersState) (store : Store) : Prop where
  linked : s.list.Linked
  players : store.players = s.players
  registry : store.playerRegistry = { players := s.list.toList, length := s.length }

theorem PlayersState.Represents.live {store : Store} {extra : ClientPtr → Nat}
    (h : s.Represents store) (hv : store.Valid extra) : s.Live := by
  intro player hmem
  rw [← h.players]
  apply hv.registry_live
  rw [h.registry]
  exact hmem

/--
Run without interruption, the locked section and the reference taken after it are `preg_register`.
-/
theorem register_represents {env : Env} {w : World} {extra : ClientPtr → Nat} (t : PlayersThread)
    (login : Bool) (name : CString) (pc : PlayersPc) (hs : s.Represents w.store)
    (hv : w.store.Valid extra)
    (hroom : env.allocOk w.trace.allocs = true ∧ env.allocOk (w.trace.allocs + 1) = true)
    : ∃ player w', (pregRegister name).run env w = .ok (some player, w')
        ∧ (s.register t login name).2 = t.goto (.registerRef login name player)
        ∧ ((s.register t login name).1.ref t player pc).1.Represents w'.store := by
  have hplayer : w.store.playerNamed name = s.playerNamed name := by
    unfold Store.playerNamed PlayersState.playerNamed
    rw [hs.registry, hs.players]
  refine ⟨_, _, pregRegister_run hv (.inr hroom), ?_⟩
  unfold Store.playerFor Store.enlist
  rw [hplayer, register_eq t login name hs.linked (hs.live hv)]
  cases hfind : s.playerNamed name with
  | some player =>
    obtain ⟨-, p, hp, -⟩ := playerNamed_some hfind
    refine ⟨rfl, ?_⟩
    unfold PlayersState.ref
    rw [Option.getD_some]
    dsimp only
    rw [hp]
    exact ⟨hs.linked, by rw [Store.modifyPlayer_players, hs.players], hs.registry⟩
  | none =>
    rw [hs.players]
    refine ⟨rfl, ?_⟩
    unfold PlayersState.ref PlayersState.enlist
    rw [Option.getD_none]
    dsimp only
    rw [Heap.get?_push_next]
    refine ⟨hs.linked.insertAfter, ?_, ?_⟩
    . rw [Store.modifyPlayer_players]
      dsimp only [Store.addPlayer]
      rw [hs.players]
    . rw [Store.modifyPlayer_playerRegistry]
      dsimp only [Store.addPlayer]
      rw [hs.registry, hs.players, LinkedList.toList_insertAfter]

end Register

/-! ## The program -/

/--
The steps of the threads, given the value of `1.0 / (1.0 + pow(10.0, d / 400.0))`.
-/
def playersProgram (expected : Int → Rat) : Program PlayersState PlayersThread PlayersStep where
  starts _ t :=
    match t with
    | ⟨.connecting, []⟩ | ⟨.register false _, []⟩ => true
    | _ => false
  step self s t a :=
    match t.pc, a with
    | .connecting, .go => some ({ s with registered := s.registered ++ [self] }, t.goto .idle)
    -- `process_login`: a second login and an empty name are refused
    | .idle, .login payload =>
      if (s.sessions self).player.isSome || cstring payload = [] then
        some (s, t.goto .idle)
      else
        some (s, t.goto (.register true (cstring payload)))
    | .idle, .users => some (s, t.goto (.collect .users s.registered []))
    -- the source and the target of an invitation
    | .idle, .result opponent first result =>
      match (s.sessions self).player, (s.sessions opponent).player with
      | some player, some other =>
        some (s, t.goto
          (if first then .postResult player other result else .postResult other player result))
      | _, _ => some (s, t.goto .idle)
    | .idle, .leave =>
      if (s.sessions self).loggedIn = .loggedIn then
        some (s, t.goto .clientLogout)
      else
        some (s, t.goto .unregister)
    | .register login name, .go => some (s.register t login name)
    | .registerRef login name player, .go =>
      some ({ s with returned := s.returned ++ [(name, player)] }.ref t player
        (if login then .clientLogin player else .kept player))
    | .kept player, .go => some (s.unref t player .finished)
    | .clientLogin player, .go =>
      if (s.sessions self).loggedIn = .loggedOut then
        some (s, t.goto (.collect (.login player) s.registered []))
      else
        some (s, t.goto (.unrefNewPlayer player))
    -- `creg_all_players`
    | .collect purpose (client :: clients) players, .go =>
      match (s.sessions client).player with
      | none => some (s, t.goto (.collect purpose clients players))
      | some player => some (s, t.goto (.collectRef purpose player clients players))
    | .collectRef purpose player clients players, .go =>
      some (s.ref t player (.collect purpose clients (players ++ [player])))
    | .collect .users [] players, .go => some (s, t.goto (.print players))
    | .collect (.login player) [] players, .go => some (s, t.goto (.compare player players false))
    | .compare player (other :: players) loggedIn, .go =>
      some (s.compareName t player other players loggedIn)
    | .compare player [] loggedIn, .go =>
      some (s, t.goto (if loggedIn then .unrefNewPlayer player else .setPlayer player))
    | .setPlayer player, .go =>
      some (s.setSession self { s.sessions self with player := some player },
        t.goto (.setPlayerRef player))
    | .setPlayerRef player, .go => some (s.ref t player (.setLoggedIn player))
    | .setLoggedIn player, .go =>
      some (s.setSession self { s.sessions self with loggedIn := .loggedIn },
        t.goto (.unrefNewPlayer player))
    | .unrefNewPlayer player, .go => some (s.unref t player .idle)
    | .print (player :: players), .go => some (s.unref t player (.print players))
    | .print [], .go => some (s, t.goto .idle)
    | .postResult player1 player2 result, .go => some (s.postResult t expected player1 player2 result)
    | .clientLogout, .go =>
      match (s.sessions self).player with
      | none => some (s, t.goto .crashed)
      | some player => some (s.unref t player .setLoggedOut)
    | .setLoggedOut, .go =>
      some (s.setSession self { s.sessions self with loggedIn := .loggedOut }, t.goto .unregister)
    | .unregister, .go =>
      some ({ s with registered := s.registered.erase self }, t.goto .finished)
    | _, _ => none

end Jeux
