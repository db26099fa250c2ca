import Jeux.Concurrent.Locking

/-!
What can happen at each point of the code, and in which order it takes locks.
-/

namespace Jeux

/--
Locks are taken in the order of these numbers. The semaphore of the invitation lists and that of the
ratings are never taken together.
-/
def ServerLock.rank : ServerLock → Nat
  | .semaphore .login => 0
  | .registry => 1
  | .semaphore .logout => 2
  | .semaphore .inviteOp => 3
  | .semaphore .invite => 4
  | .semaphore .updateElo => 4
  | .client _ => 5
  | .invitation _ => 6
  | .player _ => 7

namespace Locking

open Instr

variable {self : Nat} {d d' : Data} {point : Point} {answer : Answer} {next : Code}

def Point.mayGiveUp : Point → Bool
  | .invCreate .. | .targetAdded .. | .found .. | .moved .. | .ended .. | .results .. | .unlist ..
  | .removed .. => true
  | _ => false

inductive Expands (self : Nat) (d : Data) : Point → Data → Code → Prop
  | turnedAway : Expands self d .cregRegister d []
  | admitted : Expands self d .cregRegister d [acquire .registry, run .clientCreate]
  | created
      : Expands self d .clientCreate
          { d with
            clients := d.clients.push (newPeer self)
            registered := d.registered ++ [d.clients.next] }
          (withClient d.clients.next ++ [release .registry, run (.service d.clients.next)])
  | notCreated : Expands self d .clientCreate d [release .registry]
  | serves (client : ClientPtr) (request : Request)
      : Expands self d (.service client) d (process client request ++ [run (.service client)])
  | leaves (client : ClientPtr)
      : Expands self d (.service client) d (clientLogout client ++ cregUnregister client)
  | refuses (client : ClientPtr) (player : PlayerPtr)
      : Expands self d (.processLogin client player) d (withClient client)
  | logsIn (client : ClientPtr) (player : PlayerPtr) (c : Peer)
      (hc : d.clients.get? client = some c) (hplayer : c.player = none)
      : Expands self d (.processLogin client player) d
          (withPlayer player ++ [wait .login, run (.clientLogin client player)])
  | relogin (client : ClientPtr) (player : PlayerPtr) (c : Peer)
      (hc : d.clients.get? client = some c) (hin : c.loggedIn ≠ .loggedOut)
      : Expands self d (.clientLogin client player) d
          (withClient client ++ withPlayer player ++ withClient client)
  | login (client : ClientPtr) (player : PlayerPtr)
      : Expands self d (.clientLogin client player) d
          [acquire .registry, run (.allPlayers client player)]
  | allPlayers (client : ClientPtr) (player : PlayerPtr) (players : List PlayerPtr)
      : Expands self d (.allPlayers client player) d
          (players.flatMap withPlayer ++ [release .registry] ++ players.flatMap withPlayer
            ++ [run (.nameChecked client player)])
  | nameTaken (client : ClientPtr) (player : PlayerPtr)
      : Expands self d (.nameChecked client player) d
          ([post .login] ++ withClient client ++ withPlayer player ++ withClient client)
  | nameFree (client : ClientPtr) (player : PlayerPtr)
      : Expands self d (.nameChecked client player) d
          ([acquire (.client client), run (.setPlayer client player)] ++ withPlayer player
            ++ [release (.client client), run (.setLoggedIn client), post .login]
            ++ withPlayer player ++ withClient client)
  | setPlayer (client : ClientPtr) (player : PlayerPtr)
      : Expands self d (.setPlayer client player)
          (d.modifyClient client fun c => { c with player := some player }) []
  | setLoggedIn (client : ClientPtr)
      : Expands self d (.setLoggedIn client)
          (d.modifyClient client fun c => { c with loggedIn := .loggedIn }) []
  | users (client : ClientPtr) (players : List PlayerPtr)
      : Expands self d (.processUsers client) d
          (players.flatMap withPlayer ++ [release .registry] ++ players.flatMap withPlayer
            ++ withClient client)
  | unknown (client : ClientPtr)
      : Expands self d (.cregLookup client) d ([release .registry] ++ withClient client)
  | known (client invitee : ClientPtr)
      : Expands self d (.cregLookup client) d
          (clientRef invitee ++ [release .registry] ++ clientUnref invitee false
            ++ [run (.processInvite client invitee)])
  | notInvited (client invitee : ClientPtr)
      : Expands self d (.processInvite client invitee) d (withClient client)
  | invited (client invitee : ClientPtr) (sourceRole targetRole : GameRole)
      : Expands self d (.processInvite client invitee) d
          (clientMakeInvitation client invitee sourceRole targetRole ++ withClient client)
  | givesUp (point : Point) (hpoint : point.mayGiveUp = true)
      : Expands self d point d [post .inviteOp]
  | invCreate (source target : ClientPtr) (sourceRole targetRole : GameRole)
      : Expands self d (.invCreate source target sourceRole targetRole) d
          (clientRef source ++ clientRef target
            ++ [run (.invCreated source target sourceRole targetRole)])
  | invCreated (source target : ClientPtr) (sourceRole targetRole : GameRole)
      : Expands self d (.invCreated source target sourceRole targetRole)
          { d with
            invitations :=
              d.invitations.push { refCount := 1, source, target, sourceRole, targetRole } }
          (clientAddInvitation source d.invitations.next
            ++ [run (.sourceAdded source target d.invitations.next)])
  | sourceNotAdded (source target : ClientPtr) (inv : InvitationPtr)
      : Expands self d (.sourceAdded source target inv) d (invUnref inv ++ [post .inviteOp])
  | sourceAdded (source target : ClientPtr) (inv : InvitationPtr)
      : Expands self d (.sourceAdded source target inv) d
          (clientAddInvitation target inv ++ [run (.targetAdded target inv)])
  | targetAdded (target : ClientPtr) (inv : InvitationPtr)
      : Expands self d (.targetAdded target inv) d
          (withClient target ++ invUnref inv ++ [post .inviteOp])
  | clientRef (client : ClientPtr) (c : Peer) (hc : d.clients.get? client = some c)
      : Expands self d (.clientRef client)
          (d.modifyClient client fun c => { c with refCount := c.refCount + 1 }) []
  | clientUnref (client : ClientPtr) (registry : Bool) (c : Peer)
      (hc : d.clients.get? client = some c)
      : Expands self d (.clientUnref client registry)
          (d.modifyClient client fun c =>
            { c with refCount := c.refCount - 1, server := if registry then none else c.server }) []
  | logsOutFirst (client : ClientPtr) (c : Peer) (hc : d.clients.get? client = some c)
      (hcount : c.refCount = 0) (hin : c.loggedIn = .loggedIn)
      : Expands self d (.clientFree client) d (clientLogout client)
  | clientFree (client : ClientPtr) : Expands self d (.clientFree client) d []
  | invRef (inv : InvitationPtr)
      : Expands self d (.invRef inv)
          { d with
            invitations := d.invitations.modify inv fun i => { i with refCount := i.refCount + 1 } }
          []
  | invFreed (inv : InvitationPtr) (i : Offer) (hi : d.invitations.get? inv = some i)
      : Expands self d (.invUnref inv) { d with invitations := d.invitations.free inv }
          ([release (.invitation inv)] ++ clientUnref i.source false ++ clientUnref i.target false)
  | invUnref (inv : InvitationPtr)
      : Expands self d (.invUnref inv)
          { d with
            invitations := d.invitations.modify inv fun i => { i with refCount := i.refCount - 1 } }
          [release (.invitation inv)]
  | getsId (client : ClientPtr) (inv : InvitationPtr) (id : Int) (c : Peer)
      (hc : d.clients.get? client = some c) (hid : id < c.currentIdSize)
      : Expands self d (.getAvailableId client inv) d
          ([release (.client client)] ++ addInvitation client inv id)
  | growsIds (client : ClientPtr) (inv : InvitationPtr) (id : Int) (c : Peer)
      (hc : d.clients.get? client = some c) (hid : id < c.currentIdSize * 2)
      : Expands self d (.getAvailableId client inv)
          (d.modifyClient client fun c => { c with currentIdSize := c.currentIdSize * 2 })
          ([release (.client client)] ++ addInvitation client inv id)
  | getsNoId (client : ClientPtr) (inv : InvitationPtr) (c : Peer)
      (hc : d.clients.get? client = some c)
      : Expands self d (.getAvailableId client inv) d (addInvitation client inv (-1))
  | addNode (client : ClientPtr) (inv : InvitationPtr) (id : Int)
      : Expands self d (.addNode client inv id)
          (d.modifyClient client fun c =>
            { c with inviteHead := { id := id, invitation := inv } :: c.inviteHead }) []
  | noNode (client : ClientPtr) (inv : InvitationPtr)
      : Expands self d (.findNode client inv) d [post .invite]
  | findNode (client : ClientPtr) (inv : InvitationPtr) (c : Peer) (node : InvitationNode)
      (hc : d.clients.get? client = some c) (hnode : node ∈ c.inviteHead)
      : Expands self d (.findNode client inv)
          (d.modifyClient client fun c =>
            { c with inviteHead := c.inviteHead.eraseP (·.invitation = inv) })
          (Locking.invUnref inv ++ [acquire (.client client), run (.purgeId client node.id),
            post .invite])
  | outOfBounds (client : ClientPtr) (id : Int) (c : Peer) (hc : d.clients.get? client = some c)
      (hid : id ≥ c.currentIdSize) : Expands self d (.purgeId client id) d []
  | purgeId (client : ClientPtr) (id : Int)
      : Expands self d (.purgeId client id) d [release (.client client)]
  | getInvitation (op : Operation) (client : ClientPtr) (id : Int) (inv : Option InvitationPtr)
      : Expands self d (.getInvitation op client id) d
          [release (.client client), run (.found op client inv)]
  | revokes (op : Operation) (client target : ClientPtr) (inv : InvitationPtr)
      : Expands self d (.found op client (some inv)) d
          (withClient target ++ withClient target ++ [run (.unlist client target inv)])
  | declines (op : Operation) (client source : ClientPtr) (inv : InvitationPtr)
      : Expands self d (.found op client (some inv)) d
          (withClient source ++ withClient source ++ clientRemoveInvitation client inv
            ++ clientRemoveInvitation source inv ++ [post .inviteOp])
  | accepts (op : Operation) (client source : ClientPtr) (inv : InvitationPtr)
      : Expands self d (.found op client (some inv)) d
          (withClient source ++ withClient source ++ [post .inviteOp])
  | moves (op : Operation) (client opponent : ClientPtr) (inv : InvitationPtr)
      : Expands self d (.found op client (some inv)) d
          (withClient opponent ++ withClient opponent ++ [run (.moved client opponent inv)])
  | resigns (op : Operation) (client opponent : ClientPtr) (inv : InvitationPtr)
      : Expands self d (.found op client (some inv)) d
          (withClient opponent ++ withClient opponent ++ [run (.results client opponent inv)])
  | gameOver (client opponent : ClientPtr) (inv : InvitationPtr)
      : Expands self d (.moved client opponent inv) d
          (withClient opponent ++ [run (.ended client opponent inv)])
  | ended (client opponent : ClientPtr) (inv : InvitationPtr)
      : Expands self d (.ended client opponent inv) d
          (withClient client ++ [run (.results client opponent inv)])
  | results (client opponent : ClientPtr) (inv : InvitationPtr) (first : Bool)
      : Expands self d (.results client opponent inv) d
          (postPlayerResults client opponent first ++ [run (.unlist client opponent inv)])
  | postsResults (client opponent : ClientPtr) (first : Bool) (player1 player2 : PlayerPtr)
      : Expands self d (.postResults client opponent first) d
          (playerPostResult player1 player2 ++ [post .updateElo])
  | noPlayers (client opponent : ClientPtr) (first : Bool)
      : Expands self d (.postResults client opponent first) d [post .updateElo]
  | unlist (client opponent : ClientPtr) (inv : InvitationPtr)
      : Expands self d (.unlist client opponent inv) d
          (clientRemoveInvitation client inv ++ [run (.removed opponent inv)])
  | removed (opponent : ClientPtr) (inv : InvitationPtr)
      : Expands self d (.removed opponent inv) d
          (clientRemoveInvitation opponent inv ++ [post .inviteOp])
  | notLoggedIn (client : ClientPtr) (c : Peer) (hc : d.clients.get? client = some c)
      (hin : c.loggedIn ≠ .loggedIn) : Expands self d (.clientLogout client) d []
  | clientLogout (client : ClientPtr)
      : Expands self d (.clientLogout client) d [wait .logout, run (.logoutLoop client)]
  | logoutNode (client : ClientPtr) (op : Operation) (id : Int)
      : Expands self d (.logoutLoop client) d (operation op client id ++ [run (.logoutLoop client)])
  | logoutTail (client : ClientPtr) (player : PlayerPtr)
      : Expands self d (.logoutLoop client) d
          (withPlayer player ++ [run (.loggedOut client), post .logout])
  | loggedOut (client : ClientPtr)
      : Expands self d (.loggedOut client)
          (d.modifyClient client fun c => { c with loggedIn := .loggedOut }) []
  | notRegistered (client : ClientPtr)
      : Expands self d (.cregUnregister client) d [release .registry]
  | unregisters (client : ClientPtr)
      : Expands self d (.cregUnregister client) { d with registered := d.registered.erase client }
          (Locking.clientLogout client ++ Locking.clientUnref client true ++ [release .registry])

theorem expands_of_expand (h : expand self d point answer = some (d', next))
    : Expands self d point d' next := by
  unfold expand at h
  split at h
  -- most points have nothing to look up
  all_goals try (first | (cases h; constructor; done) | (cases h; exact .givesUp _ rfl))
  . next client player =>
    split at h
    . simp at h
    . next c hc =>
      split at h
      . cases h
        exact .refuses client player
      . next hok =>
        cases h
        exact .logsIn client player c hc (by simpa using (not_or.mp hok).1)
  . next client player =>
    split at h
    . simp at h
    . next c hc =>
      split at h
      . next hin =>
        cases h
        exact .relogin client player c hc hin
      . cases h
        exact .login client player
  . next client invitee =>
    split at h
    . cases h
      exact .known client invitee
    . simp at h
  . next client invitee role =>
    split at h
    . cases h
      exact .notInvited client invitee
    . split at h
      . cases h
        exact .notInvited client invitee
      . cases h
        exact .invited client invitee _ _
      . cases h
        exact .invited client invitee _ _
  . next client =>
    split at h
    . simp at h
    . next c hc =>
      cases h
      exact .clientRef client c hc
  . next client registry =>
    split at h
    . simp at h
    . next c hc =>
      cases h
      exact .clientUnref client registry c hc
  . next client =>
    split at h
    . simp at h
    . next c hc =>
      split at h
      . next hlast =>
        cases h
        exact .logsOutFirst client c hc hlast.1 hlast.2
      . cases h
        exact .clientFree client
  . next inv =>
    split at h
    . simp at h
    . next i hi =>
      split at h
      . cases h
        exact .invFreed inv i hi
      . cases h
        exact .invUnref inv
  . next client inv id =>
    split at h
    . simp at h
    . next c hc =>
      split at h
      . next hid =>
        cases h
        exact .getsId client inv id c hc hid
      . split at h
        . next hid =>
          cases h
          exact .growsIds client inv id c hc hid
        . simp at h
  . next client inv =>
    split at h
    . simp at h
    . next c hc =>
      cases h
      exact .getsNoId client inv c hc
  . next client inv =>
    split at h
    . simp at h
    . next c hc =>
      split at h
      . cases h
        exact .noNode client inv
      . next node hnode =>
        cases h
        exact .findNode client inv c node hc (List.mem_of_find?_eq_some hnode)
  . next client id =>
    split at h
    . simp at h
    . next c hc =>
      split at h
      . next hid =>
        cases h
        exact .outOfBounds client id c hc hid
      . cases h
        exact .purgeId client id
  . next op client id =>
    split at h
    . simp at h
    . cases h
      exact .getInvitation op client id _
  . next op client inv =>
    split at h
    . cases h
      exact .revokes _ client _ inv
    . cases h
      exact .declines _ client _ inv
    . cases h
      exact .accepts _ client _ inv
    . cases h
      exact .moves _ client _ inv
    . cases h
      exact .resigns _ client _ inv
    . simp at h
  . next client opponent inv =>
    split at h
    . simp at h
    . cases h
      exact .results client opponent inv _
  . next client opponent first =>
    split at h
    . split at h
      . cases h
        split
        . exact .postsResults client opponent _ _ _
        . exact .postsResults client opponent _ _ _
      . cases h
        exact .noPlayers client opponent first
    . simp at h
  . next client =>
    split at h
    . simp at h
    . next c hc =>
      split at h
      . next hin =>
        cases h
        exact .notLoggedIn client c hc hin
      . cases h
        exact .clientLogout client
  . next client =>
    split at h
    . simp at h
    . next player hplayer =>
      cases h
      exact .logoutTail client player
  . next client =>
    split at h
    . cases h
      exact .unregisters client
    . cases h
      exact .notRegistered client
  . simp at h

end Locking

end Jeux
