import Jeux.Impl.Client

/-!
invitation.c, together with the functions of game.c that create and release games.
-/

namespace Jeux

open ServerM

def newGame : ServerM (Option GamePtr) := do
  if ← allocate then
    let game := (← getStore).games.next
    modifyStore fun s => { s with games := s.games.push gameCreate }
    return some game
  else
    return none

def gameUnref (game : GamePtr) : ServerM Unit := do
  let g ← derefGame game
  modifyStore (·.modifyGame game Game.dropRef)
  if g.refCount - 1 = 0 then
    modifyStore fun s => { s with games := s.games.free game }

def newInvitation (source target : ClientPtr) (sourceRole targetRole : GameRole) : Invitation where
  state := .openState
  refCount := 1
  source := source
  target := target
  game := none
  sourceRole := sourceRole
  targetRole := targetRole

def invCreate (source target : ClientPtr) (sourceRole targetRole : GameRole)
    : ServerM (Option InvitationPtr) := do
  if ← allocate then
    let inv := (← getStore).invitations.next
    modifyStore fun s =>
      { s with invitations :=
          s.invitations.push (newInvitation source target sourceRole targetRole) }
    clientRef source
    clientRef target
    return some inv
  else
    return none

def invRef (inv : InvitationPtr) : ServerM Unit := do
  let _ ← derefInvitation inv
  modifyStore (·.modifyInvitation inv Invitation.addRef)

def invUnref (inv : InvitationPtr) : ServerM Unit := do
  let i ← derefInvitation inv
  modifyStore (·.modifyInvitation inv Invitation.dropRef)
  if i.refCount - 1 = 0 then
    match i.game with
    | some game => gameUnref game
    | none => pure ()
    clientUnref i.source
    clientUnref i.target
    modifyStore fun s => { s with invitations := s.invitations.free inv }

def invGetSource (inv : Option InvitationPtr) : ServerM (Option ClientPtr) :=
  match inv with
  | none => return none
  | some inv => return some (← derefInvitation inv).source

def invGetTarget (inv : Option InvitationPtr) : ServerM (Option ClientPtr) :=
  match inv with
  | none => return none
  | some inv => return some (← derefInvitation inv).target

def invGetSourceRole (inv : InvitationPtr) : ServerM GameRole := do
  return (← derefInvitation inv).sourceRole

def invGetTargetRole (inv : InvitationPtr) : ServerM GameRole := do
  return (← derefInvitation inv).targetRole

def invGetGame (inv : Option InvitationPtr) : ServerM (Option GamePtr) :=
  match inv with
  | none => return none
  | some inv => return (← derefInvitation inv).game

/--
`inv_accept`. The state is changed before it is known whether there is room for the game.
-/
def invAccept (inv : Option InvitationPtr) : ServerM Int :=
  match inv with
  | none => return -1
  | some inv => do
    if (← derefInvitation inv).state ≠ .openState then
      return -1
    else
      modifyStore (·.modifyInvitation inv fun i => { i with state := .acceptedState })
      let game ← newGame
      modifyStore (·.modifyInvitation inv fun i => { i with game := game })
      match game with
      | none => return -1
      | some _ => return 0

def invClose (inv : Option InvitationPtr) (role : GameRole) : ServerM Int :=
  match inv with
  | none => return -1
  | some inv => do
    let i ← derefInvitation inv
    match i.state with
    | .closedState => return -1
    | .acceptedState =>
      match i.game with
      | none => return -1
      | some game =>
        if role = .nullRole then
          return -1
        else
          let g ← derefGame game
          modifyStore (·.modifyGame game fun _ => (gameResign g role).2)
          modifyStore (·.modifyInvitation inv fun i => { i with state := .closedState })
          return 0
    | .openState =>
      if role ≠ .nullRole then
        return -1
      else if i.game ≠ none then
        return -1
      else
        modifyStore (·.modifyInvitation inv fun i => { i with state := .closedState })
        return 0

end Jeux
