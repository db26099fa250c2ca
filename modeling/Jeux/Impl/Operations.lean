import Jeux.Impl.Invitation

/-!
The part of client.c that makes, answers and plays invitations, and `client_logout`.
-/

namespace Jeux

open ServerM

def clientAddInvitation (client : ClientPtr) (inv : InvitationPtr) : ServerM Int := do
  let id ← getAvailableId client
  invRef inv
  modifyStore (·.modifyClient client fun c =>
    { c with inviteHead := { id := id, invitation := inv } :: c.inviteHead })
  return id

def clientRemoveInvitation (client : ClientPtr) (inv : InvitationPtr) : ServerM Int := do
  let c ← derefClient client
  match c.nodeFor? inv with
  | none => return -1
  | some node =>
    modifyStore (·.modifyClient client (·.eraseNode inv))
    invUnref inv
    purgeId client node.id
    return node.id

def clientMakeInvitation (source target : ClientPtr) (sourceRole targetRole : GameRole)
    : ServerM Int := do
  match ← invCreate source target sourceRole targetRole with
  | none => return -1
  | some invite =>
    let sourceId ← clientAddInvitation source invite
    if sourceId = -1 then
      invUnref invite
      return -1
    else
      let targetId ← clientAddInvitation target invite
      if targetId = -1 then
        return -1
      else
        let playername ← playerGetName (← nonNull (← derefClient source).player)
        let pkt ← newHeader .invited targetId targetRole playername.length
        let _ ← clientSendPacket target pkt (some playername)
        invUnref invite
        return sourceId

def clientRevokeInvitation (client : ClientPtr) (id : Int) : ServerM Int := do
  let inv ← clientGetInvitation client id
  if (← invClose inv .nullRole) = -1 then
    return -1
  else
    let target ← nonNull (← invGetTarget inv)
    let inv ← nonNull inv
    let targetId ← clientGetInvitationId target inv
    let pkt ← newHeader .revoked targetId .nullRole 0
    if (← clientSendPacket target pkt none) = -1 then
      return -1
    else if (← clientRemoveInvitation client inv) = -1 then
      return -1
    else if (← clientRemoveInvitation target inv) = -1 then
      return -1
    else
      return 0

def clientDeclineInvitation (client : ClientPtr) (id : Int) : ServerM Int := do
  let inv ← clientGetInvitation client id
  if (← invClose inv .nullRole) = -1 then
    return -1
  else
    let source ← nonNull (← invGetSource inv)
    let inv ← nonNull inv
    let sourceId ← clientGetInvitationId source inv
    let pkt ← newHeader .declined sourceId .nullRole 0
    let _ ← clientSendPacket source pkt none
    let _ ← clientRemoveInvitation client inv
    let _ ← clientRemoveInvitation source inv
    return 0

def clientAcceptInvitation (client : ClientPtr) (id : Int) : ServerM (Int × Option CString) := do
  let inv ← clientGetInvitation client id
  if (← invGetTarget inv) ≠ some client then
    return (-1, none)
  else if (← invAccept inv) = -1 then
    return (-1, none)
  else
    let game ← nonNull (← invGetGame inv)
    let source ← nonNull (← invGetSource inv)
    let inv ← nonNull inv
    let sourceId ← clientGetInvitationId source inv
    let role ← invGetTargetRole inv
    let gameState := gameUnparseState (← derefGame game)
    let (strp, sourceGameState) :=
      if role ≠ .firstPlayerRole then (none, some gameState) else (some gameState, none)
    let pkt ← newHeader .accepted sourceId .nullRole (sourceGameState.getD []).length
    if (← clientSendPacket source pkt sourceGameState) = -1 then
      return (-1, strp)
    else
      return (0, strp)

/--
The role a client plays in an invitation, with its opponent and the opponent's role. This is the
case distinction that `client_resign_game` and `client_make_move` begin with.
-/
def participant (client : ClientPtr) (inv : Option InvitationPtr)
    : ServerM (Option (GameRole × ClientPtr × GameRole)) := do
  if (← invGetSource inv) = some client then
    let inv ← nonNull inv
    let role ← invGetSourceRole inv
    let opponent ← nonNull (← invGetTarget inv)
    let opponentRole ← invGetTargetRole inv
    return some (role, opponent, opponentRole)
  else if (← invGetTarget inv) = some client then
    let inv ← nonNull inv
    let role ← invGetTargetRole inv
    let opponent ← nonNull (← invGetSource inv)
    let opponentRole ← invGetSourceRole inv
    return some (role, opponent, opponentRole)
  else
    return none

def clientResignGame (client : ClientPtr) (id : Int) : ServerM Int := do
  let inv ← clientGetInvitation client id
  match ← participant client inv with
  | none => return -1
  | some (role, opponent, opponentRole) =>
    if (← invClose inv role) = -1 then
      return -1
    else
      let inv ← nonNull inv
      let opponentId ← clientGetInvitationId opponent inv
      let pkt ← newHeader .resigned opponentId .nullRole 0
      if (← clientSendPacket opponent pkt none) ≠ 0 then
        return -1
      else if (← postPlayerResults client opponent role opponentRole) = -1 then
        return -1
      else if (← clientRemoveInvitation client inv) = -1 then
        return -1
      else if (← clientRemoveInvitation opponent inv) = -1 then
        return -1
      else
        return 0

/--
The end of `client_make_move`, once the move has been made and the opponent has been told: when the
game is over, tell both players, post the result and drop the invitation.
-/
def finishMove (client opponent : ClientPtr) (role : GameRole) (id opponentId : Int)
    (inv : InvitationPtr) (game : GamePtr) : ServerM Int := do
  let (isOver, g) := gameIsOver (← derefGame game)
  modifyStore (·.modifyGame game fun _ => g)
  if !isOver then
    return 0
  else
    let winner := gameGetWinner (← derefGame game)
    let pkt ← newHeader .ended opponentId winner 0
    if (← clientSendPacket opponent pkt none) = -1 then
      return -1
    else if (← clientSendPacket client { pkt with id := UInt8.ofInt id } none) = -1 then
      return -1
    else
      let _ ← postPlayerResults client opponent role winner
      if (← clientRemoveInvitation client inv) = -1 then
        return -1
      else if (← clientRemoveInvitation opponent inv) = -1 then
        return -1
      else
        return 0

def clientMakeMove (client : ClientPtr) (id : Int) (move : CString) : ServerM Int := do
  let inv ← clientGetInvitation client id
  match ← invGetGame inv with
  | none => return -1
  | some game =>
    match ← participant client inv with
    | none => return -1
    | some (role, opponent, _) =>
      -- the room for the move itself
      if ← allocate then
        match gameParseMove (← derefGame game) role move with
        | none => return -1
        | some gameMove =>
          let (ret, g) := gameApplyMove (← derefGame game) gameMove
          modifyStore (·.modifyGame game fun _ => g)
          if ret = -1 then
            return -1
          else
            let state := gameUnparseState (← derefGame game)
            let inv ← nonNull inv
            let opponentId ← clientGetInvitationId opponent inv
            let pkt ← newHeader .moved opponentId .nullRole state.length
            if (← clientSendPacket opponent pkt (some state)) = -1 then
              return -1
            else
              finishMove client opponent role id opponentId inv game
      else
        return -1

/--
The body of the loop of `client_logout`: resign a game, revoke an invitation made, decline one
received.
-/
def logoutNode (client : ClientPtr) (node : InvitationNode) : ServerM Unit := do
  match ← invGetGame (some node.invitation) with
  | some _ =>
    let _ ← clientResignGame client node.id
  | none =>
    if (← invGetSource (some node.invitation)) = some client then
      let _ ← clientRevokeInvitation client node.id
    else
      let _ ← clientDeclineInvitation client node.id

/--
The loop of `client_logout`. An operation unlinks at most the node it is called for, so the links
saved before each call lead through the list as it was at the start.
-/
def logoutLoop (client : ClientPtr) : List InvitationNode → ServerM Unit
  | [] => return ()
  | node :: rest => do
    logoutNode client node
    logoutLoop client rest

def clientLogout (client : ClientPtr) : ServerM Int := do
  let c ← derefClient client
  if c.loggedIn ≠ .loggedIn then
    return -1
  else
    logoutLoop client c.inviteHead
    logoutTail client
    return 0

end Jeux
