import Mathlib.Data.Rat.Floor
import Jeux.Impl.State

/-!
player.c and player_registry.c.
-/

namespace Jeux

open ServerM

section Rating

variable {K : Type} [Field K] [LinearOrder K] [FloorRing K]

def truncate (x : K) : Int := if 0 ≤ x then ⌊x⌋ else ⌈x⌉

def score1 : GameRole → K
  | .nullRole => 1 / 2
  | .firstPlayerRole => 1
  | .secondPlayerRole => 0

def score2 : GameRole → K
  | .nullRole => 1 / 2
  | .firstPlayerRole => 0
  | .secondPlayerRole => 1

/--
The new rating that player.h documents for a player: `R + 32*(S-E)`.
-/
def documentedRating (rating : Int) (score expected : K) : K := rating + 32 * (score - expected)

/--
The two ratings `player_post_result` stores, given the old ones. The second is what the first
leaves of their sum.
-/
def postedRatings (expected : Int → K) (rating1 rating2 : Int) (result : GameRole) : Int × Int :=
  let rp1 : K := rating1 + 32 * (score1 result - expected (rating2 - rating1))
  (truncate rp1, truncate ((rating1 + rating2 : Int) - rp1))

end Rating

def playerInitialRating : Int := 1500

def playerCreate (name : CString) : ServerM (Option PlayerPtr) := do
  if ← allocate then
    let player := (← getStore).players.next
    modifyStore fun s =>
      { s with players := s.players.push { name, refCount := 1, rating := playerInitialRating } }
    return some player
  else
    return none

def playerRef (player : PlayerPtr) : ServerM Unit := do
  let _ ← derefPlayer player
  modifyStore (·.modifyPlayer player Player.addRef)

def playerUnref (player : PlayerPtr) : ServerM Unit := do
  let p ← derefPlayer player
  modifyStore (·.modifyPlayer player Player.dropRef)
  if p.refCount - 1 = 0 then
    modifyStore fun s => { s with players := s.players.free player }

def playerGetName (player : PlayerPtr) : ServerM CString := do
  return (← derefPlayer player).name

def playerGetRating (player : PlayerPtr) : ServerM Int := do
  return (← derefPlayer player).rating

def playerPostResult (player1 player2 : PlayerPtr) (result : GameRole) : ServerM Unit := do
  modifyTrace fun t => { t with posted := t.posted ++ [{ player1, player2, result }] }
  if player1 = player2 then
    return ()
  let p1 ← derefPlayer player1
  let p2 ← derefPlayer player2
  let ratings := postedRatings (← read).expected p1.rating p2.rating result
  modifyStore (·.modifyPlayer player1 fun p => { p with rating := ratings.1 })
  modifyStore (·.modifyPlayer player2 fun p => { p with rating := ratings.2 })

def pregFind (name : CString) : List PlayerPtr → ServerM (Option PlayerPtr)
  | [] => return none
  | current :: rest => do
    if (← playerGetName current) = name then
      return some current
    else
      pregFind name rest

def pregRegister (name : CString) : ServerM (Option PlayerPtr) := do
  match ← pregFind name (← getStore).playerRegistry.players with
  | some current =>
    playerRef current
    return some current
  | none =>
    match ← playerCreate name with
    | none => return none
    | some player =>
      -- the node; when there is no room for it the player just created is lost
      if ← allocate then
        modifyStore fun s =>
          { s with playerRegistry :=
              { players := s.playerRegistry.players ++ [player]
                length := s.playerRegistry.length + 1 } }
        playerRef player
        return some player
      else
        return none

def pregFiniLoop : List PlayerPtr → ServerM Unit
  | [] => return ()
  | current :: rest => do
    playerUnref current
    modifyStore fun s =>
      { s with playerRegistry := { players := rest, length := s.playerRegistry.length - 1 } }
    pregFiniLoop rest

def pregFini : ServerM Unit := do
  pregFiniLoop (← getStore).playerRegistry.players

end Jeux
