import Jeux.Impl.Basic

/-!
The tic-tac-toe engine of game.c. A `Game` is plain data here: the operations below take the game
the C function is handed a pointer to and return it as the function leaves it.
-/

namespace Jeux

structure Game where
  rows : Vector GameRole 9
  refCount : Int
  isOver : Bool
  currentPlayer : GameRole
  winner : GameRole
  deriving DecidableEq, Repr

structure GameMove where
  move : Fin 9
  role : GameRole
  deriving DecidableEq, Repr

theorem GameMove.lt (move : GameMove) : move.move.val < 9 := move.move.isLt

def gameCreate : Game where
  rows := Vector.replicate 9 .nullRole
  refCount := 1
  isOver := false
  currentPlayer := .firstPlayerRole
  winner := .nullRole

def lines : List (Fin 9 × Fin 9 × Fin 9) :=
  [(0, 1, 2), (3, 4, 5), (6, 7, 8), (0, 3, 6), (1, 4, 7), (2, 5, 8), (0, 4, 8), (2, 4, 6)]

def lineWinner? (board : Vector GameRole 9) (line : Fin 9 × Fin 9 × Fin 9) : Option GameRole :=
  if board[line.1] = board[line.2.1] ∧ board[line.2.1] = board[line.2.2]
      ∧ board[line.1] ≠ .nullRole then
    if board[line.1] = .firstPlayerRole then
      some .firstPlayerRole
    else
      some .secondPlayerRole
  else
    none

def boardWinner? (board : Vector GameRole 9) : Option GameRole :=
  lines.findSome? (lineWinner? board)

def boardFull (board : Vector GameRole 9) : Bool :=
  board.all (· ≠ .nullRole)

/--
`game_is_over`, which records the winner as it goes. A game that was over before, as a resigned one
is, stays over.
-/
def gameIsOver (game : Game) : Bool × Game :=
  match boardWinner? game.rows with
  | some winner => (true, { game with winner := winner, isOver := true })
  | none =>
    if boardFull game.rows then
      (true, { game with winner := .nullRole, isOver := true })
    else
      (game.isOver, game)

def gameApplyMove (game : Game) (move : GameMove) : Int × Game :=
  if game.currentPlayer ≠ move.role then
    (-1, game)
  else if game.rows[move.move] ≠ .nullRole then
    (-1, game)
  else
    let next := if game.currentPlayer = .firstPlayerRole then .secondPlayerRole else .firstPlayerRole
    let game :=
      { game with rows := game.rows.set move.move.val move.role, currentPlayer := next }
    (0, (gameIsOver game).2)

def gameResign (game : Game) (role : GameRole) : Int × Game :=
  if game.winner ≠ .nullRole then
    (-1, game)
  else
    let winner := if role = .firstPlayerRole then .secondPlayerRole else .firstPlayerRole
    (0, { game with currentPlayer := .nullRole, isOver := true, winner := winner })

def gameGetWinner (game : Game) : GameRole := game.winner

/-! ## Text -/

def ascii (c : Char) : Byte := c.val.toUInt8

def isSpace (b : Byte) : Bool := b = 32 || (9 ≤ b && b ≤ 13)

def isDigit (b : Byte) : Bool := 48 ≤ b && b ≤ 57

def digitsValue (acc : Nat) : CString → Nat
  | [] => acc
  | b :: str => if isDigit b then digitsValue (10 * acc + (b.toNat - 48)) str else acc

/--
`atoi`: blanks, an optional sign, digits. What follows the digits is ignored.
-/
def atoi (str : CString) : Int :=
  match str.dropWhile isSpace with
  | [] => 0
  | b :: rest =>
    if b = ascii '-' then -(digitsValue 0 rest)
    else if b = ascii '+' then digitsValue 0 rest
    else digitsValue 0 (b :: rest)

def moveTo? (role : GameRole) (str : CString) : Option GameMove :=
  let square := atoi str - 1
  if h : square < 0 ∨ 8 < square then
    none
  else
    some { move := ⟨square.toNat, by omega⟩, role := role }

def gameParseMove (game : Game) (role : GameRole) (str : CString) : Option GameMove :=
  match str with
  | [_] => moveTo? role str
  | [_, b1, b2, b3] =>
    if b1 ≠ ascii '<' ∨ b2 ≠ ascii '-' then
      none
    else if b3 = ascii 'X' ∧ game.currentPlayer ≠ .firstPlayerRole then
      none
    else if b3 = ascii 'O' ∧ game.currentPlayer ≠ .secondPlayerRole then
      none
    else
      moveTo? role str
  | _ => none

def gameUnparseMove (move : GameMove) : CString := [UInt8.ofNat (move.move.val + 1) + ascii '0']

def squareMark : GameRole → Byte
  | .nullRole => ascii ' '
  | .firstPlayerRole => ascii 'X'
  | .secondPlayerRole => ascii 'O'

def boardRow (board : Vector GameRole 9) (i j k : Fin 9) : CString :=
  [squareMark board[i], ascii '|', squareMark board[j], ascii '|', squareMark board[k], ascii '\n']

def boardFloor : CString := List.replicate 5 (ascii '-') ++ [ascii '\n']

def gameUnparseState (game : Game) : CString :=
  boardRow game.rows 0 1 2 ++ boardFloor ++ boardRow game.rows 3 4 5 ++ boardFloor
    ++ boardRow game.rows 6 7 8
    ++ [if game.currentPlayer = .firstPlayerRole then ascii 'X' else ascii 'O']
    ++ [' ', 't', 'o', ' ', 'm', 'o', 'v', 'e', '\n'].map ascii

end Jeux
