import Jeux.Game.Rules

/-!
Games after their end. Nothing in a game says that it has ended once and for all: a move looks at the
turn and the square, a resignation at the winner, and neither looks at `is_over`.
-/

namespace Jeux

inductive GameCall where
  | apply (move : GameMove)
  | resign (role : GameRole)
  | isOver
  deriving DecidableEq

def GameCall.exec (g : Game) : GameCall → Int × Game
  | .apply move => gameApplyMove g move
  | .resign role => gameResign g role
  | .isOver => (if (gameIsOver g).1 then 1 else 0, (gameIsOver g).2)

structure Match where
  game : Game
  resigned : Bool

def newMatch : Match where
  game := gameCreate
  resigned := false

namespace Match

def call (m : Match) (c : GameCall) : Match where
  game := (c.exec m.game).2
  resigned :=
    match c with
    | .resign role => m.resigned || (gameResign m.game role).1 = 0
    | _ => m.resigned

def Terminated (m : Match) : Prop :=
  boardWinner? m.game.rows ≠ none ∨ boardFull m.game.rows = true ∨ m.resigned = true

instance (m : Match) : Decidable m.Terminated := inferInstanceAs (Decidable (_ ∨ _ ∨ _))

end Match

/--
The call has no effect on an ended game: moves and resignations are refused, the game is over, and
nothing about it changes.
-/
structure GameCall.Idle (g : Game) (c : GameCall) : Prop where
  result : (c.exec g).1 = if c = .isOver then 1 else -1
  rows : (c.exec g).2.rows = g.rows
  isOver : (c.exec g).2.isOver = g.isOver
  winner : (c.exec g).2.winner = g.winner

def GameCall.Refused (g : Game) : GameCall → Prop
  | .apply move => g.currentPlayer ≠ move.role ∨ getElem g.rows move.move move.lt ≠ .nullRole
  | .resign _ => g.winner ≠ .nullRole
  | .isOver => True

instance (g : Game) (c : GameCall) : Decidable (c.Refused g) :=
  match c with
  | .apply _ => inferInstanceAs (Decidable (_ ∨ _))
  | .resign _ => inferInstanceAs (Decidable (g.winner ≠ .nullRole))
  | .isOver => .isTrue trivial

/--
Along some calls, every one that comes after the end of the game is idle.
-/
def Match.StaysOver (m : Match) : List GameCall → Prop
  | [] => True
  | c :: rest => (m.Terminated → c.Idle m.game) ∧ (m.call c).StaysOver rest

/--
Along some calls, every one that comes after the end of the game is turned down.
-/
def Match.AllRefused (m : Match) : List GameCall → Prop
  | [] => True
  | c :: rest => (m.Terminated → c.Refused m.game) ∧ (m.call c).AllRefused rest

variable {m : Match} {c : GameCall} {g : Game} {role : GameRole}

theorem gameResign_refused (h : g.winner ≠ .nullRole) : gameResign g role = (-1, g) := by
  rw [gameResign, if_pos h]

theorem gameResign_eq_zero : (gameResign g role).1 = 0 ↔ g.winner = .nullRole := by
  unfold gameResign
  split
  . next h => simp [h]
  . next h => simp [not_not.mp h]

structure Match.Fits (m : Match) : Prop where
  live : ¬ m.Terminated → m.game.isOver = false ∧ m.game.winner = .nullRole
  ended : m.Terminated → gameIsOver m.game = (true, m.game)

theorem newMatch_fits : newMatch.Fits where
  live := fun _ => ⟨rfl, rfl⟩
  ended := by
    intro h
    have hfull : ¬ boardFull newMatch.game.rows = true := by
      rw [boardFull_iff]
      decide
    rcases h with h | h | h
    . exact absurd h (by decide)
    . exact absurd h hfull
    . simp [newMatch] at h

theorem GameCall.idle_iff_refused (hended : gameIsOver g = (true, g)) : c.Idle g ↔ c.Refused g := by
  cases c with
  | apply move =>
    constructor
    . intro hidle
      refine Classical.byContradiction fun hnot => ?_
      have haccepts : g.Accepts move := by
        simpa [Refused, Game.Accepts] using hnot
      have hresult := hidle.result
      simp [exec, gameApplyMove_accepted haccepts] at hresult
    . intro hrefused
      have hno : ¬ g.Accepts move := by
        rintro ⟨hturn, hempty⟩
        exact hrefused.elim (fun h => h hturn) (fun h => h hempty)
      constructor
      all_goals simp [exec, gameApplyMove_refused hno]
  | resign role =>
    constructor
    . intro hidle hwinner
      have hresult := hidle.result
      rw [exec, gameResign_eq_zero.mpr hwinner] at hresult
      simp at hresult
    . intro hrefused
      constructor
      all_goals simp [exec, gameResign_refused hrefused]
  | isOver =>
    refine iff_of_true ?_ trivial
    constructor
    all_goals simp [exec, hended]

theorem Match.Fits.call_of_terminated (h : m.Fits) (hend : m.Terminated) (hrefused : c.Refused m.game)
    : m.call c = m := by
  have hended := h.ended hend
  cases c with
  | apply move =>
    have hno : ¬ m.game.Accepts move := by
      rintro ⟨hturn, hempty⟩
      exact hrefused.elim (fun h => h hturn) (fun h => h hempty)
    simp [call, GameCall.exec, gameApplyMove_refused hno]
  | resign role => simp [call, GameCall.exec, gameResign_refused hrefused]
  | isOver => simp [call, GameCall.exec, hended]

theorem Match.Fits.call_apply (h : m.Fits) (hlive : ¬ m.Terminated) (move : GameMove)
    : (m.call (.apply move)).Fits := by
  by_cases haccepts : m.game.Accepts move
  . obtain ⟨hover, hwinner⟩ := h.live hlive
    have hresigned : m.resigned ≠ true := fun heq => hlive (.inr (.inr heq))
    have hgame : (m.call (.apply move)).game = (gameIsOver (m.game.played move)).2 := by
      simp [call, GameCall.exec, gameApplyMove_accepted haccepts]
    have hkeep : (m.call (.apply move)).resigned = m.resigned := rfl
    cases hboard : boardWinner? (m.game.played move).rows with
    | some winner =>
      rw [gameIsOver_some hboard] at hgame
      constructor
      . intro hnot
        refine absurd (.inl ?_) hnot
        rw [hgame, hboard]
        simp
      . intro _
        rw [hgame]
        exact gameIsOver_some hboard
    | none =>
      cases hfull : boardFull (m.game.played move).rows with
      | true =>
        rw [gameIsOver_full hboard hfull] at hgame
        constructor
        . intro hnot
          refine absurd (.inr (.inl ?_)) hnot
          rw [hgame, hfull]
        . intro _
          rw [hgame]
          exact gameIsOver_full hboard hfull
      | false =>
        rw [gameIsOver_none hboard hfull] at hgame
        constructor
        . intro _
          rw [hgame]
          exact ⟨hover, hwinner⟩
        . rintro (hend | hend | hend)
          . rw [hgame] at hend
            exact absurd hboard hend
          . rw [hgame, hfull] at hend
            simp at hend
          . exact absurd (hkeep ▸ hend) hresigned
  . have hsame : m.call (.apply move) = m := by
      simp [call, GameCall.exec, gameApplyMove_refused haccepts]
    rw [hsame]
    exact h

theorem Match.Fits.call_resign (h : m.Fits) (hlive : ¬ m.Terminated) (role : GameRole)
    : (m.call (.resign role)).Fits := by
  obtain ⟨hover, hwinner⟩ := h.live hlive
  have hboard : boardWinner? m.game.rows = none := by
    refine Classical.byContradiction fun hne => ?_
    exact hlive (.inl hne)
  have hfull : boardFull m.game.rows = false := by
    rw [Bool.eq_false_iff]
    exact fun hfull => hlive (.inr (.inl hfull))
  have hresign : (gameResign m.game role).1 = 0 := gameResign_eq_zero.mpr hwinner
  have hresigned : (m.call (.resign role)).resigned = true := by
    simp [call, hresign]
  have hgame : (m.call (.resign role)).game.rows = m.game.rows
      ∧ (m.call (.resign role)).game.isOver = true := by
    simp [call, GameCall.exec, gameResign, hwinner]
  constructor
  . intro hnot
    exact absurd (.inr (.inr hresigned)) hnot
  . intro _
    rw [gameIsOver_none (by rw [hgame.1, hboard]) (by rw [hgame.1, hfull]), hgame.2]

theorem Match.Fits.call (h : m.Fits) (hrefused : m.Terminated → c.Refused m.game)
    : (m.call c).Fits := by
  by_cases hend : m.Terminated
  . rw [h.call_of_terminated hend (hrefused hend)]
    exact h
  . cases c with
    | apply move => exact h.call_apply hend move
    | resign role => exact h.call_resign hend role
    | isOver =>
      have hboard : boardWinner? m.game.rows = none := by
        refine Classical.byContradiction fun hne => ?_
        exact hend (.inl hne)
      have hfull : boardFull m.game.rows = false := by
        rw [Bool.eq_false_iff]
        exact fun hfull => hend (.inr (.inl hfull))
      have hsame : m.call .isOver = m := by
        simp [Match.call, GameCall.exec, gameIsOver_none hboard hfull]
      rw [hsame]
      exact h

theorem Match.Fits.staysOver_iff (h : m.Fits) (calls : List GameCall)
    : m.StaysOver calls ↔ m.AllRefused calls := by
  induction calls generalizing m with
  | nil => exact Iff.rfl
  | cons c rest ih =>
    have hhead : (m.Terminated → c.Idle m.game) ↔ (m.Terminated → c.Refused m.game) :=
      forall_congr' fun hend => GameCall.idle_iff_refused (h.ended hend)
    unfold Match.StaysOver Match.AllRefused
    constructor
    . rintro ⟨hidle, hrest⟩
      exact ⟨hhead.mp hidle, (ih (h.call (hhead.mp hidle))).mp hrest⟩
    . rintro ⟨hrefused, hrest⟩
      exact ⟨hhead.mpr hrefused, (ih (h.call hrefused)).mpr hrest⟩

/--
Ended games stay as they are exactly along the calls that, after the end, contain no move of the role
whose turn it would be onto an empty square, and no resignation while there is no winner.
-/
theorem staysOver_iff_allRefused (calls : List GameCall)
    : newMatch.StaysOver calls ↔ newMatch.AllRefused calls :=
  newMatch_fits.staysOver_iff calls

/--
`X` completes the top row, and `O` moves on.
-/
theorem not_staysOver : ¬ ∀ calls, newMatch.StaysOver calls := by
  intro h
  have hstays := h [.apply ⟨0, .firstPlayerRole⟩, .apply ⟨3, .secondPlayerRole⟩,
    .apply ⟨1, .firstPlayerRole⟩, .apply ⟨4, .secondPlayerRole⟩, .apply ⟨2, .firstPlayerRole⟩,
    .apply ⟨5, .secondPlayerRole⟩]
  rw [newMatch_fits.staysOver_iff] at hstays
  obtain ⟨-, -, -, -, -, hlast, -⟩ := hstays
  exact absurd (hlast (.inl (by decide +kernel))) (by decide +kernel)

end Jeux
