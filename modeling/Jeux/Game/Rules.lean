import Mathlib.Data.List.Basic
import Mathlib.Data.Vector.Basic
import Jeux.Util.Machine
import Jeux.Impl.Game

/-!
What a game of tic-tac-toe comes to: whose turn it is, when it is over and who has won it.
-/

namespace Jeux

/-! ## Lines -/

def OwnsLine (board : Vector GameRole 9) (role : GameRole) (line : Fin 9 × Fin 9 × Fin 9) : Prop :=
  board.get line.1 = role ∧ board.get line.2.1 = role ∧ board.get line.2.2 = role

instance (board : Vector GameRole 9) (role : GameRole) (line : Fin 9 × Fin 9 × Fin 9)
    : Decidable (OwnsLine board role line) := inferInstanceAs (Decidable (_ ∧ _ ∧ _))

def Owns (board : Vector GameRole 9) (role : GameRole) : Prop :=
  role ≠ .nullRole ∧ ∃ line ∈ lines, OwnsLine board role line

instance (board : Vector GameRole 9) (role : GameRole) : Decidable (Owns board role) :=
  inferInstanceAs (Decidable (_ ∧ _))

def marks (board : Vector GameRole 9) (role : GameRole) : Nat := board.toList.count role

variable {board : Vector GameRole 9} {role : GameRole} {line : Fin 9 × Fin 9 × Fin 9} {g : Game}
  {move : GameMove}

theorem lineWinner?_eq_some
    : lineWinner? board line = some role ↔ role ≠ .nullRole ∧ OwnsLine board role line := by
  unfold lineWinner? OwnsLine
  constructor
  . intro h
    split at h
    . next hline =>
      obtain ⟨h1, h2, hne⟩ := hline
      have hrole : board[line.1] = role := by
        split at h
        . next hfirst => exact hfirst.trans (Option.some.inj h)
        . next hfirst =>
          obtain rfl := Option.some.inj h
          cases hsquare : board[line.1] with
          | nullRole => exact absurd hsquare hne
          | firstPlayerRole => exact absurd hsquare hfirst
          | secondPlayerRole => rfl
      have hsecond := h1.symm.trans hrole
      exact ⟨hrole ▸ hne, hrole, hsecond, h2.symm.trans hsecond⟩
    . simp at h
  . rintro ⟨hne, h1, h2, h3⟩
    have hfirst : board[line.1] = role := h1
    have hsecond : board[line.2.1] = role := h2
    have hthird : board[line.2.2] = role := h3
    rw [hfirst, hsecond, hthird, if_pos ⟨rfl, rfl, hne⟩]
    cases role with
    | nullRole => exact absurd rfl hne
    | firstPlayerRole => rfl
    | secondPlayerRole => rfl

theorem boardWinner?_eq_none : boardWinner? board = none ↔ ∀ role, ¬ Owns board role := by
  unfold boardWinner?
  rw [List.findSome?_eq_none_iff]
  constructor
  . rintro h role ⟨hne, line, hline, howns⟩
    have hsome := lineWinner?_eq_some.mpr ⟨hne, howns⟩
    rw [h line hline] at hsome
    simp at hsome
  . intro h line hline
    rw [Option.eq_none_iff_forall_ne_some]
    intro role hsome
    obtain ⟨hne, howns⟩ := lineWinner?_eq_some.mp hsome
    exact h role ⟨hne, line, hline, howns⟩

theorem owns_of_boardWinner? (h : boardWinner? board = some role) : Owns board role := by
  unfold boardWinner? at h
  obtain ⟨line, hline, hsome⟩ := List.exists_of_findSome?_eq_some h
  obtain ⟨hne, howns⟩ := lineWinner?_eq_some.mp hsome
  exact ⟨hne, line, hline, howns⟩

theorem owns_set {m : Fin 9} {mark : GameRole} (h : Owns (board.set m.val mark m.isLt) role)
    (hnone : ∀ role, ¬ Owns board role) : role = mark := by
  obtain ⟨hne, line, hline, howns⟩ := h
  refine Classical.byContradiction fun hother => ?_
  have hkeep : ∀ k : Fin 9, (board.set m.val mark)[k] = role → board[k] = role := by
    intro k hk
    simp only [Fin.getElem_fin, Vector.getElem_set] at hk ⊢
    split at hk
    . exact absurd hk.symm hother
    . exact hk
  exact hnone role ⟨hne, line, hline, hkeep _ howns.1, hkeep _ howns.2.1, hkeep _ howns.2.2⟩

theorem boardFull_iff : boardFull board = true ↔ marks board .nullRole = 0 := by
  unfold boardFull marks
  rw [List.count_eq_zero, ← Vector.all_toList, List.all_eq_true]
  simp only [decide_eq_true_eq]
  constructor
  . intro h hmem
    exact h _ hmem rfl
  . intro h role hmem heq
    exact h (heq ▸ hmem)

theorem marks_set {m : Fin 9} {mark : GameRole} (hempty : getElem board m m.isLt = .nullRole)
    (hrole : role ≠ .nullRole)
    : marks (board.set m.val mark m.isLt) role = marks board role + if mark = role then 1 else 0 := by
  have hlen : m.val < board.toList.length := by simp
  have hsquare : board.toList[m.val] = .nullRole := by simpa using hempty
  unfold marks
  rw [Vector.toList_set, List.count_set hlen, hsquare]
  simp [Ne.symm hrole]

/-! ## Moves -/

@[simps]
def Game.played (g : Game) (move : GameMove) : Game :=
  { g with
    rows := g.rows.set move.move.val move.role move.lt
    currentPlayer :=
      if g.currentPlayer = .firstPlayerRole then .secondPlayerRole else .firstPlayerRole }

def Game.Accepts (g : Game) (move : GameMove) : Prop :=
  g.currentPlayer = move.role ∧ getElem g.rows move.move move.lt = .nullRole

instance (g : Game) (move : GameMove) : Decidable (g.Accepts move) :=
  inferInstanceAs (Decidable (_ ∧ _))

theorem gameApplyMove_refused (h : ¬ g.Accepts move) : gameApplyMove g move = (-1, g) := by
  unfold gameApplyMove
  split
  . rfl
  . next hturn =>
    split
    . rfl
    . next hempty => exact absurd ⟨not_not.mp hturn, not_not.mp hempty⟩ h

theorem gameApplyMove_accepted (h : g.Accepts move)
    : gameApplyMove g move = (0, (gameIsOver (g.played move)).2) := by
  unfold gameApplyMove
  rw [if_neg (not_not.mpr h.1), if_neg (not_not.mpr h.2)]
  rfl

theorem gameApplyMove_eq_zero : (gameApplyMove g move).1 = 0 ↔ g.Accepts move := by
  by_cases h : g.Accepts move
  . simp [gameApplyMove_accepted h, h]
  . simp [gameApplyMove_refused h, h]

theorem gameIsOver_some (h : boardWinner? g.rows = some role)
    : gameIsOver g = (true, { g with winner := role, isOver := true }) := by
  simp [gameIsOver, h]

theorem gameIsOver_full (h : boardWinner? g.rows = none) (hfull : boardFull g.rows = true)
    : gameIsOver g = (true, { g with winner := .nullRole, isOver := true }) := by
  simp [gameIsOver, h, hfull]

theorem gameIsOver_none (h : boardWinner? g.rows = none) (hfull : boardFull g.rows = false)
    : gameIsOver g = (g.isOver, g) := by
  simp [gameIsOver, h, hfull]

theorem gameIsOver_keeps (g : Game)
    : (gameIsOver g).2.rows = g.rows ∧ (gameIsOver g).2.currentPlayer = g.currentPlayer
        ∧ (gameIsOver g).2.refCount = g.refCount := by
  unfold gameIsOver
  split
  . exact ⟨rfl, rfl, rfl⟩
  . split
    . exact ⟨rfl, rfl, rfl⟩
    . exact ⟨rfl, rfl, rfl⟩

/--
What a board that no more moves are made on says about the winner: somebody has completed a line, or
the board is full and nobody has.
-/
def Decides (board : Vector GameRole 9) (winner : GameRole) : Prop :=
  Owns board winner
    ∨ (winner = .nullRole ∧ boardFull board = true ∧ ∀ role, ¬ Owns board role)

theorem gameIsOver_outcome (hlive : g.isOver = false) (hover : (gameIsOver g).2.isOver = true)
    : Decides (gameIsOver g).2.rows (gameIsOver g).2.winner := by
  cases hwinner : boardWinner? g.rows with
  | some role =>
    rw [gameIsOver_some hwinner]
    exact .inl (owns_of_boardWinner? hwinner)
  | none =>
    cases hfull : boardFull g.rows with
    | true =>
      rw [gameIsOver_full hwinner hfull]
      exact .inr ⟨rfl, hfull, boardWinner?_eq_none.mp hwinner⟩
    | false =>
      rw [gameIsOver_none hwinner hfull, hlive] at hover
      simp at hover

theorem gameApplyMove_outcome (hlive : g.isOver = false)
    (hover : (gameApplyMove g move).2.isOver = true)
    : Decides (gameApplyMove g move).2.rows (gameApplyMove g move).2.winner := by
  by_cases haccepts : g.Accepts move
  . rw [gameApplyMove_accepted haccepts] at hover ⊢
    exact gameIsOver_outcome hlive hover
  . simp [gameApplyMove_refused haccepts, hlive] at hover

theorem gameApplyMove_refCount (g : Game) (move : GameMove)
    : (gameApplyMove g move).2.refCount = g.refCount := by
  by_cases haccepts : g.Accepts move
  . rw [gameApplyMove_accepted haccepts]
    exact (gameIsOver_keeps _).2.2
  . rw [gameApplyMove_refused haccepts]

/-! ## Games by their moves -/

structure Play where
  game : Game
  last : Option GameRole

def freshPlay : Play where
  game := gameCreate
  last := none

def Play.attempt (p : Play) (move : GameMove) : Play where
  game := (gameApplyMove p.game move).2
  last := if (gameApplyMove p.game move).1 = 0 then some move.role else p.last

def playMachine : Machine Play GameMove where
  step p move := some (p.attempt move)

/--
How the parts of a game that is being played, or has just ended by a move, fit together.
-/
structure Play.Sound (p : Play) : Prop where
  first : p.game.currentPlayer = .firstPlayerRole →
    marks p.game.rows .firstPlayerRole = marks p.game.rows .secondPlayerRole
  second : p.game.currentPlayer = .secondPlayerRole →
    marks p.game.rows .firstPlayerRole = marks p.game.rows .secondPlayerRole + 1
  turn : p.game.currentPlayer ≠ .nullRole
  one_owner : ∀ role role', Owns p.game.rows role → Owns p.game.rows role' → role = role'
  ended : p.game.isOver = true ↔ (∃ role, Owns p.game.rows role) ∨ boardFull p.game.rows = true
  winner : ∀ role, Owns p.game.rows role → p.game.winner = role ∧ p.last = some role
  draw : (∀ role, ¬ Owns p.game.rows role) → p.game.winner = .nullRole

theorem freshPlay_sound : freshPlay.Sound := by
  have hnone : ∀ role, ¬ Owns freshPlay.game.rows role := by
    rw [← boardWinner?_eq_none]
    decide
  constructor
  . intro _
    rfl
  . intro h
    simp [freshPlay, gameCreate] at h
  . simp [freshPlay, gameCreate]
  . intro role role' h
    exact absurd h (hnone role)
  . have hover : freshPlay.game.isOver = false := rfl
    have hfull : boardFull freshPlay.game.rows = false := by
      rw [Bool.eq_false_iff, ne_eq, boardFull_iff]
      decide
    simp [hover, hfull, hnone]
  . intro role h
    exact absurd h (hnone role)
  . intro _
    rfl

theorem Play.Sound.accepted {p : Play} (h : p.Sound) (hlive : p.game.isOver = false)
    (haccepts : p.game.Accepts move) : (p.attempt move).Sound := by
  have hnone : ∀ role, ¬ Owns p.game.rows role := by
    intro role howns
    have := h.ended.mpr (.inl ⟨role, howns⟩)
    simp [hlive] at this
  have hmine : ∀ role, Owns (p.game.played move).rows role → role = move.role :=
    fun role howns => owns_set howns hnone
  have hturn : move.role ≠ .nullRole := haccepts.1 ▸ h.turn
  have hgame : (p.attempt move).game = (gameIsOver (p.game.played move)).2 := by
    simp only [attempt, gameApplyMove_accepted haccepts]
  have hlast : (p.attempt move).last = some move.role := by
    simp only [attempt, gameApplyMove_eq_zero, if_pos haccepts]
  obtain ⟨hrows, hplayer, -⟩ := gameIsOver_keeps (p.game.played move)
  have hrows' := hrows
  rw [← hgame] at hrows hplayer
  have hmarks : ∀ role, role ≠ .nullRole → marks (p.attempt move).game.rows role
      = marks p.game.rows role + if move.role = role then 1 else 0 := by
    intro role hrole
    rw [hrows]
    exact marks_set haccepts.2 hrole
  have hfirst := hmarks .firstPlayerRole (by simp)
  have hsecond := hmarks .secondPlayerRole (by simp)
  -- whose turn it was decides whose it is now
  have hnext : (p.game.currentPlayer = .firstPlayerRole
        ∧ (p.attempt move).game.currentPlayer = .secondPlayerRole)
      ∨ (p.game.currentPlayer = .secondPlayerRole
        ∧ (p.attempt move).game.currentPlayer = .firstPlayerRole) := by
    rw [hplayer, Game.played_currentPlayer]
    cases hcurrent : p.game.currentPlayer with
    | nullRole => exact absurd hcurrent h.turn
    | firstPlayerRole => exact .inl ⟨rfl, rfl⟩
    | secondPlayerRole => exact .inr ⟨rfl, rfl⟩
  constructor
  . intro hcurrent
    rcases hnext with hnext | hnext
    . simp [hnext.2] at hcurrent
    . have hcount := h.second hnext.1
      rw [← haccepts.1, hnext.1] at hfirst hsecond
      simp only [reduceCtorEq, ↓reduceIte] at hfirst hsecond
      omega
  . intro hcurrent
    rcases hnext with hnext | hnext
    . have hcount := h.first hnext.1
      rw [← haccepts.1, hnext.1] at hfirst hsecond
      simp only [reduceCtorEq, ↓reduceIte] at hfirst hsecond
      omega
    . simp [hnext.2] at hcurrent
  . rcases hnext with hnext | hnext
    . simp [hnext.2]
    . simp [hnext.2]
  . intro role role' howns howns'
    rw [hrows] at howns howns'
    rw [hmine role howns, hmine role' howns']
  . rw [hgame, hrows']
    cases hwinner : boardWinner? (p.game.played move).rows with
    | some winner =>
      rw [gameIsOver_some hwinner]
      simp only [true_iff]
      exact .inl ⟨winner, owns_of_boardWinner? hwinner⟩
    | none =>
      have hno := boardWinner?_eq_none.mp hwinner
      cases hfull : boardFull (p.game.played move).rows with
      | true => simp [gameIsOver_full hwinner hfull]
      | false =>
        rw [gameIsOver_none hwinner hfull, Game.played_isOver, hlive]
        constructor
        . intro hover
          simp at hover
        . rintro (⟨role, howns⟩ | hcontra)
          . exact absurd howns (hno role)
          . simp at hcontra
  . intro role howns
    rw [hrows] at howns
    obtain rfl := hmine role howns
    refine ⟨?_, hlast⟩
    cases hwinner : boardWinner? (p.game.played move).rows with
    | some winner =>
      rw [hgame, gameIsOver_some hwinner]
      exact hmine winner (owns_of_boardWinner? hwinner)
    | none => exact absurd howns (boardWinner?_eq_none.mp hwinner _)
  . intro hno
    rw [hrows] at hno
    have hwinner := boardWinner?_eq_none.mpr hno
    rw [hgame]
    cases hfull : boardFull (p.game.played move).rows with
    | true => rw [gameIsOver_full hwinner hfull]
    | false =>
      rw [gameIsOver_none hwinner hfull]
      exact h.draw hnone

theorem Play.Sound.gameIsOver_eq {p : Play} (h : p.Sound)
    : gameIsOver p.game = (p.game.isOver, p.game) := by
  cases hwinner : boardWinner? p.game.rows with
  | some winner =>
    have howns := owns_of_boardWinner? hwinner
    have hover := h.ended.mpr (.inl ⟨winner, howns⟩)
    rw [gameIsOver_some hwinner, hover, ← (h.winner winner howns).1, ← hover]
  | none =>
    have hno := boardWinner?_eq_none.mp hwinner
    cases hfull : boardFull p.game.rows with
    | true =>
      have hover := h.ended.mpr (.inr hfull)
      rw [gameIsOver_full hwinner hfull, hover, ← h.draw hno, ← hover]
    | false => exact gameIsOver_none hwinner hfull

theorem Play.attempt_refused {p : Play} (h : ¬ p.game.Accepts move) : p.attempt move = p := by
  simp [attempt, gameApplyMove_refused h]

theorem sound_of_reach {p : Play}
    (hreach : playMachine.Reach (fun p _ => p.game.isOver = false) freshPlay p) : p.Sound := by
  apply hreach.invariant Play.Sound freshPlay_sound
  intro p move p' hsound hlive hstep
  obtain rfl := Option.some.inj hstep
  by_cases haccepts : p.game.Accepts move
  . exact hsound.accepted hlive haccepts
  . rw [Play.attempt_refused haccepts]
    exact hsound

/--
In every game played by attempts at moves, until it is over: turns alternate, at most one role
completes a line, and the end and the winner are noticed at once.
-/
theorem play_sound {p : Play}
    (hreach : playMachine.Reach (fun p _ => p.game.isOver = false) freshPlay p)
    : p.Sound ∧ gameIsOver p.game = (p.game.isOver, p.game)
        ∧ ∀ move, (gameApplyMove p.game move).1 ≠ 0 →
          (gameApplyMove p.game move).1 = -1 ∧ (gameApplyMove p.game move).2 = p.game := by
  have hsound := sound_of_reach hreach
  refine ⟨hsound, hsound.gameIsOver_eq, ?_⟩
  intro move hrefused
  rw [ne_eq, gameApplyMove_eq_zero] at hrefused
  rw [gameApplyMove_refused hrefused]
  exact ⟨rfl, rfl⟩

theorem play_sound_of_line
    : ∃ p, playMachine.Reach (fun p _ => p.game.isOver = false) freshPlay p
        ∧ p.game.winner = .firstPlayerRole ∧ p.Sound := by
  obtain ⟨p, hreach, hwinner⟩ := Machine.Reach.of_any_run playMachine
    (fun p _ => p.game.isOver = false) freshPlay
    [⟨0, .firstPlayerRole⟩, ⟨0, .secondPlayerRole⟩, ⟨4, .secondPlayerRole⟩, ⟨1, .firstPlayerRole⟩,
      ⟨3, .secondPlayerRole⟩, ⟨2, .firstPlayerRole⟩]
    (fun p => decide (p.game.winner = .firstPlayerRole)) (by decide +kernel)
  exact ⟨p, hreach, of_decide_eq_true hwinner, (play_sound hreach).1⟩

end Jeux
