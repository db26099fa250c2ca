import Jeux.Game.Rules

/-!
What `game_unparse_state` tells. The text shows the board and the turn, and a game that is being
played, or has just ended by a move, has nothing to it beyond that.
-/

namespace Jeux

variable {g g' : Game} {p p' : Play} {move : GameMove}

theorem squareMark_inj {role role' : GameRole} (h : squareMark role = squareMark role')
    : role = role' := by
  revert h
  cases role <;> cases role' <;> decide

theorem gameUnparseState_eq_iff
    : gameUnparseState g = gameUnparseState g'
        ↔ g.rows = g'.rows
          ∧ (g.currentPlayer = .firstPlayerRole ↔ g'.currentPlayer = .firstPlayerRole) := by
  have hturn : (if g.currentPlayer = .firstPlayerRole then ascii 'X' else ascii 'O')
        = (if g'.currentPlayer = .firstPlayerRole then ascii 'X' else ascii 'O')
      ↔ (g.currentPlayer = .firstPlayerRole ↔ g'.currentPlayer = .firstPlayerRole) := by
    have hne : ascii 'X' ≠ ascii 'O' := by decide
    by_cases h : g.currentPlayer = .firstPlayerRole <;>
      by_cases h' : g'.currentPlayer = .firstPlayerRole <;> simp [h, h', hne, hne.symm]
  constructor
  . intro h
    simp only [gameUnparseState, boardRow, boardFloor, List.cons_append, List.nil_append,
      List.append_assoc, List.cons.injEq, true_and, List.append_cancel_left_eq, and_true] at h
    obtain ⟨h0, h1, h2, h3, h4, h5, h6, h7, h8, hend⟩ := h
    refine ⟨?_, hturn.mp hend⟩
    apply Vector.ext
    intro i hi
    match i, hi with
    | 0, _ => exact squareMark_inj h0
    | 1, _ => exact squareMark_inj h1
    | 2, _ => exact squareMark_inj h2
    | 3, _ => exact squareMark_inj h3
    | 4, _ => exact squareMark_inj h4
    | 5, _ => exact squareMark_inj h5
    | 6, _ => exact squareMark_inj h6
    | 7, _ => exact squareMark_inj h7
    | 8, _ => exact squareMark_inj h8
  . rintro ⟨hrows, hplayer⟩
    rw [gameUnparseState, gameUnparseState, hrows, hturn.mpr hplayer]

theorem Play.Sound.game_eq (h : p.Sound) (h' : p'.Sound) (hrows : p.game.rows = p'.game.rows)
    (hturn : p.game.currentPlayer = .firstPlayerRole ↔ p'.game.currentPlayer = .firstPlayerRole)
    (href : p.game.refCount = p'.game.refCount) : p.game = p'.game := by
  have hover : p.game.isOver = p'.game.isOver := by
    rw [Bool.eq_iff_iff, h.ended, h'.ended, hrows]
  have hplayer : p.game.currentPlayer = p'.game.currentPlayer := by
    have hnull := h.turn
    have hnull' := h'.turn
    cases hp : p.game.currentPlayer <;> cases hp' : p'.game.currentPlayer <;> simp_all
  have hwinner : p.game.winner = p'.game.winner := by
    by_cases howns : ∃ role, Owns p.game.rows role
    . obtain ⟨role, howns⟩ := howns
      rw [(h.winner role howns).1, (h'.winner role (hrows ▸ howns)).1]
    . rw [not_exists] at howns
      rw [h.draw howns, h'.draw (hrows ▸ howns)]
  calc p.game
      = ⟨p.game.rows, p.game.refCount, p.game.isOver, p.game.currentPlayer, p.game.winner⟩ := rfl
    _ = p'.game := by rw [hrows, href, hover, hplayer, hwinner]

/--
Two games, each played by attempts at moves until it is over, that print the same are the same:
squares, turn, end and winner.
-/
theorem unparseState_inj
    (hreach : playMachine.Reach (fun p _ => p.game.isOver = false) freshPlay p)
    (hreach' : playMachine.Reach (fun p _ => p.game.isOver = false) freshPlay p')
    : gameUnparseState p.game = gameUnparseState p'.game ↔ p.game = p'.game := by
  have href : ∀ q, playMachine.Reach (fun p _ => p.game.isOver = false) freshPlay q →
      q.game.refCount = 1 := by
    intro q hq
    refine hq.invariant (fun q => q.game.refCount = 1) rfl ?_
    intro q move q' hone _ hstep
    obtain rfl := Option.some.inj hstep
    exact (gameApplyMove_refCount q.game move).trans hone
  constructor
  . intro htext
    obtain ⟨hrows, hturn⟩ := gameUnparseState_eq_iff.mp htext
    exact (sound_of_reach hreach).game_eq (sound_of_reach hreach') hrows hturn
      ((href p hreach).trans (href p' hreach').symm)
  . intro h
    rw [h]

/--
Two orders of moves that come to the same.
-/
theorem unparseState_inj_of_transposed
    : ∃ p p', playMachine.Reach (fun p _ => p.game.isOver = false) freshPlay p
        ∧ playMachine.Reach (fun p _ => p.game.isOver = false) freshPlay p'
        ∧ p.last = some .firstPlayerRole ∧ p.game = p'.game := by
  obtain ⟨p, hreach, hp⟩ := Machine.Reach.of_any_run playMachine
    (fun p _ => p.game.isOver = false) freshPlay
    [⟨0, .firstPlayerRole⟩, ⟨4, .secondPlayerRole⟩, ⟨8, .firstPlayerRole⟩]
    (fun p => p.last = some .firstPlayerRole ∧ gameUnparseState p.game
      = [88, 124, 32, 124, 32, 10, 45, 45, 45, 45, 45, 10, 32, 124, 79, 124, 32, 10, 45, 45, 45, 45,
        45, 10, 32, 124, 32, 124, 88, 10, 79, 32, 116, 111, 32, 109, 111, 118, 101, 10])
    (by decide +kernel)
  obtain ⟨p', hreach', hp'⟩ := Machine.Reach.of_any_run playMachine
    (fun p _ => p.game.isOver = false) freshPlay
    [⟨8, .firstPlayerRole⟩, ⟨8, .secondPlayerRole⟩, ⟨4, .secondPlayerRole⟩, ⟨0, .firstPlayerRole⟩]
    (fun p => gameUnparseState p.game
      = [88, 124, 32, 124, 32, 10, 45, 45, 45, 45, 45, 10, 32, 124, 79, 124, 32, 10, 45, 45, 45, 45,
        45, 10, 32, 124, 32, 124, 88, 10, 79, 32, 116, 111, 32, 109, 111, 118, 101, 10])
    (by decide +kernel)
  obtain ⟨hlast, htext⟩ := of_decide_eq_true hp
  exact ⟨p, p', hreach, hreach', hlast,
    (unparseState_inj hreach hreach').mp (htext.trans (of_decide_eq_true hp').symm)⟩

end Jeux
