import Mathlib.Tactic.FieldSimp
import Mathlib.Tactic.Linarith
import Jeux.Lemmas.Play

/-!
What `player_post_result` makes of two ratings: the values player.h documents, although the second
is not computed by its formula.
-/

namespace Jeux

section Truncate

variable {K : Type} [Field K] [LinearOrder K] [FloorRing K] {x y : K} {n : Int}

theorem truncate_of_nonneg (h : 0 ≤ x) : truncate x = ⌊x⌋ := if_pos h

theorem truncate_of_neg (h : x < 0) : truncate x = ⌈x⌉ := if_neg (not_le.mpr h)

variable [IsStrictOrderedRing K]

@[simp]
theorem truncate_intCast (n : Int) : truncate (n : K) = n := by
  unfold truncate
  split
  . exact Int.floor_intCast n
  . exact Int.ceil_intCast n

theorem le_truncate (h : (n : K) ≤ x) : n ≤ truncate x := by
  unfold truncate
  split
  . exact Int.le_floor.mpr h
  . exact Int.cast_le.mp (h.trans (Int.le_ceil x))

theorem truncate_le (h : x ≤ n) : truncate x ≤ n := by
  unfold truncate
  split
  . exact Int.cast_le.mp ((Int.floor_le x).trans h)
  . exact Int.ceil_le.mpr h

end Truncate

section Ratings

def GameRole.swapped : GameRole → GameRole
  | .nullRole => .nullRole
  | .firstPlayerRole => .secondPlayerRole
  | .secondPlayerRole => .firstPlayerRole

/--
What is asked of the expected score of a player whose opponent is rated `d` points higher.
-/
structure Expectation {K : Type} [Field K] [LinearOrder K] (expected : Int → K) : Prop where
  pos : ∀ d, 0 < expected d
  lt_one : ∀ d, expected d < 1
  add_neg : ∀ d, expected d + expected (-d) = 1

theorem Expectation.range {K : Type} [Field K] [LinearOrder K] {expected : Int → K}
    (h : Expectation expected) (d : Int) : 0 ≤ expected d ∧ expected d ≤ 1 :=
  ⟨(h.pos d).le, (h.lt_one d).le⟩

variable {K : Type} [Field K]

theorem score1_swapped (result : GameRole) : (score1 result.swapped : K) = score2 result := by
  cases result <;> rfl

theorem score2_swapped (result : GameRole) : (score2 result.swapped : K) = score1 result := by
  cases result <;> rfl

variable [LinearOrder K] [IsStrictOrderedRing K] {expected : Int → K}

theorem score1_add_score2 (result : GameRole) : (score1 result + score2 result : K) = 1 := by
  cases result with
  | nullRole => exact add_halves 1
  | firstPlayerRole => exact add_zero 1
  | secondPlayerRole => exact zero_add 1

theorem Expectation.swap (h : Expectation expected) (rating1 rating2 : Int)
    : expected (rating1 - rating2) = 1 - expected (rating2 - rating1) := by
  have := h.add_neg (rating2 - rating1)
  rw [neg_sub] at this
  linarith

theorem Expectation.zero (h : Expectation expected) : expected 0 = 1 / 2 := by
  have := h.add_neg 0
  rw [neg_zero] at this
  linarith

/--
What the first player leaves of the sum is what the formula gives the second one.
-/
theorem Expectation.rest (h : Expectation expected) (rating1 rating2 : Int) (result : GameRole)
    : ((rating1 + rating2 : Int) : K)
          - documentedRating rating1 (score1 result) (expected (rating2 - rating1))
        =
      documentedRating rating2 (score2 result) (expected (rating1 - rating2)) := by
  have := score1_add_score2 (K := K) result
  rw [h.swap rating1 rating2]
  unfold documentedRating
  push_cast
  linarith

variable [FloorRing K]

theorem Expectation.postedRatings_eq (h : Expectation expected) (rating1 rating2 : Int)
    (result : GameRole)
    : postedRatings expected rating1 rating2 result
        =
      (truncate (documentedRating rating1 (score1 result) (expected (rating2 - rating1))),
        truncate (documentedRating rating2 (score2 result) (expected (rating1 - rating2)))) := by
  rw [← h.rest]
  rfl

/-! ## A single player -/

variable {rating : Int} {e x : K}

theorem le_truncate_won (he : e < 1) : rating ≤ truncate (documentedRating rating 1 e) := by
  apply le_truncate
  unfold documentedRating
  linarith

theorem truncate_lost_le (he : 0 < e) : truncate (documentedRating rating 0 e) ≤ rating := by
  apply truncate_le
  unfold documentedRating
  linarith

theorem abs_truncate_add_sub_le {m : Int} (hlow : -(m : K) ≤ x) (hhigh : x ≤ m)
    : |truncate (rating + x) - rating| ≤ m := by
  have hge : rating - m ≤ truncate (rating + x) := by
    apply le_truncate
    push_cast
    linarith
  have hle : truncate (rating + x) ≤ rating + m := by
    apply truncate_le
    push_cast
    linarith
  rw [abs_le]
  omega

theorem score1_mem (result : GameRole) : 0 ≤ (score1 result : K) ∧ (score1 result : K) ≤ 1 := by
  cases result <;> norm_num [score1]

theorem score2_mem (result : GameRole) : 0 ≤ (score2 result : K) ∧ (score2 result : K) ≤ 1 := by
  rw [← score1_swapped]
  exact score1_mem result.swapped

/-! ## Both players -/

theorem postedRatings_bounded (h : ∀ d, 0 ≤ expected d ∧ expected d ≤ 1) (rating1 rating2 : Int)
    (result : GameRole)
    : |(postedRatings expected rating1 rating2 result).1 - rating1| ≤ 32
      ∧ |(postedRatings expected rating1 rating2 result).2 - rating2| ≤ 32 := by
  have ⟨hexp0, hexp1⟩ := h (rating2 - rating1)
  have ⟨hscore0, hscore1⟩ := score1_mem (K := K) result
  have hrest : ((rating1 + rating2 : Int) : K)
      - (rating1 + 32 * (score1 result - expected (rating2 - rating1)))
        = rating2 + -(32 * (score1 result - expected (rating2 - rating1))) := by
    push_cast
    ring
  unfold postedRatings
  dsimp only
  rw [hrest]
  constructor
  . apply abs_truncate_add_sub_le <;> push_cast <;> linarith
  . apply abs_truncate_add_sub_le <;> push_cast <;> linarith

/--
What the players of a game are promised: the documented values, whichever of them comes first,
and no change that goes against the result or beyond 32 points.
-/
structure PostsFairly (expected : Int → K) (rating1 rating2 : Int) (result : GameRole)
    : Prop where
  documented : postedRatings expected rating1 rating2 result
      =
    (truncate (documentedRating rating1 (score1 result) (expected (rating2 - rating1))),
      truncate (documentedRating rating2 (score2 result) (expected (rating1 - rating2))))
  swapped : postedRatings expected rating2 rating1 result.swapped
      =
    (postedRatings expected rating1 rating2 result).swap
  firstWon : result = .firstPlayerRole →
    rating1 ≤ (postedRatings expected rating1 rating2 result).1
      ∧ (postedRatings expected rating1 rating2 result).2 ≤ rating2
  secondWon : result = .secondPlayerRole →
    (postedRatings expected rating1 rating2 result).1 ≤ rating1
      ∧ rating2 ≤ (postedRatings expected rating1 rating2 result).2
  drawn : result = .nullRole → rating1 = rating2 →
    postedRatings expected rating1 rating2 result = (rating1, rating2)
  bounded : |(postedRatings expected rating1 rating2 result).1 - rating1| ≤ 32
    ∧ |(postedRatings expected rating1 rating2 result).2 - rating2| ≤ 32

theorem Expectation.swapped (h : Expectation expected) (rating1 rating2 : Int) (result : GameRole)
    : postedRatings expected rating2 rating1 result.swapped
        =
      (postedRatings expected rating1 rating2 result).swap := by
  rw [h.postedRatings_eq, h.postedRatings_eq, score1_swapped, score2_swapped]
  rfl

theorem Expectation.drawn (h : Expectation expected) (rating : Int)
    : postedRatings expected rating rating .nullRole = (rating, rating) := by
  have hsame : documentedRating rating (1 / 2 : K) (expected 0) = rating := by
    unfold documentedRating
    rw [h.zero, sub_self, mul_zero, add_zero]
  rw [h.postedRatings_eq, sub_self]
  unfold score1 score2
  rw [hsame, truncate_intCast]

theorem Expectation.won (h : Expectation expected) (rating : Int)
    : postedRatings expected rating rating .firstPlayerRole = (rating + 16, rating - 16) := by
  have hwon : documentedRating rating (1 : K) (expected 0) = (rating + 16 : Int) := by
    unfold documentedRating
    rw [h.zero]
    push_cast
    ring
  have hlost : documentedRating rating (0 : K) (expected 0) = (rating - 16 : Int) := by
    unfold documentedRating
    rw [h.zero]
    push_cast
    ring
  rw [h.postedRatings_eq, sub_self]
  unfold score1 score2
  rw [hwon, hlost, truncate_intCast, truncate_intCast]

theorem playerPostResult_ratings {env : Env} {w : World} {player1 player2 : PlayerPtr}
    {p1 p2 : Player} (result : GameRole) (hne : player1 ≠ player2)
    (hp1 : w.store.players.get? player1 = some p1) (hp2 : w.store.players.get? player2 = some p2)
    : ∃ w', (playerPostResult player1 player2 result).run env w = .ok ((), w')
      ∧ w'.store.players.get? player1
          = some { p1 with rating := (postedRatings env.expected p1.rating p2.rating result).1 }
      ∧ w'.store.players.get? player2
          = some { p2 with rating := (postedRatings env.expected p1.rating p2.rating result).2 } := by
  refine ⟨_, playerPostResult_run result hp1 hp2, ?_, ?_⟩
  . simp [Store.post, hne, hp1, hp2, Store.modifyPlayer]
  . simp [Store.post, hne, hne.symm, hp1, hp2, Store.modifyPlayer]

theorem Expectation.fair (h : Expectation expected) (rating1 rating2 : Int) (result : GameRole)
    : PostsFairly expected rating1 rating2 result where
  documented := h.postedRatings_eq rating1 rating2 result
  swapped := h.swapped rating1 rating2 result
  firstWon := by
    rintro rfl
    rw [h.postedRatings_eq]
    exact ⟨le_truncate_won (h.lt_one _), truncate_lost_le (h.pos _)⟩
  secondWon := by
    rintro rfl
    rw [h.postedRatings_eq]
    exact ⟨truncate_lost_le (h.pos _), le_truncate_won (h.lt_one _)⟩
  drawn := by
    rintro rfl rfl
    exact h.drawn rating1
  bounded := postedRatings_bounded h.range rating1 rating2 result

/--
With exact arithmetic `player_post_result` gives both players the documented ratings.
-/
theorem posts_fairly (h : Expectation expected) (result : GameRole)
    : (∀ rating1 rating2, PostsFairly expected rating1 rating2 result)
      ∧ ∀ (env : Env) (w : World) (player1 player2 : PlayerPtr) (p1 p2 : Player),
          player1 ≠ player2 → w.store.players.get? player1 = some p1 →
          w.store.players.get? player2 = some p2 →
          ∃ w', (playerPostResult player1 player2 result).run env w = .ok ((), w')
            ∧ w'.store.players.get? player1
                = some { p1 with
                    rating := (postedRatings env.expected p1.rating p2.rating result).1 }
            ∧ w'.store.players.get? player2
                = some { p2 with
                    rating := (postedRatings env.expected p1.rating p2.rating result).2 } :=
  ⟨fun rating1 rating2 => h.fair rating1 rating2 result,
    fun _ _ _ _ _ _ hne hp1 hp2 => playerPostResult_ratings result hne hp1 hp2⟩

def slope (d : Int) : Rat := (1 - d / (1 + |(d : Rat)|)) / 2

theorem slope_expectation : Expectation slope := by
  have hpos : ∀ d : Int, (0 : Rat) < 1 + |(d : Rat)| := fun d => by positivity
  constructor
  . intro d
    have hlt : (d : Rat) / (1 + |(d : Rat)|) < 1 := by
      rw [div_lt_one (hpos d)]
      linarith [le_abs_self (d : Rat)]
    unfold slope
    linarith
  . intro d
    have hlt : -1 < (d : Rat) / (1 + |(d : Rat)|) := by
      rw [lt_div_iff₀ (hpos d)]
      linarith [neg_abs_le (d : Rat)]
    unfold slope
    linarith
  . intro d
    unfold slope
    push_cast
    rw [abs_neg, neg_div]
    ring

theorem posts_fairly_of_slope : PostsFairly slope 1500 (-1507) .secondPlayerRole :=
  (posts_fairly slope_expectation .secondPlayerRole).1 1500 (-1507)

end Ratings

end Jeux
